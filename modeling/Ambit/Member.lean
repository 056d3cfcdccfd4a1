/-
The members of a type.

A type has its own members and the ones that it inherits, except those that a member of a more
derived type hides: a member that is not a method hides all members of its name, and a method hides
the methods of its name with the same number of parameters.  Members that implement an interface
member explicitly are not found by their name.  A class does not inherit the members of its
interfaces, while an interface or a type parameter does; an interface also has the members that
all objects have.

Main definitions:

* `Ambit.Member` — a member, and the type that it was found on;
* `Ambit.Store.typeMembers` — **the members of a type**;
* `Ambit.Store.memberType?` — the type of a member.
-/

import Ambit.Conformance

set_option relaxedAutoImplicit false
set_option autoImplicit false

namespace Ambit

/-- A member of a type. -/
structure Member where
  symbol : Symbol
  /-- The type that declares it, with its type arguments. -/
  declaring : TypeRef
  /-- It is declared by a supertype. -/
  inherited : Bool
deriving DecidableEq, Repr

/-- What the members of more derived types hide. -/
structure Hiding where
  names : List String := []
  /-- Methods by their names and numbers of parameters. -/
  methods : List (String × Nat) := []
deriving DecidableEq, Repr

namespace Store

/-- The name of a method and the number of its parameters. -/
def methodKey (s : Store) (method : Symbol) : String × Nat :=
  (method.name, (s.paramCount? method.id).getD 0)

def isHidden (s : Store) (h : Hiding) (m : Symbol) : Bool :=
  h.names.contains m.name || (m.kind == .method && h.methods.contains (s.methodKey m))

/-- What is hidden after some more members. -/
def hide (s : Store) (h : Hiding) (members : List Symbol) : Hiding where
  names := h.names ++ (members.filter fun m => m.kind != .method).map Symbol.name
  methods := h.methods ++ (members.filter fun m => m.kind == .method).map s.methodKey

/-- The members that a type declares itself and that are found by their names. -/
def namedMembers (s : Store) (t : TypeRef) : List Symbol :=
  match t with
  | .named d _ => (s.membersOf d).filter fun m => !m.isExplicit
  | _ => []

/-- The members of a sequence of types that none of the earlier types hides. -/
def unhiddenMembers (s : Store) : Hiding → Bool → List TypeRef → List Member
  | _, _, [] => []
  | h, inherited, t :: ts =>
      let own := (s.namedMembers t).filter fun m => !s.isHidden h m
      own.map (⟨·, t, inherited⟩) ++ s.unhiddenMembers (s.hide h own) true ts

/-- The types whose members a type in normal form has.  A class reaches the members of an interface
through its own members only. -/
def memberTypes (s : Store) (signal : Signal) (t : TypeRef) : Answer (List TypeRef) := do
  let types ← s.supertypes signal t
  if s.isInterface t then return types ++ (s.plainWellKnown? .object).toList
  else if t.isParam then return types
  else return types.filter fun u => !s.isInterface u

/-- **The members of a type**, the ones of more derived types first. -/
def typeMembers (s : Store) (signal : Signal) (type : TypeRef) : Answer (List Member) :=
  let t := s.normalize type
  if t.isUnresolved then .ok []
  else do return s.unhiddenMembers {} false (← s.memberTypes signal t)

/-- The type of a member, with the type arguments of its declaring type put in. -/
def memberType? (s : Store) (m : Member) : Option TypeRef :=
  if m.symbol.kind = .type then s.typeOf? m.symbol.id
  else m.symbol.type.map (TypeRef.substitute (s.instantiation m.declaring))

end Store

end Ambit
