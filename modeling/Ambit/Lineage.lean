/-
Where types come from.

A type is looked at in its normal form: a nullable value type is an instance of the registered
wrapper, and a nullable type of another kind is the type itself.  The direct supertypes of a type
are its base — the declared one, or the one that every type of its kind has — and its interfaces,
with the type arguments put in; those of a type parameter are its constraints.  The supertypes are
all types that are reached in such steps.  Declarations may lead back to where they came from, which
is a breach; a walk never has more types on its way than there are declarations, so the number of
declarations bounds it.

Main definitions:

* `Ambit.Store.normalize` — the normal form of a type;
* `Ambit.Store.directSupertypes`, `Ambit.Store.supertypes` — **the supertypes of a type**;
* `Ambit.Store.baseChain` — a class, its base, the base of that, and so on;
* `Ambit.Store.derivesFrom`, `Ambit.Store.implements`, `Ambit.Store.satisfies` — the questions that
  they answer.
-/

import Ambit.Fault
import Ambit.Store

set_option relaxedAutoImplicit false
set_option autoImplicit false

namespace Ambit.Store

/-! ### The normal form -/

def isValueType (s : Store) : TypeRef → Bool
  | .named d _ =>
      match s.types[d]? with
      | some decl => decl.kind.isValueType
      | none => false
  | .param p =>
      match s.typeParams[p]? with
      | some param => param.valueType
      | none => false
  | .nullable t => s.isValueType t
  | .array _ _ => false
  | .unresolved => false

/-- The type that a nullable type is, when the type under the mark is in normal form. -/
def wrap (s : Store) (inner : TypeRef) : TypeRef :=
  if s.isValueType inner then
    match s.wellKnown[WellKnown.nullable]? with
    | some wrapper => .named wrapper [inner]
    | none => .nullable inner
  else inner

/-- **The normal form of a type**: nullable value types are instances of the wrapper, and other
types lose the mark. -/
def normalize (s : Store) : TypeRef → TypeRef
  | .nullable t => s.wrap (s.normalize t)
  | t => t

/-- The type that an instance of the wrapper wraps. -/
def underlying? (s : Store) (t : TypeRef) : Option TypeRef :=
  match s.normalize t with
  | .named d [inner] => if s.isWellKnown d .nullable then some inner else none
  | _ => none

/-- The substitution of the arguments of a type for the parameters of its definition. -/
def instantiation (s : Store) : TypeRef → Substitution
  | .named d args => .ofPairs (s.typeParamsOf d) args
  | _ => ∅

/-! ### Direct supertypes -/

def declOf? (s : Store) (t : TypeRef) : Option TypeDecl := t.definition?.bind (s.types[·]?)

def isClassLike (s : Store) (t : TypeRef) : Bool :=
  match s.declOf? t with
  | some decl => decl.kind != .interfaceType
  | none => false

def isInterface (s : Store) (t : TypeRef) : Bool :=
  match s.declOf? t with
  | some decl => decl.kind == .interfaceType
  | none => false

/-- The type that all types of a kind come from, if they are declared without a base. -/
def rootOf (kind : TypeKind) : Option WellKnown :=
  match kind with
  | .interfaceType => none
  | .structType | .recordStruct => some .valueType
  | .enumType => some .enum
  | .classType | .recordType | .delegateType => some .object

/-- The base of a type that is declared without one. -/
def impliedBase? (s : Store) (decl : TypeDecl) : Option SymbolId :=
  ((rootOf decl.kind).bind (s.wellKnown[·]?)).filter (· != decl.id)

/-- The base of a declared type, before its arguments are put in. -/
def declaredBase? (s : Store) (decl : TypeDecl) : Option TypeRef :=
  match decl.base with
  | some base => some base
  | none => (s.impliedBase? decl).map .plain

def plainWellKnown? (s : Store) (kind : WellKnown) : Option TypeRef :=
  (s.wellKnown[kind]?).map .plain

/-- The constraints of a type parameter, and the root of all types if none of them is a class. -/
def paramSupertypes (s : Store) (p : SymbolId) : List TypeRef :=
  let constraints :=
    match s.typeParams[p]? with
    | some param => param.constraints
    | none => []
  if constraints.any s.isClassLike then constraints
  else
    let root := if s.isValueType (.param p) then WellKnown.valueType else WellKnown.object
    constraints ++ (s.plainWellKnown? root).toList

/-- The direct supertypes of a type in normal form. -/
def supertypesOfNormal (s : Store) : TypeRef → List TypeRef
  | .named d args =>
      match s.types[d]? with
      | none => []
      | some decl =>
          ((s.declaredBase? decl).toList ++ decl.interfaces).map
            (TypeRef.substitute (s.instantiation (.named d args)))
  | .param p => s.paramSupertypes p
  | .array _ _ => (s.plainWellKnown? .object).toList
  | .nullable _ => []
  | .unresolved => []

/-- **The direct supertypes of a type**, the base before the interfaces. -/
def directSupertypes (s : Store) (t : TypeRef) : List TypeRef :=
  s.supertypesOfNormal (s.normalize t)

/-! ### All supertypes -/

/-- A definition that comes from itself. -/
def inheritanceFault (s : Store) (d : SymbolId) : Fault :=
  .breach (.inheritanceCycle (s.nameOf d) d)

/-- Adds a type and its supertypes to the ones found, when the definitions on `path` lead to it. -/
def gatherSupertypes (s : Store) :
    Nat → List SymbolId → List TypeRef → TypeRef → Answer (List TypeRef)
  | 0, _, found, t =>
      match t.head? with
      | some d => .error (s.inheritanceFault d)
      | none => .ok found
  | fuel + 1, path, found, t =>
      match t.head?.filter path.contains with
      | some d => .error (s.inheritanceFault d)
      | none =>
          if found.contains t then .ok found
          else
            ((s.directSupertypes t).map s.normalize).foldlM
              (s.gatherSupertypes fuel (t.head?.toList ++ path)) (found ++ [t])

/-- A number of steps within which every walk has met a definition twice or come to an end. -/
def lineageBound (s : Store) : Nat := s.types.size + s.typeParams.size + 3

/-- **The supertypes of a type**, itself first, in the order in which they are reached. -/
def supertypes (s : Store) (signal : Signal) (t : TypeRef) : Answer (List TypeRef) := do
  signal.check
  s.gatherSupertypes s.lineageBound [] [] (s.normalize t)

def base? (s : Store) (t : TypeRef) : Option TypeRef :=
  (s.directSupertypes t).find? s.isClassLike

/-- The base classes from a type on, when the definitions `seen` come before. -/
def basesFrom (s : Store) : Nat → List SymbolId → TypeRef → Answer (List TypeRef)
  | 0, _, t =>
      match t.definition? with
      | some d => .error (.breach (.baseCycle d))
      | none => .ok [t]
  | fuel + 1, seen, t =>
      match t.definition?.filter seen.contains with
      | some d => .error (.breach (.baseCycle d))
      | none =>
          match s.base? t with
          | none => .ok [t]
          | some base =>
              (s.basesFrom fuel (t.definition?.toList ++ seen) (s.normalize base)).map (t :: ·)

/-- A type, its base class, the base class of that, and so on. -/
def baseChain (s : Store) (signal : Signal) (t : TypeRef) : Answer (List TypeRef) := do
  signal.check
  s.basesFrom (s.types.size + 2) [] (s.normalize t)

/-! ### Questions -/

/-- The first supertype with the given definition. -/
def supertypeWith? (s : Store) (signal : Signal) (t : TypeRef) (definition : SymbolId) :
    Answer (Option TypeRef) := do
  return (← s.supertypes signal t).find? fun u => u.definition? == some definition

/-- Whether a type is another one or derives from it, with the same type arguments.  A type that
could not be resolved does not. -/
def derivesFrom (s : Store) (signal : Signal) (t target : TypeRef) : Answer Bool :=
  if t.isUnresolved || target.isUnresolved then .ok false
  else do return (← s.supertypes signal t).contains (s.normalize target)

/-- Whether a type has a supertype with the given definition. -/
def implements (s : Store) (signal : Signal) (t : TypeRef) (definition : SymbolId) :
    Answer Bool := do
  return (← s.supertypeWith? signal t definition).isSome

def derivesFromAll (s : Store) (signal : Signal) (t : TypeRef) : List TypeRef → Answer Bool
  | [] => .ok true
  | u :: us => do
      if ← s.derivesFrom signal t u then s.derivesFromAll signal t us else return false

/-- Whether a type can be the argument for a type parameter: it is of the required kind, and
derives from the constraints after substitution. -/
def satisfies (s : Store) (signal : Signal) (t : TypeRef) (param : SymbolId)
    (given : Substitution) : Answer Bool :=
  if t.isUnresolved then .ok false
  else
    match s.typeParams[param]? with
    | none => .ok true
    | some info =>
        let isValue := s.isValueType t
        if info.valueType && (!isValue || (s.underlying? t).isSome) then .ok false
        else if info.referenceType && isValue then .ok false
        else do
          signal.during info.constraints
          s.derivesFromAll signal t (info.constraints.map (TypeRef.substitute given))

def isStaticType (s : Store) (symbol : SymbolId) : Bool :=
  match s.symbols[symbol]? with
  | some symbol => symbol.kind == .type && symbol.has .static
  | none => false

end Ambit.Store
