/-
Types of symbols, and the members that implement interface members.

The type of a type symbol is its definition applied to its own parameters.  A member of an
interface is implemented by the first member along the base classes that names it explicitly, or
that is public and has its kind, name and number of parameters.

Main definitions:

* `Ambit.Store.typeOf?` — the type of a symbol;
* `Ambit.Store.implementation?` — **the member that implements an interface member**.
-/

import Ambit.Lineage

set_option relaxedAutoImplicit false
set_option autoImplicit false

namespace Ambit.Store

/-- The type of a symbol: a type or a type parameter itself, and otherwise the declared one. -/
def typeOf? (s : Store) (symbol : SymbolId) : Option TypeRef :=
  match s.symbols[symbol]? with
  | none => none
  | some sym =>
      match sym.kind with
      | .type => some (.named symbol ((s.typeParamsOf symbol).map .param))
      | .typeParameter => some (.param symbol)
      | _ => sym.type

def paramCount? (s : Store) (method : SymbolId) : Option Nat :=
  (s.signatures[method]?).map fun signature => signature.params.length

/-- Whether a member implements an interface member without naming it. -/
def implementsImplicitly (s : Store) (target member : Symbol) : Bool :=
  member.kind == target.kind && member.name == target.name && !member.isStatic &&
    !member.isExplicit && member.access == .everywhere &&
    s.paramCount? member.id == s.paramCount? target.id

/-- The member of a class that implements an interface member. -/
def ownImplementation? (s : Store) (target : Symbol) (type : TypeRef) : Option SymbolId :=
  let members :=
    match type.definition? with
    | some d => s.membersOf d
    | none => []
  let explicit := members.find? fun m => m.implementsExplicitly == some target.id
  (explicit <|> members.find? (s.implementsImplicitly target)).map Symbol.id

/-- **The member that implements an interface member** in a type or one of its base classes. -/
def implementation? (s : Store) (signal : Signal) (t : TypeRef) (member : SymbolId) :
    Answer (Option SymbolId) :=
  match s.symbols[member]? with
  | none => .ok none
  | some target => do return (← s.baseChain signal t).findSome? (s.ownImplementation? target)

end Ambit.Store
