/-
The check that the facts of a store fit together.

Every symbol is declared in a scope that is there; from every scope the parents lead outwards to a
scope without one, and a scope of the text lies inside its parent; a type declaration belongs to a
symbol that is a type; and a type parameter belongs to a symbol that is there.  The check reports
the first fact that does not fit.

Main definition:

* `Ambit.Store.check` — **the check**.
-/

import Ambit.Store.Chain

set_option relaxedAutoImplicit false
set_option autoImplicit false

namespace Ambit.Store

/-- A symbol is declared in a scope that is there. -/
def checkSymbol (s : Store) (symbol : Symbol) : Answer Unit :=
  if symbol.scope ∈ s.scopes then .ok ()
  else .error (.breach (.strayedSymbol symbol.name symbol.id symbol.scope))

/-- A scope of the text lies in its parent. -/
def checkNesting (scope parent : Scope) : Answer Unit :=
  if scope.fromMetadata || parent.fromMetadata || decide (parent.span.Covers scope.span) then .ok ()
  else .error (.breach (.escapingScope scope.id scope.span parent.id parent.span))

/-- The parents of a scope lead outwards, and it lies in the first of them. -/
def checkScope (s : Store) (scope : Scope) : Answer Unit := do
  let _ ← s.ancestors scope.id
  match scope.parent with
  | none => .ok ()
  | some id =>
      match s.scopes[id]? with
      | none => .error (.breach (.missingParent scope.id id))
      | some parent => checkNesting scope parent

/-- A type declaration belongs to a type. -/
def checkType (s : Store) (decl : TypeDecl) : Answer Unit :=
  match s.symbols[decl.id]? with
  | some symbol =>
      if symbol.kind = .type then .ok () else .error (.breach (.typeWithoutSymbol decl.id))
  | none => .error (.breach (.typeWithoutSymbol decl.id))

/-- A type parameter belongs to a symbol that is there. -/
def checkTypeParam (s : Store) (param : TypeParam) : Answer Unit :=
  if param.owner ∈ s.symbols then .ok ()
  else .error (.breach (.missingOwner param.id param.owner))

/-- **The check** that the facts of a store fit together. -/
def check (s : Store) : Answer Unit := do
  s.symbols.values.forM s.checkSymbol
  s.scopes.values.forM s.checkScope
  s.types.values.forM s.checkType
  s.typeParams.values.forM s.checkTypeParam

end Ambit.Store
