/-
Who may name a symbol.

Code stands inside a number of types, one around the other.  A public symbol can be named from
everywhere, one of the assembly from all text, a private one from inside its container, and a
protected one also from inside a type that comes from its container.

Main definitions:

* `Ambit.Site` — the types around a place, the innermost first;
* `Ambit.Store.siteAt` — the site of a scope;
* `Ambit.Store.canAccess` — **whether a symbol can be named from a site**.
-/

import Ambit.Conformance
import Ambit.Store.Chain

set_option relaxedAutoImplicit false
set_option autoImplicit false

namespace Ambit

/-- The types around a place, the innermost first. -/
structure Site where
  types : List SymbolId := []
deriving DecidableEq, Repr

namespace Store

def typeAround? (s : Store) (scope : ScopeId) : Option SymbolId :=
  match s.scopes[scope]? with
  | some scope => if scope.kind = .type then scope.owner else none
  | none => none

/-- The site of a scope. -/
def siteAt (s : Store) (scope : ScopeId) : Answer Site := do
  return ⟨(← s.ancestors scope).filterMap s.typeAround?⟩

def anyDerivesFrom (s : Store) (signal : Signal) (container : SymbolId) :
    List SymbolId → Answer Bool
  | [] => .ok false
  | type :: types =>
      match s.typeOf? type with
      | none => s.anyDerivesFrom signal container types
      | some self => do
          if ← s.implements signal self container then return true
          else s.anyDerivesFrom signal container types

/-- Whether a site lies in a container, or in a type that comes from it. -/
def canAccessProtected (s : Store) (signal : Signal) (site : Site) (container : SymbolId) :
    Answer Bool :=
  if site.types.contains container then .ok true
  else s.anyDerivesFrom signal container site.types

/-- **Whether a symbol can be named from a site.** -/
def canAccess (s : Store) (signal : Signal) (site : Site) (symbol : Symbol) : Answer Bool :=
  match symbol.container with
  | none => .ok (!symbol.fromMetadata || symbol.access == .everywhere)
  | some container =>
      match symbol.access with
      | .everywhere => .ok true
      | .assembly => .ok (!symbol.fromMetadata)
      | .container => .ok (site.types.contains container)
      | .derived => s.canAccessProtected signal site container
      | .assemblyOrDerived =>
          if symbol.fromMetadata then s.canAccessProtected signal site container else .ok true
      | .assemblyAndDerived =>
          if symbol.fromMetadata then .ok false else s.canAccessProtected signal site container

end Store

end Ambit
