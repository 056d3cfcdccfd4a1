/-
Symbols that a new name must not collide with.

A name that is declared at a place competes with every symbol that is met from there outwards,
shadowed and later ones included, and with every symbol of the scope it is declared in and of the
scopes inside that.  Symbols that cannot be named from the place do not compete.

Main definitions:

* `Ambit.Symbol.rivalsLocal` — whether a symbol competes with a variable;
* `Ambit.Store.rivals` — **the symbols that a new name competes with**.
-/

import Ambit.Lookup

set_option relaxedAutoImplicit false
set_option autoImplicit false

namespace Ambit

/-- Whether a symbol competes with a variable: variables, fields, properties and static types
do. -/
def Symbol.rivalsLocal (symbol : Symbol) : Bool :=
  match symbol.kind with
  | .localVariable | .parameter | .rangeVariable | .patternVariable | .field | .property => true
  | .type => symbol.has .static
  | _ => false

namespace Store

/-- The symbols that are met from a place outwards and that can be named from it. -/
def metOutwards (p : Panorama) : List SymbolId :=
  (p.entries.filter fun e => e.verdict != .excluded .inaccessible).map Entry.symbol

/-- The symbols of a scope and of the scopes inside it. -/
def declaredWithin (s : Store) (space : ScopeId) : List SymbolId :=
  (space :: s.descendants space).flatMap fun scope => (s.symbolsIn scope).map Symbol.id

/-- **The symbols that a new name competes with**, each once.  Outside every scope there are
none. -/
def rivals (s : Store) (signal : Signal) (options : Options) (position : UInt64)
    (container : Option ScopeId) : Answer (List Symbol) := do
  let space ← s.enclosingSpace signal position container
  if space = .outside then return []
  else
    let found ← s.lookup signal options position
    return (metOutwards found ++ s.declaredWithin space).eraseDups.filterMap (s.symbols[·]?)

end Store

end Ambit
