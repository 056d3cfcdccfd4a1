/-
The facts of a store.

The tables of a store hold its facts; the indexes and the counters beside them only serve to find
facts and to number them.  Facts are kept under their own identities, and whether they fit together
is read off the tables alone.  So is what an index answers, as long as it lists what the tables
hold.

Main definitions:

* `Ambit.Store.Keyed` — declarations and signatures are kept under their own identities;
* `Ambit.Facts`, `Ambit.Store.facts` — the tables of a store without its indexes.

Main results:

* `Ambit.Store.Built.keyed` — the facts of a store that is built are kept under their identities;
* `Ambit.Store.check_of_facts` — **the check only reads tables**;
* `Ambit.Store.symbolsIn_of_facts`, `Ambit.Store.symbolsNamed_of_facts`,
  `Ambit.Store.childScopes_of_facts` — **stores with the same facts have the same symbols in every
  scope and of every name, and the same scopes in every scope**.
-/

import Ambit.Proofs.Store.Built
import Ambit.Proofs.Store.Outward
import Ambit.Store.Check

set_option relaxedAutoImplicit false
set_option autoImplicit false

namespace Ambit

namespace Store

variable {s r : Store}

/-! ### Facts under their identities -/

/-- The facts beside symbols and scopes are kept under their own identities. -/
structure Keyed (s : Store) : Prop where
  type_id : ∀ id (decl : TypeDecl), s.types[id]? = some decl → decl.id = id
  typeParam_id : ∀ id (param : TypeParam), s.typeParams[id]? = some param → param.id = id
  signature_id : ∀ id (signature : Signature),
    s.signatures[id]? = some signature → signature.id = id

theorem Built.keyed (h : s.Built) : s.Keyed := by
  induction h with
  | empty => constructor <;> simp [Store.empty]
  | insertType decl _ ih => exact { ih with type_id := id_of_getElem?_insert ih.type_id decl }
  | insertTypeParam param _ ih =>
      exact { ih with typeParam_id := id_of_getElem?_insert ih.typeParam_id param }
  | insertSignature signature _ ih =>
      exact { ih with signature_id := id_of_getElem?_insert ih.signature_id signature }
  | insertSymbol symbol _ ih =>
      rw [insertSymbol_eq]
      exact { ih with }
  | @insertScope s scope _ ih =>
      rw [Store.insertScope, unlistScope]
      cases s.scopes[scope.id]? with
      | none => exact { ih with }
      | some old => exact { ih with }
  | drawSymbol _ ih | drawScope _ ih | insertInterception _ _ ih | register _ _ _ ih
  | setVersion _ _ ih => exact { ih with }

end Store

/-! ### Stores with the same facts -/

/-- The tables of a store without its indexes. -/
structure Facts where
  version : UInt32
  symbols : SymbolTable Symbol
  scopes : ScopeTable Scope
  types : SymbolTable TypeDecl
  typeParams : SymbolTable TypeParam
  signatures : SymbolTable Signature
  interceptions : List Interception
  wellKnown : Std.ExtTreeMap WellKnown SymbolId

namespace Store

variable {s r : Store}

/-- The tables of a store without its indexes. -/
def facts (s : Store) : Facts where
  version := s.version
  symbols := s.symbols
  scopes := s.scopes
  types := s.types
  typeParams := s.typeParams
  signatures := s.signatures
  interceptions := s.interceptions
  wellKnown := s.wellKnown

section SameFacts

variable (h : r.facts = s.facts)
include h

theorem symbols_of_facts : r.symbols = s.symbols := congrArg Facts.symbols h

theorem scopes_of_facts : r.scopes = s.scopes := congrArg Facts.scopes h

theorem types_of_facts : r.types = s.types := congrArg Facts.types h

theorem typeParams_of_facts : r.typeParams = s.typeParams := congrArg Facts.typeParams h

theorem signatures_of_facts : r.signatures = s.signatures := congrArg Facts.signatures h

theorem wellKnown_of_facts : r.wellKnown = s.wellKnown := congrArg Facts.wellKnown h

/-- The check only reads tables. -/
theorem check_of_facts : r.check = s.check := by
  have hsymbol : r.checkSymbol = s.checkSymbol := by
    funext symbol
    rw [checkSymbol, checkSymbol, scopes_of_facts h]
  have hscope : r.checkScope = s.checkScope := by
    funext scope
    rw [checkScope, checkScope, ancestors_of_scopes (scopes_of_facts h), scopes_of_facts h]
  have htype : r.checkType = s.checkType := by
    funext decl
    rw [checkType, checkType, symbols_of_facts h]
  have hparam : r.checkTypeParam = s.checkTypeParam := by
    funext param
    rw [checkTypeParam, checkTypeParam, symbols_of_facts h]
  rw [check, check, hsymbol, hscope, htype, hparam, symbols_of_facts h, scopes_of_facts h,
    types_of_facts h, typeParams_of_facts h]

/-! ### Questions to the indexes -/

section Indexes

variable (hs : s.Indexed) (hr : r.Indexed)
include hs hr

theorem symbolsIn_of_facts : r.symbolsIn = s.symbolsIn := by
  funext scope
  have hlists := hr.scopeIndex
  rw [symbols_of_facts h] at hlists
  rw [symbolsIn, symbolsIn, symbols_of_facts h, hs.scopeIndex.read_eq hs.symbol_id hlists]

theorem symbolsNamed_of_facts : r.symbolsNamed = s.symbolsNamed := by
  funext name
  have hlists := hr.nameIndex
  rw [symbols_of_facts h] at hlists
  rw [symbolsNamed, symbolsNamed, symbols_of_facts h, hs.nameIndex.read_eq hs.symbol_id hlists]

theorem childScopes_of_facts : r.childScopes = s.childScopes := by
  funext scope
  have hlists := hr.childIndex
  rw [scopes_of_facts h] at hlists
  rw [childScopes, childScopes, scopes_of_facts h, hs.childIndex.read_eq hs.scope_id hlists]

end Indexes

end SameFacts

end Store

end Ambit
