/-
Stores that are built by inserting facts, and what their indexes list.

A fact that is inserted may replace another one, and then is moved in the indexes from where the old
fact belonged to where the new one belongs.  Every store that is built from the empty one by
inserting facts, in any order and with any replacements, therefore has indexes that list what its
tables hold.

Main definitions:

* `Ambit.Symbol.Precedes` — the order of symbols;
* `Ambit.Store.Built` — **the stores that are built from the empty one**;
* `Ambit.Store.Indexed` — the indexes of a store list what its tables hold.

Main results:

* `Ambit.Store.insertSymbol_eq` — what inserting a symbol changes;
* `Ambit.Store.Built.indexed` — **the indexes of a store that is built list what its tables hold**;
* `Ambit.Store.Indexed.mem_symbolsIn`, `Ambit.Store.Indexed.mem_symbolsNamed`,
  `Ambit.Store.Indexed.mem_childScopes` — the symbols in a scope, the symbols of a name and the
  scopes in a scope.
-/

import Ambit.Proofs.Store.Index
import Ambit.Store

set_option relaxedAutoImplicit false
set_option autoImplicit false

namespace Ambit

/-! ### The order of symbols -/

/-- Symbols are ordered by their numbers. -/
def Symbol.Precedes (a b : Symbol) : Prop := compare a.id b.id = .lt

theorem Symbol.Precedes.ne {a b : Symbol} (h : a.Precedes b) : a.id ≠ b.id := by
  intro heq
  have hself : compare a.id a.id = .eq := Std.ReflCmp.compare_self
  rw [Symbol.Precedes, ← heq, hself] at h
  cases h

theorem Symbol.eq_of_precedes {xs ys : List Symbol} (hxs : xs.Pairwise Symbol.Precedes)
    (hys : ys.Pairwise Symbol.Precedes) (h : ∀ a, a ∈ xs ↔ a ∈ ys) : xs = ys :=
  eq_of_pairwise_lt hxs hys h

namespace Store

variable {s : Store}

/-! ### What an insertion changes -/

/-- What inserting a symbol changes: the table of symbols, the two indexes of symbols, and the next
number. -/
theorem insertSymbol_eq (s : Store) (symbol : Symbol) :
    s.insertSymbol symbol =
      { s with
        symbols := s.symbols.insert symbol.id symbol
        scopeIndex := s.scopeIndex.move (s.symbols[symbol.id]?.bind fun old => some old.scope)
          (some symbol.scope) symbol.id
        nameIndex := s.nameIndex.move (s.symbols[symbol.id]?.bind fun old => some old.name)
          (some symbol.name) symbol.id
        nextSymbol := max s.nextSymbol (symbol.id.val + 1) } := by
  rw [insertSymbol, unlistSymbol]
  cases s.symbols[symbol.id]? with
  | none => rfl
  | some old => rfl

/-- A symbol that is inserted is there, and the other symbols are as before. -/
theorem symbols_insertSymbol (s : Store) (symbol : Symbol) (id : SymbolId) :
    (s.insertSymbol symbol).symbols[id]? =
      if symbol.id = id then some symbol else s.symbols[id]? := by
  rw [insertSymbol_eq, Std.ExtTreeMap.getElem?_insert]
  exact if_congr Std.LawfulEqCmp.compare_eq_iff_eq rfl rfl

@[simp] theorem scopes_insertSymbol (s : Store) (symbol : Symbol) :
    (s.insertSymbol symbol).scopes = s.scopes := by
  rw [insertSymbol_eq]

@[simp] theorem bodies_insertSymbol (s : Store) (symbol : Symbol) :
    (s.insertSymbol symbol).bodies = s.bodies := by
  rw [insertSymbol_eq]

@[simp] theorem paramLists_insertSymbol (s : Store) (symbol : Symbol) :
    (s.insertSymbol symbol).paramLists = s.paramLists := by
  rw [insertSymbol_eq]

theorem scopes_insertScope (s : Store) (scope : Scope) :
    (s.insertScope scope).scopes = s.scopes.insert scope.id scope := by
  rw [insertScope, unlistScope]
  cases s.scopes[scope.id]? with
  | none => rfl
  | some old => rfl

theorem childIndex_insertScope (s : Store) (scope : Scope) :
    (s.insertScope scope).childIndex =
      s.childIndex.move (s.scopes[scope.id]?.bind Scope.parent) scope.parent scope.id := by
  rw [insertScope, unlistScope]
  cases s.scopes[scope.id]? with
  | none =>
      dsimp only [Option.bind_none]
      cases scope.parent <;> rfl
  | some old =>
      dsimp only [Option.bind_some]
      cases old.parent <;> cases scope.parent <;> rfl

@[simp] theorem paramLists_insertScope (s : Store) (scope : Scope) :
    (s.insertScope scope).paramLists = s.paramLists := by
  rw [insertScope, unlistScope]
  cases s.scopes[scope.id]? with
  | none => rfl
  | some old => rfl

/-! ### Stores that are built -/

/-- **The stores that are built from the empty one** by drawing identities and inserting facts. -/
inductive Built : Store → Prop
  | empty : Built empty
  | drawSymbol {s : Store} : Built s → Built s.drawSymbol.2
  | drawScope {s : Store} : Built s → Built s.drawScope.2
  | insertSymbol {s : Store} (symbol : Symbol) : Built s → Built (s.insertSymbol symbol)
  | insertScope {s : Store} (scope : Scope) : Built s → Built (s.insertScope scope)
  | insertType {s : Store} (decl : TypeDecl) : Built s → Built (s.insertType decl)
  | insertTypeParam {s : Store} (param : TypeParam) : Built s → Built (s.insertTypeParam param)
  | insertSignature {s : Store} (signature : Signature) :
      Built s → Built (s.insertSignature signature)
  | insertInterception {s : Store} (interception : Interception) :
      Built s → Built (s.insertInterception interception)
  | register {s : Store} (kind : WellKnown) (symbol : SymbolId) :
      Built s → Built (s.register kind symbol)
  | setVersion {s : Store} (version : UInt32) : Built s → Built { s with version }

/-- The facts of a store are kept under their own identities, and its indexes list the symbols of
each scope and of each name and the scopes in each scope. -/
structure Indexed (s : Store) : Prop where
  symbol_id : ∀ id (symbol : Symbol), s.symbols[id]? = some symbol → symbol.id = id
  scope_id : ∀ id (scope : Scope), s.scopes[id]? = some scope → scope.id = id
  scopeIndex : s.scopeIndex.Lists s.symbols fun symbol => some symbol.scope
  nameIndex : s.nameIndex.Lists s.symbols fun symbol => some symbol.name
  childIndex : s.childIndex.Lists s.scopes Scope.parent

theorem indexed_empty : Indexed empty where
  symbol_id := by simp [empty]
  scope_id := by simp [empty]
  scopeIndex := Index.lists_empty _
  nameIndex := Index.lists_empty _
  childIndex := Index.lists_empty _

/-- Facts that are kept under their own identities are so after one more insertion. -/
theorem id_of_getElem?_insert {ι α : Type} [Ord ι] [Std.TransOrd ι] [Std.LawfulEqOrd ι]
    {table : Std.ExtTreeMap ι α} {idOf : α → ι}
    (h : ∀ i a, table[i]? = some a → idOf a = i) (a : α) :
    ∀ i b, (table.insert (idOf a) a)[i]? = some b → idOf b = i := by
  intro i b hb
  rw [Std.ExtTreeMap.getElem?_insert] at hb
  split at hb
  · rename_i hi
    cases hb
    exact Std.LawfulEqOrd.eq_of_compare hi
  · exact h i b hb

theorem Indexed.insertSymbol (h : s.Indexed) (symbol : Symbol) :
    (s.insertSymbol symbol).Indexed := by
  rw [insertSymbol_eq]
  exact {
    symbol_id := id_of_getElem?_insert h.symbol_id symbol
    scope_id := h.scope_id
    scopeIndex := h.scopeIndex.insert symbol.id symbol
    nameIndex := h.nameIndex.insert symbol.id symbol
    childIndex := h.childIndex }

theorem Indexed.insertScope (h : s.Indexed) (scope : Scope) : (s.insertScope scope).Indexed := by
  have hsymbols : (s.insertScope scope).symbols = s.symbols ∧
      (s.insertScope scope).scopeIndex = s.scopeIndex ∧
      (s.insertScope scope).nameIndex = s.nameIndex := by
    rw [Store.insertScope, unlistScope]
    cases s.scopes[scope.id]? with
    | none => exact ⟨rfl, rfl, rfl⟩
    | some old => exact ⟨rfl, rfl, rfl⟩
  obtain ⟨hsymbols, hscopeIndex, hnameIndex⟩ := hsymbols
  constructor
  · rw [hsymbols]
    exact h.symbol_id
  · rw [scopes_insertScope]
    exact id_of_getElem?_insert h.scope_id scope
  · rw [hsymbols, hscopeIndex]
    exact h.scopeIndex
  · rw [hsymbols, hnameIndex]
    exact h.nameIndex
  · rw [scopes_insertScope, childIndex_insertScope]
    exact h.childIndex.insert scope.id scope

/-- **The indexes of a store that is built list what its tables hold.** -/
theorem Built.indexed (h : s.Built) : s.Indexed := by
  induction h with
  | empty => exact indexed_empty
  | insertSymbol symbol _ ih => exact ih.insertSymbol symbol
  | insertScope scope _ ih => exact ih.insertScope scope
  -- the other insertions touch neither symbols nor scopes
  | drawSymbol _ ih | drawScope _ ih | insertType _ _ ih | insertTypeParam _ _ ih
  | insertSignature _ _ ih | insertInterception _ _ ih | register _ _ _ ih | setVersion _ _ ih =>
      exact { ih with }

/-- The symbols in a scope are those that are declared in it. -/
theorem Indexed.mem_symbolsIn (h : s.Indexed) {scope : ScopeId} {symbol : Symbol} :
    symbol ∈ s.symbolsIn scope ↔ s.symbols[symbol.id]? = some symbol ∧ symbol.scope = scope := by
  rw [symbolsIn, h.scopeIndex.mem_read h.symbol_id, Option.some.injEq]

theorem Indexed.pairwise_symbolsIn (h : s.Indexed) (scope : ScopeId) :
    (s.symbolsIn scope).Pairwise Symbol.Precedes :=
  h.scopeIndex.pairwise_read h.symbol_id scope

/-- The symbols of a name are those that have it. -/
theorem Indexed.mem_symbolsNamed (h : s.Indexed) {name : String} {symbol : Symbol} :
    symbol ∈ s.symbolsNamed name ↔ s.symbols[symbol.id]? = some symbol ∧ symbol.name = name := by
  rw [symbolsNamed, h.nameIndex.mem_read h.symbol_id, Option.some.injEq]

/-- The scopes in a scope are those whose parent it is. -/
theorem Indexed.mem_childScopes (h : s.Indexed) {parent : ScopeId} {scope : Scope} :
    scope ∈ s.childScopes parent ↔
      s.scopes[scope.id]? = some scope ∧ scope.parent = some parent := by
  rw [childScopes, h.childIndex.mem_read h.scope_id]

end Store

end Ambit
