/-
One more variable in a store.

A variable that is new to a store is filed in its own scope and nowhere else.  It is neither a type
nor a member, so everything that is known about types stays as it was, and so do the groups of
symbols of all other scopes and of the bodies of types.  In its own scope, unless that is the body
of a type, it joins the first group.

Main definitions:

* `Ambit.Store.NewLocal` — a variable that is new to a store.

Main results:

* `Ambit.Store.NewLocal.agrees` — inserting it changes nothing about types;
* `Ambit.Store.NewLocal.groupsOf_of_ne`, `Ambit.Store.NewLocal.groupsOf_type` — most scopes
  contribute the same groups as before;
* `Ambit.Store.NewLocal.groupsOf_scope` — **in its own scope it joins the first group**.
-/

import Ambit.Lookup
import Ambit.Proofs.Agreement
import Ambit.Proofs.Store.Built

set_option relaxedAutoImplicit false
set_option autoImplicit false

namespace Ambit.Store

open Answer (KeptBy)

/-- The group of an ordinary scope: what is declared in it, and the type parameters of its owner. -/
theorem mem_ownGroup {s : Store} {scope : Scope} {found : Finding} :
    found ∈ s.ownGroup scope ↔
      found ∈ s.declaredIn scope.id (fun _ => true) ∨
        ∃ owner param, scope.owner = some owner ∧ param ∈ s.typeParamsOf owner ∧
          found = { symbol := param } := by
  rw [ownGroup, List.mem_append]
  constructor
  · rintro (hfound | hfound)
    · exact Or.inl hfound
    · obtain ⟨param, hparam, rfl⟩ := List.mem_map.1 hfound
      split at hparam
      · simp at hparam
      · rename_i owner howner
        exact Or.inr ⟨owner, param, howner, List.mem_of_mem_filter hparam, rfl⟩
  · rintro (hfound | ⟨owner, param, howner, hparam, rfl⟩)
    · exact Or.inl hfound
    · rw [howner]
      by_cases hlisted : (s.declaredIn scope.id fun _ => true).any (·.symbol == param) = true
      · -- a type parameter that is declared in the scope is found there
        obtain ⟨found, hfound, hsymbol⟩ := List.any_eq_true.1 hlisted
        obtain ⟨symbol, -, rfl⟩ := List.mem_map.1 hfound
        obtain rfl := eq_of_beq hsymbol
        exact Or.inl hfound
      · exact Or.inr (List.mem_map.2 ⟨param, List.mem_filter.2 ⟨hparam, by simpa using hlisted⟩,
          rfl⟩)

/-- A variable that is new to a store. -/
structure NewLocal (s : Store) (v : Symbol) : Prop where
  fresh : s.symbols[v.id]? = none
  kind : v.kind = .localVariable
  not_static : v.has .static = false
  type : v.type = none

namespace NewLocal

variable {s : Store} {v : Symbol} (hv : s.NewLocal v)
include hv

/-! ### Symbols -/

theorem symbols_of_stored {id : SymbolId} {symbol : Symbol}
    (h : s.symbols[id]? = some symbol) : (s.insertSymbol v).symbols[id]? = some symbol := by
  rw [symbols_insertSymbol, if_neg]
  · exact h
  · rintro rfl
    rw [hv.fresh] at h
    cases h

variable (hs : s.Indexed)
include hs

theorem mem_symbolsIn {scope : ScopeId} {symbol : Symbol} :
    symbol ∈ (s.insertSymbol v).symbolsIn scope ↔
      (symbol = v ∧ v.scope = scope) ∨ symbol ∈ s.symbolsIn scope := by
  rw [(hs.insertSymbol v).mem_symbolsIn, hs.mem_symbolsIn]
  constructor
  · rintro ⟨hsymbol, hscope⟩
    rw [symbols_insertSymbol] at hsymbol
    split at hsymbol
    · cases hsymbol
      exact Or.inl ⟨rfl, hscope⟩
    · exact Or.inr ⟨hsymbol, hscope⟩
  · rintro (⟨rfl, hscope⟩ | ⟨hsymbol, hscope⟩)
    · exact ⟨by rw [symbols_insertSymbol, if_pos rfl], hscope⟩
    · exact ⟨hv.symbols_of_stored hsymbol, hscope⟩

/-- Among the symbols in a scope, those of a sort that the variable is not of are as before. -/
theorem filter_symbolsIn {scope : ScopeId} {admits : Symbol → Bool}
    (hadmits : v.scope = scope → admits v = false) :
    ((s.insertSymbol v).symbolsIn scope).filter admits = (s.symbolsIn scope).filter admits := by
  refine Symbol.eq_of_precedes (((hs.insertSymbol v).pairwise_symbolsIn scope).filter _)
    ((hs.pairwise_symbolsIn scope).filter _) fun symbol => ?_
  rw [List.mem_filter, List.mem_filter, hv.mem_symbolsIn hs]
  constructor
  · rintro ⟨⟨rfl, hscope⟩ | hsymbol, hadmitted⟩
    · rw [hadmits hscope] at hadmitted
      cases hadmitted
    · exact ⟨hsymbol, hadmitted⟩
  · rintro ⟨hsymbol, hadmitted⟩
    exact ⟨Or.inr hsymbol, hadmitted⟩

/-! ### Types and members -/

/-- **Inserting the variable changes nothing about types.** -/
theorem agrees : s.Agrees (s.insertSymbol v) where
  types := by rw [insertSymbol_eq]
  typeParams := by rw [insertSymbol_eq]
  wellKnown := by rw [insertSymbol_eq]
  typeParamsOf := by
    funext owner
    rw [Store.typeParamsOf, Store.typeParamsOf, paramLists_insertSymbol]
  signatures := by rw [insertSymbol_eq]
  typeOf? := by
    funext id
    rw [Store.typeOf?, Store.typeOf?, symbols_insertSymbol, typeParamsOf, typeParamsOf,
      paramLists_insertSymbol]
    by_cases hid : v.id = id
    · rw [if_pos hid, ← hid, hv.fresh]
      simp only [hv.kind, hv.type]
    · rw [if_neg hid]
  membersOf := by
    funext type
    rw [Store.membersOf, Store.membersOf, body?, body?, bodies_insertSymbol, scopes_insertSymbol]
    split
    · rfl
    · exact hv.filter_symbolsIn hs fun _ => by rw [hv.kind]; rfl

/-! ### Groups -/

/-- The findings of a scope of a sort that the variable is not of are as before. -/
theorem declaredIn {scope : ScopeId} {admits : Symbol → Bool}
    (hadmits : v.scope = scope → admits v = false) :
    (s.insertSymbol v).declaredIn scope admits = s.declaredIn scope admits := by
  rw [Store.declaredIn, Store.declaredIn, hv.filter_symbolsIn hs hadmits]

theorem importedTypes : (s.insertSymbol v).importedTypes = s.importedTypes := by
  funext nameSpace
  rw [Store.importedTypes, Store.importedTypes, body?, body?, bodies_insertSymbol,
    scopes_insertSymbol]
  split
  · rfl
  · rw [hv.filter_symbolsIn hs fun _ => by rw [hv.kind]; rfl]

/-- The body of a type contributes the same groups as before. -/
theorem groupsOf_type (signal : Signal) {scope : Scope} (hkind : scope.kind = .type) :
    KeptBy (s.groupsOf signal scope) ((s.insertSymbol v).groupsOf signal scope) := by
  have hmembers : KeptBy (s.memberGroup signal scope)
      ((s.insertSymbol v).memberGroup signal scope) := by
    rw [memberGroup, memberGroup, (hv.agrees hs).typeOf?]
    split
    · rw [hv.declaredIn hs fun _ => by rw [hv.kind]; rfl]
      exact KeptBy.refl _
    · exact ((hv.agrees hs).typeMembers signal _).bind fun _ => KeptBy.refl _
  rw [groupsOf, groupsOf, hkind, hv.declaredIn hs fun _ => by rw [hv.kind]; rfl]
  exact hmembers.bind fun _ => KeptBy.refl _

/-- Another scope contributes the same groups as before. -/
theorem groupsOf_of_ne (signal : Signal) {scope : Scope} (hscope : scope.id ≠ v.scope) :
    KeptBy (s.groupsOf signal scope) ((s.insertSymbol v).groupsOf signal scope) := by
  by_cases htype : scope.kind = .type
  · exact hv.groupsOf_type hs signal htype
  · have hdeclared : ∀ admits, (s.insertSymbol v).declaredIn scope.id admits =
        s.declaredIn scope.id admits :=
      fun admits => hv.declaredIn hs fun h => absurd h.symm hscope
    rw [groupsOf, groupsOf, ownGroup, ownGroup, hv.importedTypes hs]
    simp only [hdeclared, typeParamsOf, paramLists_insertSymbol]
    split
    · contradiction
    · exact KeptBy.refl _
    · exact KeptBy.refl _

/-- The variable and what was declared before are declared in its scope. -/
theorem mem_declaredIn {found : Finding} :
    found ∈ (s.insertSymbol v).declaredIn v.scope (fun _ => true) ↔
      found = { symbol := v.id } ∨ found ∈ s.declaredIn v.scope fun _ => true := by
  simp only [Store.declaredIn, List.mem_map, List.mem_filter, hv.mem_symbolsIn hs, and_true]
  constructor
  · rintro ⟨symbol, rfl | hsymbol, rfl⟩
    · exact Or.inl rfl
    · exact Or.inr ⟨symbol, hsymbol, rfl⟩
  · rintro (rfl | ⟨symbol, hsymbol, rfl⟩)
    · exact ⟨v, Or.inl rfl, rfl⟩
    · exact ⟨symbol, Or.inr hsymbol, rfl⟩

/-- **In its own scope the variable joins the first group**, unless that is the body of a type. -/
theorem groupsOf_scope (signal : Signal) {scope : Scope} (hscope : scope.id = v.scope)
    (htype : scope.kind ≠ .type) :
    ∃ first first' rest, s.groupsOf signal scope = .ok (first :: rest) ∧
      (s.insertSymbol v).groupsOf signal scope = .ok (first' :: rest) ∧
      ∀ found, found ∈ first' ↔ found = { symbol := v.id } ∨ found ∈ first := by
  by_cases hspace : scope.kind = .nameSpace
  · refine ⟨s.declaredIn v.scope fun _ => true, (s.insertSymbol v).declaredIn v.scope fun _ => true,
      [scope.imports.flatMap s.importedTypes], ?_, ?_, fun found => hv.mem_declaredIn hs⟩
    · rw [groupsOf, hspace, hscope]
    · rw [groupsOf, hspace, hscope, hv.importedTypes hs]
  · refine ⟨s.ownGroup scope, (s.insertSymbol v).ownGroup scope, [], ?_, ?_, fun found => ?_⟩
    · rw [groupsOf]
      split
      · contradiction
      · contradiction
      · rfl
    · rw [groupsOf]
      split
      · contradiction
      · contradiction
      · rfl
    · rw [mem_ownGroup, mem_ownGroup, hscope, hv.mem_declaredIn hs, or_assoc]
      simp only [typeParamsOf, paramLists_insertSymbol]

end NewLocal

end Ambit.Store
