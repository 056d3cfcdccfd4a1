/-
Runs that draw identities and insert symbols and scopes.

A store is filled step by step: an identity is drawn, a symbol or a scope is inserted, perhaps in
place of another one.  Whatever the order of the steps, the questions that the indexes answer are
answered as if the tables were searched, and an identity that is drawn is neither in use nor was it
drawn before.  The greatest number is left out, because the counters of identities start again
after it.

Main definitions:

* `Ambit.Store.Run` — **the runs**, with the identities drawn in them;
* `Ambit.Store.Enumerates` — a list with everything that has a property, in the order of numbers;
* `Ambit.Store.Owned` — the body of a symbol is a scope that the symbol owns;
* `Ambit.Store.LiesIn` — a symbol is declared in the body of another one;
* `Ambit.Store.Past` — a counter that is past all numbers in use.

Main results:

* `Ambit.Store.Built.owned`, `Ambit.Store.Built.eq_of_body?` — the body of a symbol is a scope that
  it owns, and the body of no other symbol;
* `Ambit.Store.Built.eq_of_liesIn` — a symbol is declared in one body only;
* `Ambit.Store.Run.past_symbols`, `Ambit.Store.Run.past_scopes` — the counters are past all numbers
  in use;
* `Ambit.Store.Indexed.mem_insertSymbol`, `Ambit.Store.Indexed.mem_insertScope` — what is inserted
  is found;
* `Ambit.Store.Run.answers_exactly` — **the answers of a store after a run, and the next
  identities**.
-/

import Ambit.Proofs.Store.Built
import Ambit.Proofs.Table

set_option relaxedAutoImplicit false
set_option autoImplicit false

namespace Ambit.Store

variable {s : Store}

/-! ### The bodies of symbols -/

/-- The body of a symbol is a scope that the symbol owns. -/
def Owned (s : Store) : Prop :=
  ∀ (owner : SymbolId) (id : ScopeId), s.bodies[owner]? = some id →
    ∃ scope, s.scopes[id]? = some scope ∧ scope.owner = some owner

/-- After the entries of a scope are taken out, it is no body, and bodies are as before. -/
theorem Owned.bodies_unlistScope (h : s.Owned) {id id' : ScopeId} {owner : SymbolId}
    (hbody : (s.unlistScope id).bodies[owner]? = some id') :
    s.bodies[owner]? = some id' ∧ id' ≠ id := by
  -- a scope that is a body has its owner, so its entry is the one that is taken out
  have howner : ∀ {old}, s.scopes[id]? = some old → s.bodies[owner]? = some id →
      old.owner = some owner := by
    intro old hold hid
    obtain ⟨scope, hscope, howner⟩ := h owner id hid
    rw [hold] at hscope
    cases hscope
    exact howner
  rw [unlistScope] at hbody
  cases hold : s.scopes[id]? with
  | none =>
      rw [hold] at hbody
      refine ⟨hbody, ?_⟩
      rintro rfl
      obtain ⟨scope, hscope, -⟩ := h owner id' hbody
      rw [hold] at hscope
      cases hscope
  | some old =>
      rw [hold] at hbody
      dsimp only at hbody
      cases hold' : old.owner with
      | none =>
          rw [hold'] at hbody
          refine ⟨hbody, ?_⟩
          rintro rfl
          rw [howner hold hbody] at hold'
          cases hold'
      | some owner' =>
          rw [hold'] at hbody
          dsimp only at hbody
          split at hbody
          · rw [Std.ExtTreeMap.getElem?_erase] at hbody
            split at hbody
            · cases hbody
            · rename_i hne
              refine ⟨hbody, ?_⟩
              rintro rfl
              rw [howner hold hbody] at hold'
              cases hold'
              exact hne Std.ReflCmp.compare_self
          · rename_i hother
            refine ⟨hbody, ?_⟩
            rintro rfl
            rw [howner hold hbody] at hold'
            cases hold'
            exact hother hbody

/-- What inserting a scope does to the bodies. -/
theorem bodies_insertScope (s : Store) (scope : Scope) :
    (s.insertScope scope).bodies =
      match scope.owner with
      | none => (s.unlistScope scope.id).bodies
      | some owner => (s.unlistScope scope.id).bodies.insert owner scope.id := rfl

theorem Owned.insertScope (h : s.Owned) (scope : Scope) : (s.insertScope scope).Owned := by
  -- a body that was there before is another scope than the one inserted
  have hkept : ∀ owner id, (s.unlistScope scope.id).bodies[owner]? = some id →
      ∃ scope' : Scope,
        (s.insertScope scope).scopes[id]? = some scope' ∧ scope'.owner = some owner := by
    intro owner id hbody
    obtain ⟨hbody, hne⟩ := h.bodies_unlistScope hbody
    obtain ⟨scope', hscope', howner⟩ := h owner id hbody
    refine ⟨scope', ?_, howner⟩
    rw [scopes_insertScope, Std.ExtTreeMap.getElem?_insert,
      if_neg (mt Std.LawfulEqOrd.eq_of_compare hne.symm)]
    exact hscope'
  intro owner id hbody
  rw [bodies_insertScope] at hbody
  cases howner : scope.owner with
  | none =>
      rw [howner] at hbody
      exact hkept owner id hbody
  | some owner' =>
      rw [howner] at hbody
      dsimp only at hbody
      rw [Std.ExtTreeMap.getElem?_insert] at hbody
      split at hbody
      · rename_i heq
        obtain rfl := Std.LawfulEqOrd.eq_of_compare heq
        cases hbody
        refine ⟨scope, ?_, howner⟩
        rw [scopes_insertScope, Std.ExtTreeMap.getElem?_insert_self]
      · exact hkept owner id hbody

/-- **The body of a symbol is a scope that it owns**, in every store that is built. -/
theorem Built.owned (h : s.Built) : s.Owned := by
  induction h with
  | empty =>
      intro owner id hbody
      simp [Store.empty] at hbody
  | insertScope scope _ ih => exact ih.insertScope scope
  | insertSymbol symbol _ ih =>
      intro owner id hbody
      rw [bodies_insertSymbol] at hbody
      rw [scopes_insertSymbol]
      exact ih owner id hbody
  | drawSymbol _ ih | drawScope _ ih | insertType _ _ ih | insertTypeParam _ _ ih
  | insertSignature _ _ ih | insertInterception _ _ ih | register _ _ _ ih | setVersion _ _ ih =>
      exact ih

/-- **A scope is the body of one symbol only.** -/
theorem Built.eq_of_body? (h : s.Built) {a b : SymbolId} {scope scope' : Scope}
    (ha : s.body? a = some scope) (hb : s.body? b = some scope') (hid : scope.id = scope'.id) :
    a = b := by
  have howned : ∀ {c : SymbolId} {body : Scope}, s.body? c = some body →
      s.scopes[body.id]? = some body ∧ body.owner = some c := by
    intro c body hbody
    obtain ⟨id, hlisted, hstored⟩ := Option.bind_eq_some_iff.1 hbody
    obtain ⟨body', hstored', howner⟩ := h.owned c id hlisted
    rw [hstored] at hstored'
    cases hstored'
    exact ⟨by rw [h.indexed.scope_id id body hstored, hstored], howner⟩
  obtain ⟨hstored, howner⟩ := howned ha
  obtain ⟨hstored', howner'⟩ := howned hb
  rw [hid, hstored'] at hstored
  cases hstored
  exact Option.some.inj (howner.symm.trans howner')

/-- A symbol is declared in the body of another one. -/
def LiesIn (s : Store) (symbol owner : SymbolId) : Prop :=
  ∃ body, s.body? owner = some body ∧ ∃ declared ∈ s.symbolsIn body.id, declared.id = symbol

theorem liesIn_of_mem_membersOf {type : SymbolId} {m : Symbol} (h : m ∈ s.membersOf type) :
    s.LiesIn m.id type := by
  rw [membersOf] at h
  split at h
  · cases h
  · rename_i body hbody
    exact ⟨body, hbody, m, (List.mem_filter.1 h).1, rfl⟩

/-- **A symbol is declared in one body only.** -/
theorem Built.eq_of_liesIn (h : s.Built) {symbol a b : SymbolId} (ha : s.LiesIn symbol a)
    (hb : s.LiesIn symbol b) : a = b := by
  obtain ⟨body, hbody, declared, hin, hid⟩ := ha
  obtain ⟨body', hbody', declared', hin', hid'⟩ := hb
  obtain ⟨hstored, hscope⟩ := h.indexed.mem_symbolsIn.1 hin
  obtain ⟨hstored', hscope'⟩ := h.indexed.mem_symbolsIn.1 hin'
  rw [hid, ← hid', hstored'] at hstored
  cases hstored
  exact h.eq_of_body? hbody hbody' (hscope.symm.trans hscope')

/-! ### Counters -/

/-- The greatest number, after which a counter starts again. -/
def lastNumber : UInt32 := 4294967295

/-- A counter is past all numbers in use. -/
def Past (next : UInt32) (used : UInt32 → Prop) : Prop := ∀ n, used n → n < next

namespace Past

variable {next : UInt32} {used : UInt32 → Prop}

theorem lt_add_one {n : UInt32} (h : n ≠ lastNumber) : n < n + 1 := by
  have hne : n.toNat ≠ 4294967295 := fun heq => h (UInt32.toNat_inj.1 heq)
  have hlt := n.toNat_lt
  rw [UInt32.lt_iff_toNat_lt, UInt32.toNat_add, UInt32.toNat_one]
  omega

theorem not_used (h : Past next used) : ¬ used next := fun hused => UInt32.lt_irrefl _ (h _ hused)

/-- After a number is drawn, the counter is past it too. -/
theorem draw (h : Past next used) (hnext : next ≠ lastNumber) :
    Past (next + 1) fun n => n = next ∨ used n := by
  rintro n (rfl | hn)
  · exact lt_add_one hnext
  · exact UInt32.lt_trans (h n hn) (lt_add_one hnext)

theorem take (h : Past next used) {id : UInt32} (hid : id ≠ lastNumber) :
    Past (max next (id + 1)) fun n => n = id ∨ used n := by
  intro n hn
  have hlt : n < next ∨ n < id + 1 := by
    rcases hn with rfl | hn
    · exact Or.inr (lt_add_one hid)
    · exact Or.inl (h n hn)
  have hmax : max next (id + 1) = if next ≤ id + 1 then id + 1 else next := rfl
  rw [hmax]
  simp only [UInt32.lt_iff_toNat_lt, UInt32.le_iff_toNat_le] at hlt ⊢
  split <;> omega

theorem mono {used' : UInt32 → Prop} (h : Past next used) (hused : ∀ n, used' n → used n) :
    Past next used' := fun n hn => h n (hused n hn)

end Past

/-! ### Runs -/

/-- **Runs** that draw identities and insert symbols and scopes, with the symbols and the scopes
drawn so far.  The greatest number is neither drawn nor inserted. -/
inductive Run : List SymbolId → List ScopeId → Store → Prop
  | empty : Run [] [] empty
  | drawSymbol {symbols : List SymbolId} {scopes : List ScopeId} {s : Store} :
      Run symbols scopes s → s.drawSymbol.1.val ≠ lastNumber →
      Run (s.drawSymbol.1 :: symbols) scopes s.drawSymbol.2
  | drawScope {symbols : List SymbolId} {scopes : List ScopeId} {s : Store} :
      Run symbols scopes s → s.drawScope.1.val ≠ lastNumber →
      Run symbols (s.drawScope.1 :: scopes) s.drawScope.2
  | insertSymbol {symbols : List SymbolId} {scopes : List ScopeId} {s : Store} (symbol : Symbol) :
      Run symbols scopes s → symbol.id.val ≠ lastNumber →
      Run symbols scopes (s.insertSymbol symbol)
  | insertScope {symbols : List SymbolId} {scopes : List ScopeId} {s : Store} (scope : Scope) :
      Run symbols scopes s → scope.id.val ≠ lastNumber →
      Run symbols scopes (s.insertScope scope)

namespace Run

variable {symbols : List SymbolId} {scopes : List ScopeId}

theorem built (h : Run symbols scopes s) : s.Built := by
  induction h with
  | empty => exact .empty
  | drawSymbol _ _ ih => exact ih.drawSymbol
  | drawScope _ _ ih => exact ih.drawScope
  | insertSymbol symbol _ _ ih => exact ih.insertSymbol symbol
  | insertScope scope _ _ ih => exact ih.insertScope scope

/-- The counter of symbols is past all symbols that are stored or were drawn. -/
theorem past_symbols (h : Run symbols scopes s) :
    Past s.nextSymbol fun n => (⟨n⟩ : SymbolId) ∈ s.symbols ∨ (⟨n⟩ : SymbolId) ∈ symbols := by
  induction h with
  | empty =>
      rintro n (hn | hn)
      · simp [Store.empty] at hn
      · cases hn
  | drawSymbol _ hnext ih =>
      refine (ih.draw hnext).mono ?_
      rintro n (hn | hn)
      · exact Or.inr (Or.inl hn)
      · rcases List.mem_cons.1 hn with heq | hn
        · exact Or.inl (congrArg SymbolId.val heq)
        · exact Or.inr (Or.inr hn)
  | insertSymbol symbol _ hid ih =>
      rw [insertSymbol_eq]
      refine (ih.take hid).mono ?_
      rintro n (hn | hn)
      · rcases Std.ExtTreeMap.mem_insert.1 hn with heq | hn
        · exact Or.inl (congrArg SymbolId.val (Std.LawfulEqOrd.eq_of_compare heq)).symm
        · exact Or.inr (Or.inl hn)
      · exact Or.inr (Or.inr hn)
  | drawScope _ _ ih => exact ih
  | @insertScope _ _ s scope _ _ ih =>
      have hsame : (s.insertScope scope).nextSymbol = s.nextSymbol ∧
          (s.insertScope scope).symbols = s.symbols := by
        rw [Store.insertScope, unlistScope]
        cases s.scopes[scope.id]? with
        | none => exact ⟨rfl, rfl⟩
        | some old => exact ⟨rfl, rfl⟩
      rw [hsame.1, hsame.2]
      exact ih

/-- The counter of scopes is past all scopes that are stored or were drawn. -/
theorem past_scopes (h : Run symbols scopes s) :
    Past s.nextScope fun n => (⟨n⟩ : ScopeId) ∈ s.scopes ∨ (⟨n⟩ : ScopeId) ∈ scopes := by
  induction h with
  | empty =>
      rintro n (hn | hn)
      · simp [Store.empty] at hn
      · cases hn
  | drawScope _ hnext ih =>
      refine (ih.draw hnext).mono ?_
      rintro n (hn | hn)
      · exact Or.inr (Or.inl hn)
      · rcases List.mem_cons.1 hn with heq | hn
        · exact Or.inl (congrArg ScopeId.val heq)
        · exact Or.inr (Or.inr hn)
  | @insertScope _ _ s scope _ hid ih =>
      have hnext : (s.insertScope scope).nextScope = max s.nextScope (scope.id.val + 1) := by
        rw [Store.insertScope, unlistScope]
        cases s.scopes[scope.id]? with
        | none => rfl
        | some old => rfl
      rw [hnext, scopes_insertScope]
      refine (ih.take hid).mono ?_
      rintro n (hn | hn)
      · rcases Std.ExtTreeMap.mem_insert.1 hn with heq | hn
        · exact Or.inl (congrArg ScopeId.val (Std.LawfulEqOrd.eq_of_compare heq)).symm
        · exact Or.inr (Or.inl hn)
      · exact Or.inr (Or.inr hn)
  | drawSymbol _ _ ih => exact ih
  | insertSymbol symbol _ _ ih =>
      rw [insertSymbol_eq]
      exact ih

end Run

/-! ### Answers -/

/-- A list has everything with a property, each once, in the order of numbers. -/
def Enumerates {α : Type} (number : α → UInt32) (xs : List α) (holds : α → Prop) : Prop :=
  (∀ a, a ∈ xs ↔ holds a) ∧ xs.Pairwise fun a b => number a < number b

theorem Indexed.enumerates_symbolsIn (h : s.Indexed) (scope : ScopeId) :
    Enumerates (fun symbol => symbol.id.val) (s.symbolsIn scope)
      fun symbol => symbol ∈ s.symbols.values ∧ symbol.scope = scope := by
  constructor
  · intro symbol
    exact h.mem_symbolsIn.trans (and_congr_left' (Table.mem_values_iff h.symbol_id).symm)
  · exact (h.pairwise_symbolsIn scope).imp SymbolId.compare_eq_lt.1

theorem Indexed.enumerates_symbolsNamed (h : s.Indexed) (name : String) :
    Enumerates (fun symbol => symbol.id.val) (s.symbolsNamed name)
      fun symbol => symbol ∈ s.symbols.values ∧ symbol.name = name := by
  constructor
  · intro symbol
    exact h.mem_symbolsNamed.trans (and_congr_left' (Table.mem_values_iff h.symbol_id).symm)
  · exact (h.nameIndex.pairwise_read h.symbol_id name).imp SymbolId.compare_eq_lt.1

theorem Indexed.enumerates_childScopes (h : s.Indexed) (parent : ScopeId) :
    Enumerates (fun scope => scope.id.val) (s.childScopes parent)
      fun scope => scope ∈ s.scopes.values ∧ scope.parent = some parent := by
  constructor
  · intro scope
    exact h.mem_childScopes.trans (and_congr_left' (Table.mem_values_iff h.scope_id).symm)
  · exact (h.childIndex.pairwise_read h.scope_id parent).imp ScopeId.compare_eq_lt.1

/-- A symbol that is inserted is found in its scope and by its name. -/
theorem Indexed.mem_insertSymbol (h : s.Indexed) (symbol : Symbol) :
    symbol ∈ (s.insertSymbol symbol).symbolsIn symbol.scope ∧
      symbol ∈ (s.insertSymbol symbol).symbolsNamed symbol.name := by
  have hindexed := h.insertSymbol symbol
  have hstored : (s.insertSymbol symbol).symbols[symbol.id]? = some symbol := by
    rw [symbols_insertSymbol, if_pos rfl]
  exact ⟨hindexed.mem_symbolsIn.2 ⟨hstored, rfl⟩, hindexed.mem_symbolsNamed.2 ⟨hstored, rfl⟩⟩

/-- A scope that is inserted is found in its parent, and is the body of its owner. -/
theorem Indexed.mem_insertScope (h : s.Indexed) (scope : Scope) :
    (∀ parent, scope.parent = some parent → scope ∈ (s.insertScope scope).childScopes parent) ∧
      ∀ owner, scope.owner = some owner → (s.insertScope scope).body? owner = some scope := by
  have hstored : (s.insertScope scope).scopes[scope.id]? = some scope := by
    rw [scopes_insertScope, Std.ExtTreeMap.getElem?_insert_self]
  refine ⟨fun parent hparent => ?_, fun owner howner => ?_⟩
  · exact (h.insertScope scope).mem_childScopes.2 ⟨hstored, hparent⟩
  · refine Option.bind_eq_some_iff.2 ⟨scope.id, ?_, hstored⟩
    rw [bodies_insertScope, howner]
    exact Std.ExtTreeMap.getElem?_insert_self

/-- **After a run, the indexes answer what a search of the tables would answer**: the symbols of a
scope and of a name and the scopes in a scope are exactly the stored ones, each once and in the
order of their numbers, and the body of a symbol is a stored scope that it owns.  **The next
identities are not in use and were not drawn before.**  What is inserted after the run is found
under all its keys. -/
theorem Run.answers_exactly {symbols : List SymbolId} {scopes : List ScopeId}
    (h : Run symbols scopes s) :
    (∀ scope, Enumerates (fun symbol => symbol.id.val) (s.symbolsIn scope)
      fun symbol => symbol ∈ s.symbols.values ∧ symbol.scope = scope) ∧
    (∀ name, Enumerates (fun symbol => symbol.id.val) (s.symbolsNamed name)
      fun symbol => symbol ∈ s.symbols.values ∧ symbol.name = name) ∧
    (∀ parent, Enumerates (fun scope => scope.id.val) (s.childScopes parent)
      fun scope => scope ∈ s.scopes.values ∧ scope.parent = some parent) ∧
    (∀ owner scope, s.body? owner = some scope →
      scope ∈ s.scopes.values ∧ scope.owner = some owner) ∧
    (s.drawSymbol.1 ∉ s.symbols ∧ s.drawSymbol.1 ∉ symbols) ∧
    (s.drawScope.1 ∉ s.scopes ∧ s.drawScope.1 ∉ scopes) ∧
    (∀ symbol, symbol ∈ (s.insertSymbol symbol).symbolsIn symbol.scope ∧
      symbol ∈ (s.insertSymbol symbol).symbolsNamed symbol.name) ∧
    (∀ scope,
      (∀ parent, scope.parent = some parent → scope ∈ (s.insertScope scope).childScopes parent) ∧
      ∀ owner, scope.owner = some owner → (s.insertScope scope).body? owner = some scope) := by
  have hindexed := h.built.indexed
  refine ⟨hindexed.enumerates_symbolsIn, hindexed.enumerates_symbolsNamed,
    hindexed.enumerates_childScopes, ?_, not_or.1 h.past_symbols.not_used,
    not_or.1 h.past_scopes.not_used, hindexed.mem_insertSymbol, hindexed.mem_insertScope⟩
  intro owner scope hbody
  obtain ⟨id, hid, hscope⟩ := Option.bind_eq_some_iff.1 hbody
  obtain ⟨scope', hscope', howner⟩ := h.built.owned owner id hid
  rw [hscope] at hscope'
  cases hscope'
  exact ⟨Table.mem_values.2 ⟨id, hscope⟩, howner⟩

/-- Facts are inserted out of order and again: two symbols change places in the list of their scope,
one of them gets another name, and a scope stays where it is and gets another owner. -/
def resettled : Store :=
  let body : Scope := { id := ⟨5⟩, kind := .type, span := ⟨10, 40⟩, parent := some ⟨0⟩ }
  empty.drawScope.2
    |>.insertScope { id := ⟨0⟩, kind := .nameSpace, span := ⟨0, 90⟩ }
    |>.insertScope { body with owner := some ⟨0⟩ }
    |>.insertScope { id := ⟨3⟩, kind := .type, span := ⟨50, 80⟩, parent := some ⟨0⟩ }
    |>.insertSymbol { id := ⟨2⟩, kind := .field, name := "new", scope := ⟨5⟩ }
    |>.insertSymbol { id := ⟨7⟩, kind := .field, name := "old", scope := ⟨5⟩ }
    |>.insertSymbol { id := ⟨7⟩, kind := .field, name := "new", scope := ⟨5⟩ }
    |>.insertSymbol { id := ⟨2⟩, kind := .field, name := "new", scope := ⟨5⟩ }
    |>.insertScope { body with owner := some ⟨1⟩ }

/-- After such a run the lists of the indexes are as the facts were filed, without the entries of
the facts that were replaced, and are read in the order of numbers.  The scope is the body of its
new owner only, and the next symbol has the number after the greatest one inserted. -/
theorem answers_exactly_resettled :
    Run [] [⟨0⟩] resettled ∧
    resettled.scopeIndex.under ⟨5⟩ = [⟨7⟩, ⟨2⟩] ∧
      (resettled.symbolsIn ⟨5⟩).map Symbol.id = [⟨2⟩, ⟨7⟩] ∧
      Enumerates (fun symbol => symbol.id.val) (resettled.symbolsIn ⟨5⟩)
        (fun symbol => symbol ∈ resettled.symbols.values ∧ symbol.scope = ⟨5⟩) ∧
    resettled.symbolsNamed "old" = [] ∧
      (resettled.symbolsNamed "new").map Symbol.id = [⟨2⟩, ⟨7⟩] ∧
      Enumerates (fun symbol => symbol.id.val) (resettled.symbolsNamed "new")
        (fun symbol => symbol ∈ resettled.symbols.values ∧ symbol.name = "new") ∧
    (resettled.childScopes ⟨0⟩).map Scope.id = [⟨3⟩, ⟨5⟩] ∧
      Enumerates (fun scope => scope.id.val) (resettled.childScopes ⟨0⟩)
        (fun scope => scope ∈ resettled.scopes.values ∧ scope.parent = some ⟨0⟩) ∧
    resettled.body? ⟨0⟩ = none ∧
      (∃ scope, resettled.body? ⟨1⟩ = some scope ∧ scope.id = ⟨5⟩ ∧ scope.owner = some ⟨1⟩) ∧
    resettled.drawSymbol.1 = ⟨8⟩ ∧ resettled.drawSymbol.1 ∉ resettled.symbols ∧
    resettled.drawScope.1 = ⟨6⟩ ∧ resettled.drawScope.1 ∉ [(⟨0⟩ : ScopeId)] := by
  have hrun : Run [] [⟨0⟩] resettled :=
    .insertScope _ (.insertSymbol _ (.insertSymbol _ (.insertSymbol _ (.insertSymbol _
      (.insertScope _ (.insertScope _ (.insertScope _ (.drawScope .empty (by decide)) (by decide))
      (by decide)) (by decide)) (by decide)) (by decide)) (by decide)) (by decide)) (by decide)
  obtain ⟨hin, hnamed, hchild, hbody, hsymbol, hscope, -⟩ := hrun.answers_exactly
  have hnew : ∃ scope, resettled.body? ⟨1⟩ = some scope ∧ scope.id = ⟨5⟩ := ⟨_, rfl, rfl⟩
  obtain ⟨body, hnew, hid⟩ := hnew
  exact ⟨hrun, rfl, rfl, hin ⟨5⟩, rfl, rfl, hnamed "new", rfl, hchild ⟨0⟩, rfl,
    ⟨body, hnew, hid, (hbody ⟨1⟩ body hnew).2⟩, rfl, hsymbol.1, rfl, hscope.2⟩

end Ambit.Store
