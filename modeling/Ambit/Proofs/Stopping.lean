/-
Questions that are stopped before they begin.

Whoever asks a question can ask at the same time that the work be stopped.  Such a question has no
answer, and the fault should say so: it was cancelled.  Almost every question looks at the signal
before anything else.  A fresh name is the exception: the scope that it is meant for is looked for
first.  Outside every scope there is none, and the name is handed out all the same; and where the
scopes around the position do not lead outwards, the fault is theirs.

Main results:

* `Ambit.Store.Climbs.exists_breach` — a walk outwards is never cancelled;
* `Ambit.Store.Indexed.scopeAt_eq_outside_iff` — when a position lies outside every scope;
* `Ambit.Store.freshLocal_stop` — **what a stopped question for a fresh name gives**;
* `Ambit.Snapshot.stopped_cancels_iff` — **which stopped questions are cancelled**;
* `Ambit.Snapshot.freshLocal_answers_stopped` — a fresh name that is handed out all the same.
-/

import Ambit.Completion
import Ambit.FreshName
import Ambit.Proofs.Lookup.Failure
import Ambit.Proofs.Store.Innermost

set_option relaxedAutoImplicit false
set_option autoImplicit false

namespace Ambit

namespace Store

variable {s : Store} {position : UInt64}

/-! ### Faults of the walk outwards -/

/-- **A walk outwards is never cancelled**: when it fails, the scopes contradict each other. -/
theorem Climbs.exists_breach {seen : List ScopeId} {id : ScopeId} {result : Answer (List ScopeId)}
    (h : s.Climbs seen id result) {fault : Fault} (hr : result = .error fault) :
    ∃ breach, fault = .breach breach := by
  induction h with
  | again => exact ⟨_, (Except.error.inj hr).symm⟩
  | missing => exact ⟨_, (Except.error.inj hr).symm⟩
  | last => cases hr
  | @step seen id parent scope result _ _ _ _ ih =>
      cases result with
      | ok chain => cases hr
      | error fault' =>
          cases hr
          exact ih rfl

/-! ### Positions outside every scope -/

/-- **A position lies outside every scope** exactly when no scope holds it. -/
theorem Indexed.scopeAt_eq_outside_iff (hs : s.Indexed) (hout : ScopeId.outside ∉ s.scopes) :
    s.scopeAt position = .outside ↔
      ∀ (id : ScopeId) (scope : Scope), s.scopes[id]? = some scope →
        scope.holds position = false := by
  have hvalues : (∀ scope ∈ s.scopes.values, scope.holds position = false) ↔
      ∀ (id : ScopeId) (scope : Scope), s.scopes[id]? = some scope →
        scope.holds position = false := by
    simp only [Table.mem_values, forall_exists_index]
    exact forall_comm
  rw [← hvalues, ← innermost?_eq_none_iff]
  constructor
  · intro h
    cases hinnermost : s.innermost? position with
    | none => rfl
    | some scope =>
        -- a scope of the store has its own number, which is not that of the place outside
        obtain ⟨id, hid⟩ := Table.mem_values.1 (innermost?_eq_some hinnermost).1
        rw [scopeAt, hinnermost] at h
        dsimp only at h
        rw [hs.scope_id id scope hid] at h
        exact absurd (mem_scopes_of_getElem? hid) (h ▸ hout)
  · intro h
    rw [scopeAt, h]

/-! ### Fresh names -/

/-- **What a stopped question for a fresh name gives**: a name where there is no scope, and the
fault of the walk outwards before it is cancelled. -/
theorem freshLocal_stop (s : Store) (options : Options) (position : UInt64) (base : String)
    (used : List String) :
    s.freshLocal .stop options position base used =
      if s.scopeAt position = .outside then
        .ok ((used.foldl NameSupply.take (.ofNames options.caseSensitive [])).mint base).1
      else s.ancestors (s.scopeAt position) >>= fun _ => .error .cancelled := by
  rw [freshLocal, supplyAt, rivals, enclosingSpace]
  dsimp only
  split
  · rename_i hstart
    rw [hstart]
    rfl
  · cases s.ancestors (s.scopeAt position) with
    | ok chain => rfl
    | error fault => rfl

/-- A stopped question for a fresh name is cancelled exactly where there is a way outwards. -/
theorem freshLocal_stop_eq_cancelled_iff {options : Options} {base : String}
    {used : List String} :
    s.freshLocal .stop options position base used = .error .cancelled ↔
      s.scopeAt position ≠ .outside ∧ ∃ chain, s.Outward (s.scopeAt position) chain := by
  rw [freshLocal_stop]
  split
  · rename_i hstart
    simp [hstart]
  · rename_i hstart
    simp only [← ancestors_eq_ok_iff hstart, ne_eq, hstart, not_false_eq_true, true_and]
    cases hwalk : s.ancestors (s.scopeAt position) with
    | ok chain => simp [bind, Except.bind]
    | error fault =>
        obtain ⟨breach, rfl⟩ := (climbs_ancestors hstart).exists_breach hwalk
        simp [bind, Except.bind]

/-- A stopped question for a fresh name has an answer exactly outside every scope. -/
theorem exists_freshLocal_stop_iff {options : Options} {base : String} {used : List String} :
    (∃ name, s.freshLocal .stop options position base used = .ok name) ↔
      s.scopeAt position = .outside := by
  rw [freshLocal_stop]
  split
  · rename_i hstart
    simp [hstart]
  · rename_i hstart
    cases s.ancestors (s.scopeAt position) with
    | ok chain => simp [bind, Except.bind, hstart]
    | error fault => simp [bind, Except.bind, hstart]

/-- A stopped question for a fresh name that is not cancelled fails as the walk outwards does. -/
theorem climbs_of_freshLocal_stop {options : Options} {base : String} {used : List String}
    {fault : Fault} (h : s.freshLocal .stop options position base used = .error fault) :
    fault = .cancelled ∨ s.Climbs [] (s.scopeAt position) (.error fault) := by
  rw [freshLocal_stop] at h
  split at h
  · cases h
  · rename_i hstart
    have hclimbs := climbs_ancestors (s := s) hstart
    cases hwalk : s.ancestors (s.scopeAt position) with
    | ok chain =>
        rw [hwalk] at h
        exact Or.inl (Except.error.inj h).symm
    | error fault' =>
        rw [hwalk] at h hclimbs
        cases h
        exact Or.inr hclimbs

/-- In a store that passes the check, a stopped question for a fresh name is cancelled exactly
inside a scope. -/
theorem Built.freshLocal_stop_iff_holds (hs : s.Built) (hout : ScopeId.outside ∉ s.scopes)
    (hcheck : s.check = .ok ()) {options : Options} {base : String} {used : List String} :
    s.freshLocal .stop options position base used = .error .cancelled ↔
      ∃ (id : ScopeId) (scope : Scope), s.scopes[id]? = some scope ∧
        scope.holds position = true := by
  have hinside : s.scopeAt position ≠ .outside ↔
      ∃ (id : ScopeId) (scope : Scope), s.scopes[id]? = some scope ∧
        scope.holds position = true := by
    rw [ne_eq, hs.indexed.scopeAt_eq_outside_iff hout]
    simp only [not_forall, Bool.not_eq_false, exists_prop]
  rw [freshLocal_stop_eq_cancelled_iff, ← hinside]
  refine and_iff_left_of_imp fun hstart => ?_
  obtain ⟨chain, hchain⟩ := exists_ancestors_of_check hcheck position
  exact ⟨chain, (ancestors_eq_ok_iff hstart).1 hchain⟩

end Store

/-! ### Which questions are cancelled -/

namespace Snapshot

/-- **Which stopped questions are cancelled.**  What can be named, what can be written, the list of
completions and the verdict on a symbol are.  A fresh name is exactly where the innermost scope has
a way outwards; it is handed out exactly outside every scope; and elsewhere the fault is that of the
walk outwards.  So in a store that passes the check it is cancelled exactly inside a scope. -/
theorem stopped_cancels_iff (snapshot : Snapshot) (options : Options) (request : Request)
    (position : UInt64) (symbol : SymbolId) (base : String) (used : List String) :
    snapshot.store.visibleSymbols .stop options position = .error .cancelled ∧
      snapshot.candidates .stop options request = .error .cancelled ∧
      snapshot.complete .stop options request = .error .cancelled ∧
      snapshot.verdictOn .stop options request symbol = .error .cancelled ∧
      (snapshot.store.freshLocal .stop options position base used = .error .cancelled ↔
        snapshot.store.scopeAt position ≠ .outside ∧
          ∃ chain, snapshot.store.Outward (snapshot.store.scopeAt position) chain) ∧
      ((∃ name, snapshot.store.freshLocal .stop options position base used = .ok name) ↔
        snapshot.store.scopeAt position = .outside) ∧
      (∀ fault, snapshot.store.freshLocal .stop options position base used = .error fault →
        fault = .cancelled ∨
          snapshot.store.Climbs [] (snapshot.store.scopeAt position) (.error fault)) ∧
      (snapshot.store.Built → ScopeId.outside ∉ snapshot.store.scopes →
        snapshot.store.check = .ok () →
        (snapshot.store.freshLocal .stop options position base used = .error .cancelled ↔
          ∃ (id : ScopeId) (scope : Scope), snapshot.store.scopes[id]? = some scope ∧
            scope.holds position = true)) := by
  exact ⟨rfl, rfl, rfl, rfl, Store.freshLocal_stop_eq_cancelled_iff,
    Store.exists_freshLocal_stop_iff, fun _ => Store.climbs_of_freshLocal_stop,
    fun hs hout hcheck => hs.freshLocal_stop_iff_holds hout hcheck⟩

/-- A block of the text, and nothing around it. -/
def bareBlock : Snapshot where
  store := Store.empty.insertScope { id := ⟨0⟩, kind := .block, span := ⟨0, 9⟩ }
  text := ""
  version := 1

/-- Inside the block a stopped question for a fresh name is cancelled. -/
theorem stopped_cancels_iff_bareBlock :
    bareBlock.store.check = .ok () ∧
      bareBlock.store.freshLocal .stop {} 4 "x" [] = .error .cancelled := by
  have hbuilt : bareBlock.store.Built := .insertScope _ .empty
  have hcheck : bareBlock.store.check = .ok () := rfl
  obtain ⟨-, -, -, -, -, -, -, hinside⟩ :=
    bareBlock.stopped_cancels_iff {} { position := 4 } 4 ⟨0⟩ "x" []
  exact ⟨hcheck, (hinside hbuilt (by decide) hcheck).2 ⟨⟨0⟩, _, rfl, by decide⟩⟩

/-- Behind the block a fresh name is handed out, although the question is stopped. -/
theorem freshLocal_answers_stopped :
    bareBlock.store.check = .ok () ∧
      bareBlock.store.freshLocal .stop {} 50 "x" [] = .ok ⟨"x", "x"⟩ ∧
      bareBlock.store.visibleSymbols .stop {} 50 = .error .cancelled := by
  refine ⟨rfl, ?_, rfl⟩
  decide +kernel

end Snapshot

end Ambit
