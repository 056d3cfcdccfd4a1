/-
The way outwards from a scope.

The scopes around a scope are found by following the parents, with a bound on the steps and a memory
of the scopes that were met.  Neither shows in the result: a walk that succeeds has followed the
parents to a scope without one.  There is only one such way, so two ways that meet go on together,
and a way never meets a scope twice.

Main definitions:

* `Ambit.Store.Outward` — the way outwards from a scope.

Main results:

* `Ambit.Store.Outward.unique` — there is one way outwards from a scope;
* `Ambit.Store.Outward.nodup` — it meets every scope once;
* `Ambit.Store.Outward.tail_eq` — **two ways that meet go on together**;
* `Ambit.Store.outward_of_ancestors` — the scopes around a scope are its way outwards;
* `Ambit.Store.ancestors_of_scopes`, `Ambit.Store.innermost?_of_scopes` — these walks only depend on
  the scopes of a store.
-/

import Ambit.Proofs.Answer
import Ambit.Store.Chain

set_option relaxedAutoImplicit false
set_option autoImplicit false

namespace Ambit.Store

/-- The way outwards from a scope: the parents lead along it, to a scope without one. -/
inductive Outward (s : Store) : ScopeId → List ScopeId → Prop
  | last {id : ScopeId} {scope : Scope} :
      s.scopes[id]? = some scope → scope.parent = none → Outward s id [id]
  | step {id parent : ScopeId} {scope : Scope} {rest : List ScopeId} :
      s.scopes[id]? = some scope → scope.parent = some parent → Outward s parent rest →
      Outward s id (id :: rest)

variable {s : Store} {id : ScopeId} {chain : List ScopeId}

namespace Outward

theorem exists_cons (h : s.Outward id chain) : ∃ rest, chain = id :: rest := by
  cases h with
  | last => exact ⟨[], rfl⟩
  | step => exact ⟨_, rfl⟩

/-- There is one way outwards from a scope. -/
theorem unique (h : s.Outward id chain) {chain' : List ScopeId} (h' : s.Outward id chain') :
    chain = chain' := by
  induction h generalizing chain' with
  | last hscope hparent =>
      cases h' with
      | last => rfl
      | step hscope' hparent' =>
          rw [hscope] at hscope'
          cases hscope'
          rw [hparent] at hparent'
          cases hparent'
  | step hscope hparent _ ih =>
      cases h' with
      | last hscope' hparent' =>
          rw [hscope] at hscope'
          cases hscope'
          rw [hparent] at hparent'
          cases hparent'
      | step hscope' hparent' hrest' =>
          rw [hscope] at hscope'
          cases hscope'
          rw [hparent] at hparent'
          cases hparent'
          rw [ih hrest']

theorem rest {inner outer : List ScopeId} {around : ScopeId}
    (h : s.Outward id (inner ++ around :: outer)) : s.Outward around (around :: outer) := by
  induction inner generalizing id with
  | nil =>
      obtain ⟨_, heq⟩ := h.exists_cons
      cases heq
      exact h
  | cons _ inner ih =>
      generalize hway : _ :: inner ++ around :: outer = way at h
      cases h with
      | last => simp at hway
      | step _ _ hrest =>
          cases hway
          exact ih hrest

/-- **Two ways that meet go on together.** -/
theorem tail_eq {id' around : ScopeId} {inner outer inner' outer' : List ScopeId}
    (h : s.Outward id (inner ++ around :: outer))
    (h' : s.Outward id' (inner' ++ around :: outer')) : outer = outer' :=
  (List.cons.inj (h.rest.unique h'.rest)).2

/-- The way meets every scope once. -/
theorem nodup (h : s.Outward id chain) : chain.Nodup := by
  -- a scope that is met again would have a way longer than itself
  have hfresh : ∀ {id rest}, s.Outward id (id :: rest) → id ∉ rest := by
    intro id rest h hmem
    obtain ⟨before, after, rfl⟩ := List.append_of_mem hmem
    have hagain : s.Outward id (id :: after) := by
      rw [← List.cons_append] at h
      exact h.rest
    have hlength := congrArg List.length (h.unique hagain)
    simp at hlength
    omega
  induction h with
  | last => simp
  | step hscope hparent hrest ih =>
      exact List.nodup_cons.2 ⟨hfresh (.step hscope hparent hrest), ih⟩

end Outward

theorem outward_of_outwards {fuel : ℕ} {seen : List ScopeId}
    (h : s.outwards fuel seen id = .ok chain) : s.Outward id chain := by
  induction fuel generalizing seen id chain with
  | zero => cases h
  | succ fuel ih =>
      rw [outwards] at h
      split at h
      · cases h
      · split at h
        · cases h
        · rename_i scope hscope
          split at h
          · rename_i hparent
            cases h
            exact .last hscope hparent
          · rename_i parent hparent
            obtain ⟨rest, hrest, rfl⟩ := Answer.map_eq_ok.1 h
            exact .step hscope hparent (ih hrest)

/-- **The scopes around a scope are its way outwards.** -/
theorem outward_of_ancestors (h : s.ancestors id = .ok chain) (hid : id ≠ .outside) :
    s.Outward id chain := by
  rw [ancestors, if_neg hid] at h
  exact outward_of_outwards h

theorem outward_of_ancestors_of_mem (h : s.ancestors id = .ok chain) {around : ScopeId}
    (hmem : around ∈ chain) : s.Outward id chain := by
  refine outward_of_ancestors h ?_
  rintro rfl
  cases h
  simp at hmem

/-! ### Stores with the same scopes -/

section SameScopes

variable {s' : Store} (h : s'.scopes = s.scopes)
include h

theorem outwards_of_scopes (fuel : ℕ) (seen : List ScopeId) (id : ScopeId) :
    s'.outwards fuel seen id = s.outwards fuel seen id := by
  induction fuel generalizing seen id with
  | zero => rfl
  | succ fuel ih => simp only [outwards, h, ih]

/-- The scopes around a scope only depend on the scopes. -/
theorem ancestors_of_scopes (id : ScopeId) : s'.ancestors id = s.ancestors id := by
  rw [ancestors, ancestors, h, outwards_of_scopes h]

theorem parentsAbove_of_scopes (fuel : ℕ) (place : Option ScopeId) :
    s'.parentsAbove fuel place = s.parentsAbove fuel place := by
  induction fuel generalizing place with
  | zero => cases place <;> rfl
  | succ fuel ih =>
      cases place with
      | none => rfl
      | some id => rw [parentsAbove, parentsAbove, h, ih]

/-- The innermost scope at a position only depends on the scopes. -/
theorem innermost?_of_scopes (position : UInt64) :
    s'.innermost? position = s.innermost? position := by
  simp only [innermost?, depth, parentsAbove_of_scopes h, h]

end SameScopes

end Ambit.Store
