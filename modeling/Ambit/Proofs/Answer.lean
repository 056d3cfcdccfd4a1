/-
Answers that are put together from other answers.

A question is answered by asking others first, and it has an answer exactly when all of these have
one.  The lemmas here take a run apart into the answers of its steps.  Two runs are often compared
by their answers only, whatever the faults of the first one are: then the second keeps the answers
of the first as soon as its steps do.  The faults of a run are those of its steps, so it fails only
in some ways when its steps do.

Main definitions:

* `Ambit.Answer.KeptBy` — a question that has every answer of another one;
* `Ambit.Answer.FailsOnly` — a question whose faults all have some property.

Main results:

* `Ambit.Answer.bind_eq_ok` — one question after another;
* `Ambit.Answer.map_eq_ok` — a question whose answer is changed;
* `Ambit.Answer.mapM_eq_ok`, `Ambit.Answer.exists_mapM_eq_ok`, `Ambit.Answer.forM_eq_ok` — one
  question for each element of a list;
* `Ambit.Answer.exists_mem_of_mapM`, `Ambit.Answer.exists_answer_of_mapM`,
  `Ambit.Answer.pairwise_of_mapM` — where the answers come from, and what holds between them;
* `Ambit.Answer.KeptBy.bind`, `Ambit.Answer.KeptBy.foldlM` — answers are kept when the answers of
  the steps are;
* `Ambit.Answer.FailsOnly.bind`, `Ambit.Answer.FailsOnly.mapM` — the faults of a run are those of
  its steps.
-/

import Ambit.Fault
import Mathlib.Data.List.Forall2

set_option relaxedAutoImplicit false
set_option autoImplicit false

namespace Ambit

theorem Signal.eq_quiet_of_check {signal : Signal} (h : signal.check = .ok ()) :
    signal = .quiet := by
  cases signal with
  | quiet => rfl
  | stop => cases h

namespace Answer

variable {α β : Type}

/-- One question after another has an answer exactly when both have. -/
theorem bind_eq_ok {a : Answer α} {f : α → Answer β} {b : β} :
    a >>= f = .ok b ↔ ∃ x, a = .ok x ∧ f x = .ok b := by
  cases a with
  | error fault => simp [bind, Except.bind]
  | ok x => simp [bind, Except.bind]

/-- A question whose answer is changed has an answer exactly when the question has. -/
theorem map_eq_ok {a : Answer α} {f : α → β} {b : β} :
    a.map f = .ok b ↔ ∃ x, a = .ok x ∧ f x = b := by
  cases a with
  | error fault => simp [Except.map]
  | ok x => simp [Except.map]

/-- The answers to one question for each element of a list correspond to the elements. -/
theorem mapM_eq_ok {f : α → Answer β} {xs : List α} {ys : List β} :
    xs.mapM f = .ok ys ↔ List.Forall₂ (fun x y => f x = .ok y) xs ys := by
  induction xs generalizing ys with
  | nil => simp [pure, Except.pure, eq_comm]
  | cons x xs ih =>
      rw [List.mapM_cons, bind_eq_ok, List.forall₂_cons_left_iff]
      constructor
      · rintro ⟨y, hy, h⟩
        obtain ⟨ys', hys', h⟩ := bind_eq_ok.1 h
        cases h
        exact ⟨y, ys', hy, ih.1 hys', rfl⟩
      · rintro ⟨y, ys', hy, hys', rfl⟩
        exact ⟨y, hy, bind_eq_ok.2 ⟨ys', ih.2 hys', rfl⟩⟩

/-- Each answer is the answer for an element. -/
theorem exists_mem_of_mapM {f : α → Answer β} {xs : List α} {ys : List β}
    (h : xs.mapM f = .ok ys) {y : β} (hy : y ∈ ys) : ∃ x ∈ xs, f x = .ok y := by
  replace h := mapM_eq_ok.1 h
  induction h with
  | nil => cases hy
  | cons hx _ ih =>
      rcases List.mem_cons.1 hy with rfl | hy
      · exact ⟨_, List.mem_cons_self .., hx⟩
      · obtain ⟨x, hx, hfx⟩ := ih hy
        exact ⟨x, List.mem_cons_of_mem _ hx, hfx⟩

/-- Each element has its answer among the answers. -/
theorem exists_answer_of_mapM {f : α → Answer β} {xs : List α} {ys : List β}
    (h : xs.mapM f = .ok ys) {x : α} (hx : x ∈ xs) : ∃ y ∈ ys, f x = .ok y := by
  replace h := mapM_eq_ok.1 h
  induction h with
  | nil => cases hx
  | cons hy _ ih =>
      rcases List.mem_cons.1 hx with rfl | hx
      · exact ⟨_, List.mem_cons_self .., hy⟩
      · obtain ⟨y, hy, hfx⟩ := ih hx
        exact ⟨y, List.mem_cons_of_mem _ hy, hfx⟩

/-- What holds between any two elements of a list carries over to their answers. -/
theorem pairwise_of_mapM {f : α → Answer β} {xs : List α} {ys : List β} {R : α → α → Prop}
    {Q : β → β → Prop} (h : xs.mapM f = .ok ys) (hxs : xs.Pairwise R)
    (hQ : ∀ x ∈ xs, ∀ x' ∈ xs, R x x' → ∀ y y', f x = .ok y → f x' = .ok y' → Q y y') :
    ys.Pairwise Q := by
  replace h := mapM_eq_ok.1 h
  induction h with
  | nil => exact .nil
  | @cons x y xs ys hx hrest ih =>
      obtain ⟨hhead, htail⟩ := List.pairwise_cons.1 hxs
      refine List.pairwise_cons.2 ⟨fun y' hy' => ?_, ih htail fun x hx x' hx' =>
        hQ x (List.mem_cons_of_mem _ hx) x' (List.mem_cons_of_mem _ hx')⟩
      obtain ⟨x', hx', hfx'⟩ := exists_mem_of_mapM (mapM_eq_ok.2 hrest) hy'
      exact hQ x (List.mem_cons_self ..) x' (List.mem_cons_of_mem _ hx') (hhead x' hx') y y' hx hfx'

/-- One question for each element of a list has answers when it has one for each element. -/
theorem exists_mapM_eq_ok {f : α → Answer β} {xs : List α} (h : ∀ x ∈ xs, ∃ y, f x = .ok y) :
    ∃ ys, xs.mapM f = .ok ys := by
  simp only [mapM_eq_ok]
  induction xs with
  | nil => exact ⟨[], .nil⟩
  | cons x xs ih =>
      obtain ⟨y, hy⟩ := h x (List.mem_cons_self ..)
      obtain ⟨ys, hys⟩ := ih fun x hx => h x (List.mem_cons_of_mem _ hx)
      exact ⟨y :: ys, .cons hy hys⟩

/-- A question for each element of a list succeeds exactly when it does for every element. -/
theorem forM_eq_ok {f : α → Answer Unit} {xs : List α} :
    xs.forM f = .ok () ↔ ∀ x ∈ xs, f x = .ok () := by
  induction xs with
  | nil => simp [List.forM, pure, Except.pure]
  | cons x xs ih =>
      have hcons : (x :: xs).forM f = (f x >>= fun _ => xs.forM f) := rfl
      rw [hcons, bind_eq_ok, Unique.exists_iff, List.forall_mem_cons, ih]

/-! ### Keeping answers -/

/-- Whatever the first question answers, the second one answers too. -/
def KeptBy (a b : Answer α) : Prop := ∀ x, a = .ok x → b = .ok x

namespace KeptBy

theorem refl (a : Answer α) : KeptBy a a := fun _ h => h

/-- One question after another keeps its answers when both do. -/
theorem bind {a b : Answer α} {f g : α → Answer β} (h : KeptBy a b)
    (hfg : ∀ x, KeptBy (f x) (g x)) : KeptBy (a >>= f) (b >>= g) := by
  intro y hy
  obtain ⟨x, hx, hfx⟩ := bind_eq_ok.1 hy
  exact bind_eq_ok.2 ⟨x, h x hx, hfg x y hfx⟩

/-- A chain of questions keeps its answers when each of its steps does. -/
theorem foldlM {f g : β → α → Answer β} (hfg : ∀ y x, KeptBy (f y x) (g y x)) (xs : List α)
    (y : β) : KeptBy (xs.foldlM f y) (xs.foldlM g y) := by
  induction xs generalizing y with
  | nil => exact refl _
  | cons x xs ih =>
      rw [List.foldlM_cons, List.foldlM_cons]
      exact (hfg y x).bind ih

end KeptBy

/-! ### Faults -/

/-- All faults of a question have the property. -/
def FailsOnly (P : Fault → Prop) (a : Answer α) : Prop := ∀ fault, a = .error fault → P fault

namespace FailsOnly

variable {P : Fault → Prop}

theorem ok (x : α) : FailsOnly P (.ok x : Answer α) := by
  intro fault h
  cases h

/-- One question after another fails as the first does, or as the second does on its answer. -/
theorem bind {a : Answer α} {f : α → Answer β} (ha : FailsOnly P a)
    (hf : ∀ x, a = .ok x → FailsOnly P (f x)) : FailsOnly P (a >>= f) := by
  cases a with
  | error fault =>
      intro fault' h
      cases h
      exact ha fault rfl
  | ok x => exact hf x rfl

/-- One question for each element of a list fails as it does for one of them. -/
theorem mapM {f : α → Answer β} {xs : List α} (h : ∀ x ∈ xs, FailsOnly P (f x)) :
    FailsOnly P (xs.mapM f) := by
  induction xs with
  | nil => exact ok []
  | cons x xs ih =>
      obtain ⟨hx, hxs⟩ := List.forall_mem_cons.1 h
      rw [List.mapM_cons]
      exact hx.bind fun y _ => (ih hxs).bind fun ys _ => ok (y :: ys)

end FailsOnly

end Answer

end Ambit
