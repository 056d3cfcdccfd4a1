/-
What a supply answers over a whole run.

A supply starts with some names, and then names are taken, fresh names are looked at, and fresh
names are drawn, in any order and any number.  The transcript of a run lists what was asked and what
was answered.  From it alone one can say which names are in use at each moment: those at the start,
and those that were taken or drawn since.  Every answer is then determined: the base when it is not
in use, and otherwise the base with the least number from one on with which it is not.

The invariant of a run is `Ambit.NameSupply.Records`: the supply knows exactly the names that the
transcript puts in use.

Main definitions:

* `Ambit.NameSupply.Call`, `Ambit.NameSupply.Event` — what is asked, and what was answered;
* `Ambit.NameSupply.transcript` — **the answers of a run**;
* `Ambit.NameSupply.InUse` — a name is compared as equal to one of some names;
* `Ambit.NameSupply.FirstFree` — the name that a base gets when some names are in use;
* `Ambit.NameSupply.Records` — the invariant.

Main results:

* `Ambit.NameSupply.Records.serve` — one call is answered rightly and keeps the invariant;
* `Ambit.NameSupply.Records.transcript`, `Ambit.NameSupply.Records.drawn` — so is every call of a
  run, and what is drawn is new each time;
* `Ambit.NameSupply.transcript_exactly` — **the answers of a run, exactly**.
-/

import Ambit.Proofs.NameSupply

set_option relaxedAutoImplicit false
set_option autoImplicit false

namespace Ambit.NameSupply

/-! ### Runs -/

/-- What can be asked of a supply. -/
inductive Call where
  /-- To take a name. -/
  | take (name : String)
  /-- For a fresh name, which is not taken. -/
  | fresh (base : String)
  /-- For a fresh name, which is taken. -/
  | draw (base : String)
deriving DecidableEq, Repr

/-- A call that was answered. -/
inductive Event where
  | took (name : String)
  | showed (base name : String)
  | drew (base name : String)
deriving DecidableEq, Repr

namespace Event

/-- What was asked. -/
def call : Event → Call
  | took name => .take name
  | showed base _ => .fresh base
  | drew base _ => .draw base

/-- The base that a fresh name was asked for, and the name that was answered. -/
def named? : Event → Option (String × String)
  | took _ => none
  | showed base name | drew base name => some (base, name)

/-- The name that is in use from then on. -/
def taken? : Event → Option String
  | took name | drew _ name => some name
  | showed _ _ => none

/-- The name that was drawn. -/
def drawn? : Event → Option String
  | drew _ name => some name
  | took _ | showed _ _ => none

end Event

/-- The answer to a call, and the supply after it. -/
def serve (s : NameSupply) : Call → Event × NameSupply
  | .take name => (.took name, s.take name)
  | .fresh base => (.showed base (s.fresh base), s)
  | .draw base => (.drew base (s.draw base).1, (s.draw base).2)

/-- **The answers of a run.** -/
def transcript : NameSupply → List Call → List Event
  | _, [] => []
  | s, call :: calls => (s.serve call).1 :: transcript (s.serve call).2 calls

theorem map_call_transcript (s : NameSupply) (calls : List Call) :
    (s.transcript calls).map Event.call = calls := by
  induction calls generalizing s with
  | nil => rfl
  | cons call calls ih =>
      rw [transcript, List.map_cons, ih]
      cases call <;> rfl

/-! ### Names in use -/

/-- A name is compared as equal to one of some names. -/
def InUse (caseSensitive : Bool) (names : List String) (name : String) : Prop :=
  ∃ other ∈ names, foldName caseSensitive name = foldName caseSensitive other

/-- The name that a base gets when some names are in use: the base when it is not among them, and
otherwise the base with the least number from one on with which it is not.  That number is not
greater than the number of names. -/
def FirstFree (caseSensitive : Bool) (names : List String) (base name : String) : Prop :=
  (¬ InUse caseSensitive names base ∧ name = base) ∨
    (InUse caseSensitive names base ∧ ∃ k, 1 ≤ k ∧ k ≤ names.length ∧ name = numbered base k ∧
      ¬ InUse caseSensitive names (numbered base k) ∧
      ∀ j, 1 ≤ j → j < k → InUse caseSensitive names (numbered base j))

/-- The supply knows exactly the names in use. -/
structure Records (s : NameSupply) (caseSensitive : Bool) (names : List String) : Prop where
  caseSensitive_eq : s.caseSensitive = caseSensitive
  isTaken_iff : ∀ name, s.isTaken name = true ↔ InUse caseSensitive names name
  count_le : s.count ≤ names.length

variable {s : NameSupply} {caseSensitive : Bool} {names : List String}

theorem count_take_le (s : NameSupply) (name : String) : (s.take name).count ≤ s.count + 1 := by
  rw [count, count, take, List.length_insert]
  split <;> omega

namespace Records

theorem not_inUse (h : s.Records caseSensitive names) {name : String}
    (hname : s.isTaken name = false) : ¬ InUse caseSensitive names name := by
  rw [← h.isTaken_iff name, hname]
  simp

theorem empty (caseSensitive : Bool) : Records { caseSensitive } caseSensitive [] where
  caseSensitive_eq := rfl
  isTaken_iff name := by simp [isTaken, InUse]
  count_le := Nat.le_refl 0

/-- A name that is taken is in use. -/
theorem take (h : s.Records caseSensitive names) (name : String) :
    (s.take name).Records caseSensitive (names ++ [name]) where
  caseSensitive_eq := h.caseSensitive_eq
  isTaken_iff other := by
    rw [isTaken_take, h.isTaken_iff other]
    simp [InUse, fold, h.caseSensitive_eq, or_and_right, exists_or, or_comm]
  count_le := by
    rw [List.length_append]
    exact Nat.le_trans (s.count_take_le name) (Nat.add_le_add_right h.count_le 1)

theorem foldl_take (h : s.Records caseSensitive names) (more : List String) :
    (more.foldl NameSupply.take s).Records caseSensitive (names ++ more) := by
  induction more generalizing s names with
  | nil => simpa using h
  | cons name more ih => simpa using ih (h.take name)

theorem ofNames (caseSensitive : Bool) (used : List String) :
    (ofNames caseSensitive used).Records caseSensitive used :=
  (empty caseSensitive).foldl_take used

/-- A fresh name is the first that is not in use. -/
theorem fresh (h : s.Records caseSensitive names) (base : String) :
    FirstFree caseSensitive names base (s.fresh base) := by
  rcases s.fresh_spec base with ⟨hfree, heq⟩ | ⟨htaken, k, hk, hcount, heq, hfree, hbefore⟩
  · exact Or.inl ⟨h.not_inUse hfree, heq⟩
  · refine Or.inr ⟨(h.isTaken_iff base).1 htaken, k, hk, Nat.le_trans hcount h.count_le, heq,
      h.not_inUse hfree, fun j hj hlt => ?_⟩
    exact (h.isTaken_iff _).1 (hbefore j hj hlt)

/-- **One call is answered rightly and keeps the invariant.** -/
theorem serve (h : s.Records caseSensitive names) (call : Call) :
    (∀ base name, (s.serve call).1.named? = some (base, name) →
      ¬ InUse caseSensitive names name ∧ FirstFree caseSensitive names base name) ∧
    (s.serve call).2.Records caseSensitive (names ++ (s.serve call).1.taken?.toList) := by
  have hfresh : ∀ base, ¬ InUse caseSensitive names (s.fresh base) ∧
      FirstFree caseSensitive names base (s.fresh base) := fun base =>
    ⟨h.not_inUse (s.isTaken_fresh base), h.fresh base⟩
  cases call with
  | take name =>
      refine ⟨fun base other hnamed => ?_, h.take name⟩
      simp [NameSupply.serve, Event.named?] at hnamed
  | fresh base =>
      refine ⟨fun base' name hnamed => ?_, by simpa [NameSupply.serve, Event.taken?] using h⟩
      cases hnamed
      exact hfresh base
  | draw base =>
      refine ⟨fun base' name hnamed => ?_, h.take (s.fresh base)⟩
      cases hnamed
      exact hfresh base

/-- **Every call of a run is answered rightly**, with the names that are in use at its moment. -/
theorem transcript (h : s.Records caseSensitive names) (calls : List Call) {event : Event}
    {before after : List Event} (hsplit : s.transcript calls = before ++ event :: after)
    {base name : String} (hnamed : event.named? = some (base, name)) :
    ¬ InUse caseSensitive (names ++ before.filterMap Event.taken?) name ∧
      FirstFree caseSensitive (names ++ before.filterMap Event.taken?) base name := by
  induction calls generalizing s names before with
  | nil => simp [NameSupply.transcript] at hsplit
  | cons call calls ih =>
      obtain ⟨hanswer, hafter⟩ := h.serve call
      rw [NameSupply.transcript] at hsplit
      cases before with
      | nil =>
          obtain ⟨rfl, -⟩ := List.cons.inj hsplit
          simpa using hanswer base name hnamed
      | cons first before =>
          -- the first event puts its name in use for the rest of the run
          obtain ⟨rfl, hrest⟩ := List.cons.inj hsplit
          have hlater := ih hafter hrest
          rw [List.append_assoc] at hlater
          cases htaken : (s.serve call).1.taken? with
          | none =>
              rw [List.filterMap_cons_none htaken]
              simpa [htaken] using hlater
          | some other =>
              rw [List.filterMap_cons_some htaken]
              simpa [htaken] using hlater

/-- **What is drawn in a run is new each time**: not in use at the start, and not drawn before. -/
theorem drawn (h : s.Records caseSensitive names) (calls : List Call) :
    (∀ name ∈ (s.transcript calls).filterMap Event.drawn?, ¬ InUse caseSensitive names name) ∧
      ((s.transcript calls).filterMap Event.drawn?).Pairwise
        fun a b => foldName caseSensitive a ≠ foldName caseSensitive b := by
  induction calls generalizing s names with
  | nil => exact ⟨fun name hname => absurd hname List.not_mem_nil, .nil⟩
  | cons call calls ih =>
      obtain ⟨hanswer, hafter⟩ := h.serve call
      obtain ⟨hnew, hpairwise⟩ := ih hafter
      -- what is new after the call was new before it, and is not what the call took
      have hkept : ∀ name ∈ ((s.serve call).2.transcript calls).filterMap Event.drawn?,
          ¬ InUse caseSensitive names name := fun name hname ⟨other, hother, heq⟩ =>
        hnew name hname ⟨other, List.mem_append_left _ hother, heq⟩
      rw [NameSupply.transcript]
      cases call with
      | take name => exact ⟨hkept, hpairwise⟩
      | fresh base => exact ⟨hkept, hpairwise⟩
      | draw base =>
          refine ⟨List.forall_mem_cons.2 ⟨(hanswer base _ rfl).1, hkept⟩,
            List.pairwise_cons.2 ⟨fun name hname heq => ?_, hpairwise⟩⟩
          exact hnew name hname ⟨s.fresh base, by simp [NameSupply.serve, draw, Event.taken?],
            heq.symm⟩

end Records

/-- **The answers of a run, exactly.**  Every call is answered, in order.  A fresh name, looked at
or drawn, is not in use at its moment: it differs, in the form in which names are compared, from the
names at the start and from those that were taken or drawn before.  It is the base when that is not
in use, and otherwise the base followed by the least number from one on that makes it so.  The names
that are drawn in the run are all different. -/
theorem transcript_exactly (caseSensitive : Bool) (used : List String) (calls : List Call) :
    ((ofNames caseSensitive used).transcript calls).map Event.call = calls ∧
    (∀ before event after,
      (ofNames caseSensitive used).transcript calls = before ++ event :: after →
      ∀ base name, event.named? = some (base, name) →
        ¬ InUse caseSensitive (used ++ before.filterMap Event.taken?) name ∧
        FirstFree caseSensitive (used ++ before.filterMap Event.taken?) base name) ∧
    ((ofNames caseSensitive used).transcript calls |>.filterMap Event.drawn?).Pairwise
      fun a b => foldName caseSensitive a ≠ foldName caseSensitive b := by
  have hstart := Records.ofNames caseSensitive used
  refine ⟨map_call_transcript _ calls, ?_, (hstart.drawn calls).2⟩
  intro before event after hsplit base name hnamed
  exact hstart.transcript calls hsplit hnamed

/-- Where case is not told apart, the second name that is drawn for a base passes over the name at
the start, the one drawn before and the one taken in between. -/
theorem transcript_exactly_crowded :
    (ofNames false ["Value"]).transcript
        [.fresh "value", .draw "value", .take "VALUE2", .draw "value", .fresh "other"] =
      [.showed "value" "value1", .drew "value" "value1", .took "VALUE2"] ++
        .drew "value" "value3" :: [.showed "other" "other"] ∧
      ¬ InUse false ["Value", "value1", "VALUE2"] "value3" ∧
      FirstFree false ["Value", "value1", "VALUE2"] "value" "value3" := by
  have hrun : (ofNames false ["Value"]).transcript
        [.fresh "value", .draw "value", .take "VALUE2", .draw "value", .fresh "other"] =
      [.showed "value" "value1", .drew "value" "value1", .took "VALUE2"] ++
        .drew "value" "value3" :: [.showed "other" "other"] := rfl
  exact ⟨hrun, (transcript_exactly false ["Value"] _).2.1 _ _ _ hrun "value" "value3" rfl⟩

end Ambit.NameSupply
