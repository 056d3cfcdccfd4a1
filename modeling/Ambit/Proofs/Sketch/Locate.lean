/-
The places at which words are found in a scope.

Words are looked for in the part of the text that a scope covers, and they are admissible at an
offset when they stand there and do not begin or end inside a longer name.  The search meets the
places of the words from left to right, but goes on behind a place that is not admissible, and not
at its second character.  So it finds the first admissible place among those that it meets, and this
is the first of all admissible places exactly when no place that it meets reaches into that one.  For
words that overlap themselves inside names only, such as a single name, this is always so; words
that repeat themselves behind a blank can be passed over.

Main definitions:

* `Ambit.Sketch.Covers` — the part of the text that a scope covers;
* `Ambit.Sketch.Admissible` — **an admissible place** of words in a scope;
* `Ambit.Sketch.Meets` — a place of words that the search meets;
* `Ambit.Sketch.LocatesFirst` — the search finds the first admissible place, if there is one;
* `Ambit.Sketch.OverlapsInNames` — words that overlap themselves inside names only.

Main results:

* `Ambit.Sketch.locate_eq_ok_iff` — what the search in a scope finds;
* `Ambit.Sketch.locatesFirst_iff` — when this is the first admissible place;
* `Ambit.Sketch.locate_finds_first_met` — **the search in a scope**;
* `Ambit.Sketch.locate_passes_over` — an admissible place that is passed over.
-/

import Ambit.Proofs.Sketch.Growth
import Ambit.Proofs.Text.Search
import Mathlib.Order.Nat

set_option relaxedAutoImplicit false
set_option autoImplicit false

namespace Ambit.Sketch

open Ambit.Text

variable {k : Sketch} {scope : ScopeId} {needle : String} {part : List Char} {n : ℕ}

/-! ### Places of words -/

/-- **The part of the text that a scope covers**: it lies between the offsets of the scope, which
have to lie between characters. -/
def Covers (k : Sketch) (scope : ScopeId) (part : List Char) : Prop :=
  ∃ before after, before ++ part ++ after = k.text.toList ∧
    byteLength before = (k.range scope).1 ∧ byteLength (before ++ part) = (k.range scope).2

/-- **An admissible place**: the words stand there in the part that the scope covers.  If they begin
with a character of a name, there is none right before them in that part; and if they end with one,
there is none right after them. -/
def Admissible (k : Sketch) (scope : ScopeId) (needle : String) (n : ℕ) : Prop :=
  ∃ part, k.Covers scope part ∧ ∃ before after, part = before ++ needle.toList ++ after ∧
    (k.range scope).1 + byteLength before = n ∧
    ¬ (continues needle.toList.head? = true ∧ continues before.getLast? = true) ∧
    ¬ (continues needle.toList.getLast? = true ∧ continues after.head? = true)

/-- A place of words that the search in a scope meets. -/
def Meets (k : Sketch) (scope : ScopeId) (needle : String) (n : ℕ) : Prop :=
  ∃ part, k.Covers scope part ∧ ∃ m, (k.range scope).1 + m = n ∧ Met part needle.toList m

/-- **The first admissible place is found**, and there is a failure only if there is none. -/
def LocatesFirst (k : Sketch) (scope : ScopeId) (needle : String) : Prop :=
  (∀ n, k.locate scope needle = .ok n ↔ IsLeast {m | k.Admissible scope needle m} n) ∧
    ∀ flaw, k.locate scope needle = .error flaw → ∀ n, ¬ k.Admissible scope needle n

/-- Where the words overlap themselves, their second occurrence begins inside a name. -/
def OverlapsInNames (words : List Char) : Prop :=
  ∀ first second, words = first ++ second → first ≠ [] → second ≠ [] → second <+: words →
    continues words.head? = true ∧ continues first.getLast? = true

theorem covers_iff_region :
    k.Covers scope part ↔ k.region scope = .ok ((k.range scope).1, part) := by
  rw [region_eq_ok_iff, between?_eq_some_iff, and_iff_right rfl, Covers]

theorem Covers.unique {part' : List Char} (h : k.Covers scope part) (h' : k.Covers scope part') :
    part' = part := by
  rw [covers_iff_region] at h h'
  rw [h, Except.ok.injEq, Prod.mk.injEq] at h'
  exact h'.2.symm

theorem admits_iff {words : List Char} {before after : Option Char} :
    admits words before after = true ↔
      ¬ (continues words.head? = true ∧ continues before = true) ∧
        ¬ (continues words.getLast? = true ∧ continues after = true) := by
  rw [admits]
  simp only [Bool.and_eq_true, Bool.not_eq_true', Bool.eq_false_iff, ne_eq]

/-- In the part that a scope covers, an admissible place is an accepted occurrence. -/
theorem admissible_iff (h : k.Covers scope part) : k.Admissible scope needle n ↔
    ∃ m, (k.range scope).1 + m = n ∧
      Accepted (admits needle.toList) part needle.toList m := by
  constructor
  · rintro ⟨part', h', before, after, rfl, hn, hfree⟩
    obtain rfl := h.unique h'
    exact ⟨byteLength before, hn, before, after, rfl, rfl, admits_iff.2 hfree⟩
  · rintro ⟨m, hn, before, after, hpart, rfl, hadmits⟩
    exact ⟨part, h, before, after, hpart, hn, admits_iff.1 hadmits⟩

theorem meets_iff (h : k.Covers scope part) : k.Meets scope needle n ↔
    ∃ m, (k.range scope).1 + m = n ∧ Met part needle.toList m := by
  constructor
  · rintro ⟨part', h', hmet⟩
    obtain rfl := h.unique h'
    exact hmet
  · exact fun hmet => ⟨part, h, hmet⟩

theorem Admissible.meets_iff (h : k.Admissible scope needle n) : k.Meets scope needle n ↔
    ∀ m < n, k.Meets scope needle m → m + needle.utf8ByteSize ≤ n := by
  obtain ⟨part, hpart, before, after, rfl, rfl, -⟩ := h
  have hsplits : Splits (before ++ needle.toList ++ after) needle.toList (byteLength before) :=
    ⟨before, after, rfl, rfl⟩
  simp only [Sketch.meets_iff hpart, Nat.add_left_cancel_iff, exists_eq_left]
  rw [met_iff, and_iff_right hsplits, byteLength_toList]
  constructor
  · rintro hreach m hm ⟨i, rfl, hmet⟩
    have hle := hreach i (by omega) hmet
    omega
  · intro hreach m hm hmet
    have hle := hreach ((k.range scope).1 + m) (by omega) ⟨m, rfl, hmet⟩
    omega

/-! ### Least places -/

theorem isLeast_shift_iff {P : ℕ → Prop} {start : ℕ} :
    IsLeast {m | ∃ i, start + i = m ∧ P i} n ↔ ∃ i, start + i = n ∧ IsLeast {i | P i} i := by
  constructor
  · rintro ⟨⟨i, rfl, hi⟩, hleast⟩
    refine ⟨i, rfl, hi, fun j hj => ?_⟩
    have hle := hleast ⟨j, rfl, hj⟩
    omega
  · rintro ⟨i, rfl, hi, hleast⟩
    refine ⟨⟨i, rfl, hi⟩, ?_⟩
    rintro _ ⟨j, rfl, hj⟩
    exact Nat.add_le_add_left (hleast hj) start

theorem isLeast_and_iff {P Q : ℕ → Prop} (h : ∀ n, IsLeast {m | P m} n → Q n) :
    IsLeast {m | Q m ∧ P m} n ↔ IsLeast {m | P m} n := by
  constructor
  · rintro ⟨⟨-, hn⟩, hleast⟩
    classical
    have hexists : ∃ m, P m := ⟨n, hn⟩
    have hfind := Nat.isLeast_find hexists
    have heq : Nat.find hexists = n :=
      Nat.le_antisymm (hfind.2 hn) (hleast ⟨h _ hfind, hfind.1⟩)
    rw [heq] at hfind
    exact hfind
  · intro hn
    exact ⟨⟨h n hn, hn.1⟩, fun m hm => hn.2 hm.2⟩

theorem not_of_eq_error {P : ℕ → Prop} {a : Outcome ℕ} {flaw : Flaw}
    (h : ∀ n, a = .ok n ↔ IsLeast {m | P m} n) (ha : a = .error flaw) (n : ℕ) : ¬ P n := by
  intro hn
  classical
  have hexists : ∃ m, P m := ⟨n, hn⟩
  rw [(h _).2 (Nat.isLeast_find hexists)] at ha
  cases ha

/-! ### What is found -/

/-- **The search in a scope** finds the first admissible place that it meets. -/
theorem locate_eq_ok_iff (hneedle : needle ≠ "") : k.locate scope needle = .ok n ↔
    IsLeast {m | k.Meets scope needle m ∧ k.Admissible scope needle m} n := by
  have hne : needle.toList ≠ [] := mt String.toList_eq_nil_iff.1 hneedle
  by_cases hcovers : ∃ part, k.Covers scope part
  · obtain ⟨part, hpart⟩ := hcovers
    have hset : {m | k.Meets scope needle m ∧ k.Admissible scope needle m} =
        {m | ∃ i, (k.range scope).1 + i = m ∧ (Met part needle.toList i ∧
          Accepted (admits needle.toList) part needle.toList i)} := by
      ext m
      simp only [Set.mem_ofPred_eq, meets_iff hpart, admissible_iff hpart]
      constructor
      · rintro ⟨⟨i, rfl, hmet⟩, j, hj, haccepted⟩
        obtain rfl : j = i := by omega
        exact ⟨j, rfl, hmet, haccepted⟩
      · rintro ⟨i, rfl, hmet, haccepted⟩
        exact ⟨⟨i, rfl, hmet⟩, i, rfl, haccepted⟩
    rw [hset, isLeast_shift_iff, locate_eq_ok_iff_search (covers_iff_region.1 hpart)]
    simp only [search_eq_some_iff hne]
  · constructor
    · intro h
      obtain ⟨⟨start, part⟩, hregion, -⟩ := Outcome.bind_eq_ok.1 h
      obtain ⟨rfl, hpart⟩ := region_eq_ok_iff.1 hregion
      exact absurd ⟨part, between?_eq_some_iff.1 hpart⟩ hcovers
    · rintro ⟨⟨⟨part, hpart, -⟩, -⟩, -⟩
      exact absurd ⟨part, hpart⟩ hcovers

/-- **The first admissible place is found** exactly when no place that is met reaches into it. -/
theorem locatesFirst_iff (hneedle : needle ≠ "") : k.LocatesFirst scope needle ↔
    ∀ n, IsLeast {m | k.Admissible scope needle m} n →
      ∀ m < n, k.Meets scope needle m → m + needle.utf8ByteSize ≤ n := by
  constructor
  · rintro ⟨hfound, -⟩ n hn
    obtain ⟨⟨hmeets, hadmissible⟩, -⟩ := (locate_eq_ok_iff hneedle).1 ((hfound n).2 hn)
    exact hadmissible.meets_iff.1 hmeets
  · intro hfree
    have hfound : ∀ n, k.locate scope needle = .ok n ↔
        IsLeast {m | k.Admissible scope needle m} n := by
      intro n
      rw [locate_eq_ok_iff hneedle]
      exact isLeast_and_iff fun n hn => hn.1.meets_iff.2 (hfree n hn)
    exact ⟨hfound, fun flaw hflaw => not_of_eq_error hfound hflaw⟩

/-- No place reaches into an admissible one, if the words overlap themselves inside names only. -/
theorem Admissible.le_of_overlapsInNames (h : k.Admissible scope needle n)
    (hwords : OverlapsInNames needle.toList) {m : ℕ} (hm : m < n)
    (hmeets : k.Meets scope needle m) : m + needle.utf8ByteSize ≤ n := by
  obtain ⟨part, hpart, before, after, rfl, rfl, hbefore, -⟩ := h
  obtain ⟨i, rfl, hmet⟩ := (Sketch.meets_iff hpart).1 hmeets
  by_contra hreach
  rw [← byteLength_toList] at hreach
  obtain ⟨first, second, hsplit, hfirst, hsecond, hbegins, front, rfl⟩ :=
    exists_overlap hmet.splits (by omega) (by omega)
  -- what comes right before the place ends as the front of the words does, inside a name
  obtain ⟨hhead, hlast⟩ := hwords first second hsplit hfirst hsecond hbegins
  rw [List.getLast?_append_of_ne_nil front hfirst] at hbefore
  exact hbefore ⟨hhead, hlast⟩

theorem overlapsInNames_of_all_isPart {words : List Char}
    (h : words.all Identifier.isPart = true) : OverlapsInNames words := by
  rw [List.all_eq_true] at h
  rintro first second rfl hfirst - -
  constructor
  · rw [continues, List.head?_append_of_ne_nil _ hfirst, List.head?_eq_some_head hfirst,
      Option.any_some]
    exact h _ (List.mem_append_left _ (List.head_mem hfirst))
  · rw [continues, List.getLast?_eq_some_getLast hfirst, Option.any_some]
    exact h _ (List.mem_append_left _ (List.getLast_mem hfirst))

/-- **The search in a scope**: it finds the first admissible place that it meets, and fails only if
it meets none.  This is the first of all admissible places exactly when no place that it meets
reaches into that one, and it always is for words that overlap themselves inside names only. -/
theorem locate_finds_first_met (k : Sketch) (scope : ScopeId) {needle : String}
    (hneedle : needle ≠ "") :
    (∀ n, k.locate scope needle = .ok n ↔
      IsLeast {m | k.Meets scope needle m ∧ k.Admissible scope needle m} n) ∧
    (∀ flaw, k.locate scope needle = .error flaw →
      ∀ n, ¬ (k.Meets scope needle n ∧ k.Admissible scope needle n)) ∧
    (k.LocatesFirst scope needle ↔ ∀ n, IsLeast {m | k.Admissible scope needle m} n →
      ∀ m < n, k.Meets scope needle m → m + needle.utf8ByteSize ≤ n) ∧
    (OverlapsInNames needle.toList → k.LocatesFirst scope needle) := by
  have hfound : ∀ n, k.locate scope needle = .ok n ↔
      IsLeast {m | k.Meets scope needle m ∧ k.Admissible scope needle m} n :=
    fun n => locate_eq_ok_iff hneedle
  refine ⟨hfound, fun flaw hflaw => not_of_eq_error hfound hflaw, locatesFirst_iff hneedle, ?_⟩
  intro hwords
  exact (locatesFirst_iff hneedle).2 fun n hn m hm hmeets =>
    hn.1.le_of_overlapsInNames hwords hm hmeets

/-- Of three places of words that repeat themselves, the first is not admissible, the second is
passed over with it, and the third is found; a name is not passed over. -/
theorem locate_finds_first_met_repeated :
    ("a b a" ≠ "" ∧ IsLeast {m | (ofMarked "xa b a b a; a b a").Meets ⟨0⟩ "a b a" m ∧
        (ofMarked "xa b a b a; a b a").Admissible ⟨0⟩ "a b a" m} 12) ∧
      "b" ≠ "" ∧ (ofMarked "xa b a b a; a b a").LocatesFirst ⟨0⟩ "b" := by
  have hwords : "a b a" ≠ "" := by decide
  have hname : "b" ≠ "" := by decide
  obtain ⟨hfound, -⟩ := locate_finds_first_met (ofMarked "xa b a b a; a b a") ⟨0⟩ hwords
  obtain ⟨-, -, -, hfirst⟩ := locate_finds_first_met (ofMarked "xa b a b a; a b a") ⟨0⟩ hname
  exact ⟨⟨hwords, (hfound 12).1 (by decide +kernel)⟩, hname,
    hfirst (overlapsInNames_of_all_isPart (by decide +kernel))⟩

/-- **An admissible place that is passed over**: the words stand at offset 1 inside a longer name,
and at offset 5 behind a blank, where the first occurrence ends; neither is found. -/
theorem locate_passes_over :
    (ofMarked "xa b a b a").locate ⟨0⟩ "a b a" = .error (.absentIn "a b a" ⟨0⟩) ∧
      (ofMarked "xa b a b a").Admissible ⟨0⟩ "a b a" 5 ∧
      ¬ (ofMarked "xa b a b a").LocatesFirst ⟨0⟩ "a b a" := by
  have hfails : (ofMarked "xa b a b a").locate ⟨0⟩ "a b a" = .error (.absentIn "a b a" ⟨0⟩) := by
    decide +kernel
  have hcovers : (ofMarked "xa b a b a").Covers ⟨0⟩ "xa b a b a".toList :=
    ⟨[], [], by decide +kernel, by decide +kernel, by decide +kernel⟩
  have hadmissible : (ofMarked "xa b a b a").Admissible ⟨0⟩ "a b a" 5 :=
    ⟨_, hcovers, "xa b ".toList, [], by decide +kernel, by decide +kernel, by decide +kernel,
      by decide +kernel⟩
  exact ⟨hfails, hadmissible, fun hfirst => hfirst.2 _ hfails 5 hadmissible⟩

end Ambit.Sketch
