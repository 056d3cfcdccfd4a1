/-
What the search for a needle finds.

The search goes through a text from left to right.  It meets an occurrence of the needle when none
that it has met before reaches into it, so of occurrences that overlap it meets the first, does not
meet those that begin inside it, and may meet the next one after its end.  Among the occurrences
that it meets it finds the first that is accepted.  One that is accepted and not met is overlapped
by one that is met, and then the needle overlaps itself.

Main definitions:

* `Ambit.Text.Accepted` — an occurrence that is accepted for its neighbours;
* `Ambit.Text.Met` — **an occurrence that the search meets**;
* `Ambit.Text.Passing` — what the search knows on its way through a text.

Main results:

* `Ambit.Text.Passing.refused`, `Ambit.Text.Passing.pass` — the steps of the search;
* `Ambit.Text.search_eq_some_iff` — **the search finds the first accepted occurrence that it meets**;
* `Ambit.Text.exists_overlap` — an occurrence that another one reaches into.
-/

import Ambit.Proofs.Text.Occurrence
import Mathlib.Order.Bounds.Basic

set_option relaxedAutoImplicit false
set_option autoImplicit false

namespace Ambit.Text

variable {text needle pre rest cs : List Char} {accepts : Option Char → Option Char → Bool}
  {c : Char} {skip n m : ℕ}

/-! ### Occurrences -/

/-- An occurrence that is accepted for its neighbours: what comes right before it, and what comes
right after it. -/
def Accepted (accepts : Option Char → Option Char → Bool) (text needle : List Char) (n : ℕ) :
    Prop :=
  ∃ before after, text = before ++ needle ++ after ∧ byteLength before = n ∧
    accepts before.getLast? after.head? = true

/-- **An occurrence that the search meets**: none that it meets before reaches into it. -/
def Met (text needle : List Char) (n : ℕ) : Prop :=
  Splits text needle n ∧ ∀ m, ∀ _ : m < n, Met text needle m → m + byteLength needle ≤ n
termination_by n

theorem met_iff : Met text needle n ↔ Splits text needle n ∧
    ∀ m < n, Met text needle m → m + byteLength needle ≤ n := by
  rw [Met]

theorem Met.splits (h : Met text needle n) : Splits text needle n := (met_iff.1 h).1

theorem splits_byteLength_iff :
    Splits (pre ++ rest) needle (byteLength pre) ↔ needle <+: rest := by
  constructor
  · rintro ⟨before, after, htext, hsize⟩
    rw [List.append_assoc] at htext
    exact ⟨after, (append_inj_of_byteLength htext hsize.symm).2.symm⟩
  · rintro ⟨after, rfl⟩
    exact ⟨pre, after, (List.append_assoc ..).symm, rfl⟩

theorem accepted_byteLength_iff :
    Accepted accepts (pre ++ rest) needle (byteLength pre) ↔
      needle <+: rest ∧ accepts pre.getLast? (rest.drop needle.length).head? = true := by
  constructor
  · rintro ⟨before, after, htext, hsize, haccepts⟩
    rw [List.append_assoc] at htext
    obtain ⟨rfl, rfl⟩ := append_inj_of_byteLength htext hsize.symm
    exact ⟨List.prefix_append .., by rwa [List.drop_left]⟩
  · rintro ⟨⟨after, rfl⟩, haccepts⟩
    rw [List.drop_left] at haccepts
    exact ⟨pre, after, (List.append_assoc ..).symm, rfl, haccepts⟩

/-- No occurrence begins inside a character. -/
theorem Splits.le_of_lt (h : Splits (pre ++ c :: cs) needle n)
    (hlt : n < byteLength pre + c.utf8Size) : n ≤ byteLength pre := by
  obtain ⟨before, after, htext, rfl⟩ := h
  rw [List.append_assoc] at htext
  by_contra hle
  obtain ⟨mid, rfl, hrest⟩ := exists_append_of_byteLength_le htext (by omega)
  cases mid with
  | nil => simp at hle
  | cons d mid =>
      obtain ⟨rfl, -⟩ := List.cons.inj hrest
      rw [byteLength_append, byteLength_cons] at hlt
      omega

/-! ### The way of the search -/

/-- **The way of the search** through a text: it has read `pre`, and the next `skip` characters of
the rest belong to the occurrence that it has met last. -/
structure Passing (text needle pre rest : List Char) (skip : ℕ) : Prop where
  text_eq : text = pre ++ rest
  /-- What it has met reaches no further than the characters to be skipped. -/
  reach : ∀ m < byteLength pre, Met text needle m →
    m + byteLength needle ≤ byteLength pre + byteLength (rest.take skip)
  /-- The characters to be skipped belong to an occurrence that it has met. -/
  inside : skip ≠ 0 → ∃ m < byteLength pre, Met text needle m ∧
    byteLength pre + byteLength (rest.take skip) ≤ m + byteLength needle

namespace Passing

theorem start (text needle : List Char) : Passing text needle [] text 0 where
  text_eq := rfl
  reach m hm := absurd hm (Nat.not_lt_zero m)
  inside h := absurd rfl h

/-- When nothing is to be skipped, an occurrence is met. -/
theorem met_iff_begins (h : Passing text needle pre rest 0) :
    Met text needle (byteLength pre) ↔ needle <+: rest := by
  rw [met_iff, h.text_eq, splits_byteLength_iff, and_iff_left_iff_imp]
  intro _ m hm hmet
  rw [← h.text_eq] at hmet
  simpa using h.reach m hm hmet

theorem not_met (h : Passing text needle pre (c :: cs) skip) (hskip : skip ≠ 0) :
    ¬ Met text needle (byteLength pre) := by
  intro hmet
  obtain ⟨m, hm, hmet', hreach⟩ := h.inside hskip
  obtain ⟨skip, rfl⟩ := Nat.exists_eq_succ_of_ne_zero hskip
  have hle := (met_iff.1 hmet).2 m hm hmet'
  have hc := Char.utf8Size_pos c
  rw [List.take_succ_cons, byteLength_cons] at hreach
  omega

theorem text_eq_append (h : Passing text needle pre (c :: cs) skip) :
    text = pre ++ [c] ++ cs := by
  rw [h.text_eq, List.append_cons]

/-- An occurrence that is met behind the next character is met there or was met before. -/
theorem lt_or_eq (h : Passing text needle pre (c :: cs) skip)
    (hm : m < byteLength (pre ++ [c])) (hmet : Met text needle m) :
    m < byteLength pre ∨ m = byteLength pre := by
  have hsplits := hmet.splits
  rw [h.text_eq] at hsplits
  rw [byteLength_concat] at hm
  exact Nat.lt_or_eq_of_le (hsplits.le_of_lt hm)

/-- **A step over an occurrence**: the rest of it is to be skipped. -/
theorem refused (h : Passing text needle pre (c :: cs) 0) (hneedle : needle ≠ [])
    (hbegins : needle <+: c :: cs) :
    Passing text needle (pre ++ [c]) cs (needle.length - 1) := by
  have hsize : byteLength needle = c.utf8Size + byteLength (cs.take (needle.length - 1)) := by
    obtain ⟨after, hafter⟩ := hbegins
    cases needle with
    | nil => exact absurd rfl hneedle
    | cons d needle =>
        obtain ⟨rfl, rfl⟩ := List.cons.inj hafter
        simp
  refine ⟨h.text_eq_append, fun m hm hmet => ?_, fun _ => ?_⟩
  · rw [byteLength_concat]
    rcases h.lt_or_eq hm hmet with hm | rfl
    · have hreach := h.reach m hm hmet
      rw [List.take_zero, byteLength_nil] at hreach
      omega
    · omega
  · have hc := Char.utf8Size_pos c
    rw [byteLength_concat]
    exact ⟨byteLength pre, by omega, h.met_iff_begins.2 hbegins, by omega⟩

/-- **A step over a character** at which nothing is met. -/
theorem pass (h : Passing text needle pre (c :: cs) skip)
    (hmet : ¬ Met text needle (byteLength pre)) :
    Passing text needle (pre ++ [c]) cs (skip - 1) := by
  have hsize : skip ≠ 0 → byteLength ((c :: cs).take skip) =
      c.utf8Size + byteLength (cs.take (skip - 1)) := by
    intro hskip
    obtain ⟨skip, rfl⟩ := Nat.exists_eq_succ_of_ne_zero hskip
    rfl
  refine ⟨h.text_eq_append, fun m hm hmet' => ?_, fun hskip => ?_⟩
  · rw [byteLength_concat]
    rcases h.lt_or_eq hm hmet' with hm | rfl
    · have hreach := h.reach m hm hmet'
      by_cases hskip : skip = 0
      · rw [hskip, List.take_zero, byteLength_nil] at hreach
        omega
      · rw [hsize hskip] at hreach
        omega
    · exact absurd hmet' hmet
  · obtain ⟨m, hm, hmet', hreach⟩ := h.inside (by omega)
    rw [hsize (by omega)] at hreach
    rw [byteLength_concat]
    exact ⟨m, by omega, hmet', by omega⟩

end Passing

/-! ### What is found -/

/-- What the search can find from the end of `pre` on. -/
def Ahead (accepts : Option Char → Option Char → Bool) (text needle pre : List Char) : Set ℕ :=
  {m | byteLength pre ≤ m ∧ Met text needle m ∧ Accepted accepts text needle m}

/-- When nothing can be found at the next character, it is found behind it. -/
theorem ahead_append (h : Passing text needle pre (c :: cs) skip)
    (hnot : ¬ (Met text needle (byteLength pre) ∧ Accepted accepts text needle (byteLength pre))) :
    Ahead accepts text needle (pre ++ [c]) = Ahead accepts text needle pre := by
  ext m
  simp only [Ahead, Set.mem_ofPred_eq, and_congr_left_iff]
  rintro ⟨hmet, haccepted⟩
  constructor
  · intro hm
    rw [byteLength_concat] at hm
    omega
  · intro hm
    by_contra hlt
    rcases h.lt_or_eq (Nat.lt_of_not_le hlt) hmet with hlt | rfl
    · omega
    · exact hnot ⟨hmet, haccepted⟩

/-- **The run of the search**: from wherever it stands, it finds the first accepted occurrence that
it meets. -/
theorem searchFrom_eq_some_iff (hneedle : needle ≠ [])
    (h : Passing text needle pre rest skip) :
    searchFrom needle accepts skip (byteLength pre) pre.getLast? rest = some n ↔
      IsLeast (Ahead accepts text needle pre) n := by
  induction rest generalizing pre skip with
  | nil =>
      have hnone : ¬ (skip = 0 ∧ needle = [] ∧ accepts pre.getLast? none = true) :=
        fun hempty => hneedle hempty.2.1
      rw [searchFrom, if_neg hnone]
      simp only [reduceCtorEq, false_iff]
      rintro ⟨⟨hn, hmet, -⟩, -⟩
      -- nothing but the empty needle stands at the end
      have hfits := hmet.splits.fits
      rw [h.text_eq, List.append_nil] at hfits
      exact hneedle (byteLength_eq_zero_iff.1 (by omega))
  | cons c cs ih =>
      have hnext : ∀ skip', Passing text needle (pre ++ [c]) cs skip' →
          ¬ (Met text needle (byteLength pre) ∧ Accepted accepts text needle (byteLength pre)) →
          (searchFrom needle accepts skip' (byteLength pre + c.utf8Size) (some c) cs = some n ↔
            IsLeast (Ahead accepts text needle pre) n) := by
        intro skip' hpassing hnot
        rw [← ahead_append h hnot, ← ih hpassing, List.getLast?_concat, byteLength_concat]
      rw [searchFrom]
      by_cases hhere : skip = 0 ∧ needle.isPrefixOf (c :: cs)
      · obtain ⟨rfl, hbegins⟩ := hhere
        rw [List.isPrefixOf_iff_prefix] at hbegins
        rw [if_pos ⟨rfl, List.isPrefixOf_iff_prefix.2 hbegins⟩]
        have haccepted : Accepted accepts text needle (byteLength pre) ↔
            accepts pre.getLast? ((c :: cs).drop needle.length).head? = true := by
          rw [h.text_eq, accepted_byteLength_iff, and_iff_right hbegins]
        split
        · rename_i haccepts
          have hleast : IsLeast (Ahead accepts text needle pre) (byteLength pre) :=
            ⟨⟨Nat.le_refl _, h.met_iff_begins.2 hbegins, haccepted.2 haccepts⟩, fun m hm => hm.1⟩
          rw [Option.some.injEq]
          exact ⟨fun heq => heq ▸ hleast, hleast.unique⟩
        · rename_i haccepts
          exact hnext _ (h.refused hneedle hbegins) fun hboth => haccepts (haccepted.1 hboth.2)
      · have hmet : ¬ Met text needle (byteLength pre) := by
          intro hmet
          by_cases hskip : skip = 0
          · subst hskip
            exact hhere ⟨rfl, List.isPrefixOf_iff_prefix.2 (h.met_iff_begins.1 hmet)⟩
          · exact h.not_met hskip hmet
        rw [if_neg hhere]
        exact hnext _ (h.pass hmet) fun hboth => hmet hboth.1

/-- **The search finds the first accepted occurrence that it meets.** -/
theorem search_eq_some_iff (hneedle : needle ≠ []) :
    search needle text accepts = some n ↔
      IsLeast {m | Met text needle m ∧ Accepted accepts text needle m} n := by
  have hahead : Ahead accepts text needle [] =
      {m | Met text needle m ∧ Accepted accepts text needle m} := by
    ext m
    simp [Ahead]
  rw [← hahead]
  exact searchFrom_eq_some_iff hneedle (Passing.start text needle)

/-! ### Overlapping occurrences -/

/-- **An occurrence that another one reaches into**: the needle overlaps itself, and what comes
right before the second occurrence is the part of the needle in front of the overlap. -/
theorem exists_overlap {before after : List Char} (hm : Splits (before ++ needle ++ after) needle m)
    (hlt : m < byteLength before) (hreach : byteLength before < m + byteLength needle) :
    ∃ first second, needle = first ++ second ∧ first ≠ [] ∧ second ≠ [] ∧ second <+: needle ∧
      first <:+ before := by
  obtain ⟨before', after', htext, rfl⟩ := hm
  rw [List.append_assoc, List.append_assoc] at htext
  obtain ⟨first, rfl, hneedle⟩ := exists_append_of_byteLength_le htext.symm (Nat.le_of_lt hlt)
  rw [byteLength_append] at hlt hreach
  obtain ⟨second, hsecond, hrest⟩ := exists_append_of_byteLength_le hneedle.symm (by omega)
  have hsize : byteLength needle = byteLength first + byteLength second := by
    rw [hsecond, byteLength_append]
  have hfirst : first ≠ [] := by
    rintro rfl
    simp at hlt
  have hsecond' : second ≠ [] := by
    rintro rfl
    simp at hsize
    omega
  have hlength : second.length ≤ needle.length := by
    rw [hsecond, List.length_append]
    omega
  have hbegins : second <+: needle ++ after := by
    rw [hrest]
    exact List.prefix_append ..
  exact ⟨first, second, hsecond, hfirst, hsecond',
    List.prefix_of_prefix_length_le hbegins (List.prefix_append ..) hlength,
    List.suffix_append ..⟩

end Ambit.Text
