/-
Words in a text, and the offsets at which they stand.

A word stands at a byte offset when the bytes from there on spell it.  For a word with characters
this splits the text into what comes before the word, the word, and what comes after it; the empty
word stands at every offset up to the end, also inside a character.  A search finds offsets at which
its needle stands, and an offset inside a part of the text is one inside the text.  Words that end
at the same byte end in the same way, so no two words of equal size stand at one offset.

Main definitions:

* `Ambit.Text.Splits` — a word between what comes before it and what comes after it;
* `Ambit.Text.Stands` — **the bytes from an offset on spell a word**.

Main results:

* `Ambit.Text.splits_of_search` — **a search finds its needle**;
* `Ambit.Text.Splits.stands`, `Ambit.Text.Stands.splits` — the two notions agree on words with
  characters;
* `Ambit.Text.Stands.inside` — a word inside a word;
* `Ambit.Text.Splits.same_end` — words that end at the same byte.
-/

import Ambit.Text.Occurrence
import Mathlib.Data.List.Basic

set_option relaxedAutoImplicit false
set_option autoImplicit false

namespace Ambit.Text

variable {text word part : List Char} {n m : ℕ}

/-! ### Parts of a text -/

theorem byteLength_toList (s : String) : byteLength s.toList = s.utf8ByteSize := by
  have hsize : ∀ cs : List Char, (String.ofList cs).utf8ByteSize = byteLength cs := by
    intro cs
    induction cs with
    | nil => rfl
    | cons c cs ih =>
        rw [String.ofList_cons, String.utf8ByteSize_append, String.utf8ByteSize_singleton, ih,
          byteLength_cons]
  rw [← hsize, String.ofList_toList]

theorem byteLength_eq_zero_iff {cs : List Char} : byteLength cs = 0 ↔ cs = [] := by
  cases cs with
  | nil => simp
  | cons c cs =>
      have hc := Char.utf8Size_pos c
      simp only [byteLength_cons, reduceCtorEq, iff_false]
      omega

theorem byteLength_concat (pre : List Char) (c : Char) :
    byteLength (pre ++ [c]) = byteLength pre + c.utf8Size := by
  simp

@[simp] theorem takeBytes_zero (cs : List Char) : takeBytes 0 cs = [] := by
  have hle := byteLength_takeBytes_le 0 cs
  exact byteLength_eq_zero_iff.1 (Nat.le_zero.1 hle)

theorem takeBytes_append (as bs : List Char) : takeBytes (byteLength as) (as ++ bs) = as := by
  induction as with
  | nil => exact takeBytes_zero bs
  | cons a as ih =>
      rw [List.cons_append, takeBytes, byteLength_cons, if_pos (Nat.le_add_right ..),
        Nat.add_sub_cancel_left, ih]

theorem takeBytes_isPrefix (n : ℕ) (cs : List Char) : takeBytes n cs <+: cs := by
  induction cs generalizing n with
  | nil => exact List.nil_prefix
  | cons c cs ih =>
      rw [takeBytes]
      split
      · exact (List.prefix_cons_inj c).2 (ih _)
      · exact List.nil_prefix

theorem dropBytes_append (as bs : List Char) : dropBytes (byteLength as) (as ++ bs) = bs := by
  rw [dropBytes, cutAt_eq_some_iff.2 ⟨rfl, rfl⟩]

/-- Two ways to cut a text at the same byte are the same. -/
theorem append_inj_of_byteLength {as bs as' bs' : List Char} (h : as ++ bs = as' ++ bs')
    (hsize : byteLength as = byteLength as') : as = as' ∧ bs = bs' := by
  have hcut : cutAt (byteLength as) (as ++ bs) = some (as, bs) := cutAt_eq_some_iff.2 ⟨rfl, rfl⟩
  have hcut' : cutAt (byteLength as) (as ++ bs) = some (as', bs') :=
    cutAt_eq_some_iff.2 ⟨h.symm, hsize.symm⟩
  simpa using hcut.symm.trans hcut'

/-- Of two ways to cut a text, the earlier one leaves more behind. -/
theorem exists_append_of_byteLength_le {as bs as' bs' : List Char} (h : as ++ bs = as' ++ bs')
    (hle : byteLength as ≤ byteLength as') : ∃ mid, as' = as ++ mid ∧ bs = mid ++ bs' := by
  rcases List.append_eq_append_iff.1 h with ⟨mid, has, hbs⟩ | ⟨mid, has, hbs⟩
  · exact ⟨mid, has, hbs⟩
  · have hmid : mid = [] := by
      rw [has, byteLength_append] at hle
      exact byteLength_eq_zero_iff.1 (by omega)
    subst hmid
    exact ⟨[], by simpa using has.symm, by simpa using hbs.symm⟩

/-! ### Words at offsets -/

/-- A text in three parts: what comes before a word, the word, and what comes after it. -/
def Splits (text word : List Char) (n : ℕ) : Prop :=
  ∃ before after, text = before ++ word ++ after ∧ byteLength before = n

/-- **A word stands at an offset**: the bytes from there on spell it. -/
structure Stands (text word : List Char) (n : ℕ) : Prop where
  fits : n + byteLength word ≤ byteLength text
  spells : slice n (n + byteLength word) text = word

theorem stands_nil (h : n ≤ byteLength text) : Stands text [] n where
  fits := h
  spells := by rw [slice, byteLength_nil, Nat.add_zero, Nat.sub_self, takeBytes_zero]

theorem Splits.fits (h : Splits text word n) : n + byteLength word ≤ byteLength text := by
  obtain ⟨before, after, rfl, rfl⟩ := h
  rw [byteLength_append, byteLength_append]
  exact Nat.le_add_right ..

theorem Splits.stands (h : Splits text word n) : Stands text word n where
  fits := h.fits
  spells := by
    obtain ⟨before, after, rfl, rfl⟩ := h
    rw [slice, Nat.add_sub_cancel_left, List.append_assoc, dropBytes_append, takeBytes_append]

theorem splits_slice {stop : ℕ} (h : slice n stop text ≠ []) :
    Splits text (slice n stop text) n := by
  rw [slice, dropBytes] at h ⊢
  split at h
  · rename_i before rest hcut
    obtain ⟨rfl, rfl⟩ := cutAt_eq_some_iff.1 hcut
    obtain ⟨after, hafter⟩ := takeBytes_isPrefix (stop - byteLength before) rest
    refine ⟨before, after, ?_, rfl⟩
    rw [List.append_assoc, hafter]
  · exact absurd rfl h

theorem Stands.splits (h : Stands text word n) (hword : word ≠ []) : Splits text word n := by
  have hne : slice n (n + byteLength word) text ≠ [] := by
    rw [h.spells]
    exact hword
  have hsplits := splits_slice hne
  rwa [h.spells] at hsplits

/-- **A word inside a word** of the text stands in the text. -/
theorem Stands.inside (h : Stands text part n) (hpart : Splits part word m) :
    Stands text word (n + m) := by
  by_cases hword : word = []
  · subst hword
    have hm := hpart.fits
    have hn := h.fits
    rw [byteLength_nil] at hm
    exact stands_nil (by omega)
  · obtain ⟨before, after, rfl, rfl⟩ := hpart
    have hne : before ++ word ++ after ≠ [] := by simp [hword]
    obtain ⟨first, last, rfl, rfl⟩ := h.splits hne
    refine Splits.stands ⟨first ++ before, after ++ last, ?_, byteLength_append ..⟩
    simp only [List.append_assoc]

/-- **Words that end at the same byte** end in the same way. -/
theorem Splits.same_end {word' : List Char} (h : Splits text word n) (h' : Splits text word' m)
    (hend : n + byteLength word = m + byteLength word') :
    ∃ before before', before ++ word = before' ++ word' := by
  obtain ⟨before, after, rfl, rfl⟩ := h
  obtain ⟨before', after', htext, rfl⟩ := h'
  rw [← byteLength_append, ← byteLength_append] at hend
  exact ⟨before, before', (append_inj_of_byteLength htext hend).1⟩

/-! ### The search -/

theorem splits_of_searchFrom {needle : List Char} {accepts : Option Char → Option Char → Bool}
    {skip offset : ℕ} {previous : Option Char}
    (h : searchFrom needle accepts skip offset previous text = some n) :
    ∃ m, n = offset + m ∧ Splits text needle m := by
  induction text generalizing skip offset previous with
  | nil =>
      rw [searchFrom] at h
      split at h
      · rename_i hempty
        obtain ⟨-, rfl, -⟩ := hempty
        exact ⟨0, (Option.some.inj h).symm, [], [], rfl, rfl⟩
      · cases h
  | cons c cs ih =>
      -- an occurrence behind the first character has that character before it
      have hlater : ∀ skip', searchFrom needle accepts skip' (offset + c.utf8Size) (some c) cs =
          some n → ∃ m, n = offset + m ∧ Splits (c :: cs) needle m := by
        intro skip' hfound
        obtain ⟨m, rfl, before, after, rfl, rfl⟩ := ih hfound
        exact ⟨c.utf8Size + byteLength before, by omega, c :: before, after, rfl, rfl⟩
      rw [searchFrom] at h
      split at h
      · rename_i hhere
        split at h
        · obtain ⟨after, hafter⟩ := List.isPrefixOf_iff_prefix.1 hhere.2
          exact ⟨0, (Option.some.inj h).symm, [], after, hafter.symm, rfl⟩
        · exact hlater _ h
      · exact hlater _ h

/-- **A search finds its needle.** -/
theorem splits_of_search {needle : List Char} {accepts : Option Char → Option Char → Bool}
    (h : search needle text accepts = some n) : Splits text needle n := by
  obtain ⟨m, rfl, hsplits⟩ := splits_of_searchFrom h
  rwa [Nat.zero_add]

end Ambit.Text
