/-
Where the name of a header stands.

The name of a header is the last word before its type parameters, and its offset is found by taking
the size of the name from the size of all that comes before the type parameters.  That is the offset
at which the name stands when nothing lies between the two.  Blanks in front of the type parameters
move the offset to the right by their own size, and then the bytes from there on never spell the
name: they end in a blank, and a word does not.

Main definitions:

* `Ambit.Sketch.Header.front` — what comes before the type parameters and the parameter list;
* `Ambit.Sketch.Header.gap` — **the size of the blanks behind the name**.

Main results:

* `Ambit.Text.exists_lastWord` — a text up to its last word, the word, and the blanks behind it;
* `Ambit.Sketch.Header.splits_name` — a header around its name;
* `Ambit.Sketch.Header.stands_name_iff` — **the name stands at its offset exactly when there is no
  gap**.
-/

import Ambit.Proofs.Text.Occurrence
import Ambit.Sketch.Header
import Mathlib.Data.List.TakeDrop

set_option relaxedAutoImplicit false
set_option autoImplicit false

namespace Ambit.Text

variable {before word gap cs : List Char}

/-! ### The last word -/

theorem blank_of_wordsFrom_eq_nil {current : List Char} (h : wordsFrom current cs = []) :
    current = [] ∧ ∀ c ∈ cs, isBlank c = true := by
  induction cs generalizing current with
  | nil =>
      rw [wordsFrom] at h
      split at h
      · exact ⟨‹_›, List.forall_mem_nil _⟩
      · cases h
  | cons c cs ih =>
      rw [wordsFrom] at h
      split at h
      · rename_i hc
        split at h
        · exact ⟨‹_›, List.forall_mem_cons.2 ⟨hc, (ih h).2⟩⟩
        · cases h
      · exact absurd (ih h).1 (List.cons_ne_nil _ _)

theorem exists_lastWord_from {current : List Char} (hcurrent : ∀ c ∈ current, isBlank c = false) :
    ∃ before gap, current.reverse ++ cs = before ++ (wordsFrom current cs).getLastD [] ++ gap ∧
      (∀ c ∈ gap, isBlank c = true) ∧
      ∀ c ∈ (wordsFrom current cs).getLastD [], isBlank c = false := by
  induction cs generalizing current with
  | nil =>
      rw [wordsFrom]
      split
      · rename_i hempty
        subst hempty
        exact ⟨[], [], rfl, List.forall_mem_nil _, List.forall_mem_nil _⟩
      · exact ⟨[], [], rfl, List.forall_mem_nil _, by simpa using hcurrent⟩
  | cons c cs ih =>
      rw [wordsFrom]
      split
      · rename_i hc
        obtain ⟨before, gap, hcs, hgap, hword⟩ :=
          ih (List.forall_mem_nil fun c => isBlank c = false)
        rw [List.reverse_nil, List.nil_append] at hcs
        split
        · rename_i hempty
          subst hempty
          exact ⟨c :: before, gap, congrArg (c :: ·) hcs, hgap, hword⟩
        · cases hwords : wordsFrom [] cs with
          | nil =>
              -- the word ends here, and nothing but blanks follows
              have hblank := (blank_of_wordsFrom_eq_nil hwords).2
              exact ⟨[], c :: cs, rfl, List.forall_mem_cons.2 ⟨hc, hblank⟩, by simpa using hcurrent⟩
          | cons first later =>
              have hlast : (current.reverse :: first :: later).getLastD [] =
                  (wordsFrom [] cs).getLastD [] := by
                rw [hwords]
                simp
              rw [hlast]
              refine ⟨current.reverse ++ c :: before, gap, ?_, hgap, hword⟩
              rw [List.append_assoc, List.append_assoc, List.cons_append,
                ← List.append_assoc before, ← hcs]
      · rename_i hc
        have hlonger : ∀ x ∈ c :: current, isBlank x = false :=
          List.forall_mem_cons.2 ⟨Bool.eq_false_iff.2 hc, hcurrent⟩
        have hlast := ih hlonger
        rwa [List.reverse_cons, List.append_assoc] at hlast

/-- **The last word** of a text: what comes before it, the word, and the blanks behind it. -/
theorem exists_lastWord (cs : List Char) :
    ∃ before gap, cs = before ++ (words cs).getLastD [] ++ gap ∧ (∀ c ∈ gap, isBlank c = true) ∧
      ∀ c ∈ (words cs).getLastD [], isBlank c = false :=
  exists_lastWord_from (List.forall_mem_nil _)

theorem trimEnd_isPrefix (cs : List Char) : trimEnd cs <+: cs := by
  rw [← List.reverse_suffix, trimEnd, List.reverse_reverse]
  exact List.dropWhile_suffix _

theorem trimEnd_append_blank (hgap : ∀ c ∈ gap, isBlank c = true)
    (hword : ∀ c ∈ word, isBlank c = false) (hne : word ≠ []) :
    trimEnd (before ++ word ++ gap) = before ++ word := by
  obtain ⟨start, c, rfl⟩ := (List.eq_nil_or_concat' word).resolve_left hne
  have hreverse : (before ++ (start ++ [c]) ++ gap).reverse =
      gap.reverse ++ c :: (before ++ start).reverse := by simp
  have hc : isBlank c = false := hword c (by simp)
  have hblank : ∀ b ∈ gap.reverse, isBlank b = true := fun b hb => hgap b (List.mem_reverse.1 hb)
  rw [trimEnd, hreverse, List.dropWhile_append_of_pos hblank,
    List.dropWhile_cons_of_neg (by simp [hc])]
  simp

end Ambit.Text

namespace Ambit.Sketch.Header

open Ambit.Text

variable {text : List Char} {start : ℕ}

/-! ### Headers -/

/-- What comes before the type parameters and the parameter list of a header. -/
def front (cs : List Char) : List Char := (splitTypeParams (trimEnd (cs.takeWhile (· != '(')))).1

/-- **The size of the blanks behind the name** of a header, in bytes. -/
def gap (cs : List Char) : ℕ := byteLength (front cs) - byteLength (trimEnd (front cs))

theorem ofChars_name (cs : List Char) :
    (ofChars cs).name.toList = (words (front cs)).getLastD [] := String.toList_ofList

theorem ofChars_nameOffset (cs : List Char) :
    (ofChars cs).nameOffset = byteLength (front cs) - byteLength (ofChars cs).name.toList := by
  rw [ofChars_name]
  rfl

theorem splitTypeParams_isPrefix (head : List Char) : (splitTypeParams head).1 <+: head := by
  rw [splitTypeParams]
  split
  · rename_i before hhead
    split
    · rename_i inside rest hspan
      -- read from the back, the list ends at the first opening bracket
      have hbefore : before = inside ++ '<' :: rest := by
        have hparts := congrArg (fun parts => parts.1 ++ parts.2) hspan
        rwa [List.span_eq_takeWhile_dropWhile, List.takeWhile_append_dropWhile] at hparts
      rw [← List.reverse_suffix, List.reverse_reverse, hhead, hbefore]
      exact ⟨'>' :: (inside ++ ['<']), by simp⟩
    · exact List.prefix_rfl
  · exact List.prefix_rfl

theorem front_isPrefix (cs : List Char) : front cs <+: cs :=
  ((splitTypeParams_isPrefix _).trans (trimEnd_isPrefix _)).trans (List.takeWhile_prefix _)

/-- **A header around its name**, with the gap behind it. -/
theorem splits_name {cs : List Char} (hname : (ofChars cs).name.toList ≠ []) :
    ∃ before blanks after, cs = before ++ (ofChars cs).name.toList ++ blanks ++ after ∧
      byteLength blanks = gap cs ∧ (ofChars cs).nameOffset = byteLength before + gap cs ∧
      (∀ c ∈ blanks, isBlank c = true) ∧ ∀ c ∈ (ofChars cs).name.toList, isBlank c = false := by
  obtain ⟨before, blanks, hfront, hblanks, hword⟩ := exists_lastWord (front cs)
  rw [← ofChars_name] at hfront hword
  obtain ⟨after, hafter⟩ := front_isPrefix cs
  have hgap : byteLength blanks = gap cs := by
    rw [gap, hfront, trimEnd_append_blank hblanks hword hname, byteLength_append,
      Nat.add_sub_cancel_left]
  refine ⟨before, blanks, after, by rw [← hfront, hafter], hgap, ?_, hblanks, hword⟩
  rw [ofChars_nameOffset, hfront, ← hgap, byteLength_append, byteLength_append]
  omega

theorem gap_le_nameOffset (cs : List Char) :
    gap cs ≤ (ofChars cs).nameOffset ∧
      (ofChars cs).nameOffset + byteLength (ofChars cs).name.toList ≤ byteLength cs := by
  by_cases hname : (ofChars cs).name.toList = []
  · obtain ⟨after, hafter⟩ := front_isPrefix cs
    have hsize := congrArg byteLength hafter
    rw [byteLength_append] at hsize
    rw [ofChars_nameOffset, hname, gap, byteLength_nil]
    omega
  · obtain ⟨before, blanks, after, hcs, hgap, hoffset, -, -⟩ := splits_name hname
    have hsize := congrArg byteLength hcs
    rw [byteLength_append, byteLength_append, byteLength_append] at hsize
    omega

/-- In a text in which the header stands, the name stands in front of the gap. -/
theorem stands_name {cs : List Char} (h : Stands text cs start) :
    Stands text (ofChars cs).name.toList (start + (ofChars cs).nameOffset - gap cs) := by
  obtain ⟨hle, hfits⟩ := gap_le_nameOffset cs
  by_cases hname : (ofChars cs).name.toList = []
  · rw [hname]
    have hend := h.fits
    exact stands_nil (by omega)
  · obtain ⟨before, blanks, after, hcs, -, hoffset, -, -⟩ := splits_name hname
    have hplace : start + (ofChars cs).nameOffset - gap cs = start + byteLength before := by omega
    rw [hplace]
    refine h.inside ⟨before, blanks ++ after, ?_, rfl⟩
    rw [← List.append_assoc]
    exact hcs

/-- **The name stands at its offset exactly when there is no gap**, or no name. -/
theorem stands_name_iff {cs : List Char} (h : Stands text cs start) :
    Stands text (ofChars cs).name.toList (start + (ofChars cs).nameOffset) ↔
      gap cs = 0 ∨ (ofChars cs).name.toList = [] := by
  constructor
  · intro hstands
    by_contra hnot
    obtain ⟨hgap, hname⟩ := not_or.1 hnot
    obtain ⟨before, blanks, after, hcs, hsize, hoffset, hblanks, hword⟩ := splits_name hname
    -- the bytes at the offset end where the blanks end
    have hblank : blanks ≠ [] := fun hempty => hgap (by rw [← hsize, hempty, byteLength_nil])
    have hfront : Stands text blanks
        (start + byteLength (before ++ (ofChars cs).name.toList)) :=
      h.inside ⟨before ++ (ofChars cs).name.toList, after, hcs, rfl⟩
    have hend : start + (ofChars cs).nameOffset + byteLength (ofChars cs).name.toList =
        start + byteLength (before ++ (ofChars cs).name.toList) + byteLength blanks := by
      rw [byteLength_append]
      omega
    obtain ⟨first, first', heq⟩ :=
      (hstands.splits hname).same_end (hfront.splits hblank) hend
    have hlast := congrArg List.getLast? heq
    rw [List.getLast?_append_of_ne_nil _ hname, List.getLast?_append_of_ne_nil _ hblank,
      List.getLast?_eq_some_getLast hname, List.getLast?_eq_some_getLast hblank,
      Option.some.injEq] at hlast
    have hc := hword _ (List.getLast_mem hname)
    rw [hlast, hblanks _ (List.getLast_mem hblank)] at hc
    cases hc
  · rintro (hgap | hname)
    · have hstands := stands_name h
      rwa [hgap, Nat.sub_zero] at hstands
    · rw [hname]
      obtain ⟨-, hfits⟩ := gap_le_nameOffset cs
      have hend := h.fits
      exact stands_nil (by omega)

end Ambit.Sketch.Header
