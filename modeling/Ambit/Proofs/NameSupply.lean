/-
A supply never hands out a name that is taken.

The search for a fresh name tries one number after the other, at most as often as there are taken
names, and takes the last number without looking.  That this is enough rests on two facts.  Names
that differ in their numbers are different also by their lower case: digits have no case, and they
do not change the form of a sigma that stands before them.  And among more different names than are
taken, one is free.

Main results:

* `Ambit.Text.lowerAfter_append_digits` — lower case leaves a number at the end of a text alone;
* `Ambit.toList_foldName_numbered` — a base with a number is compared as the base is, with the
  number behind it;
* `Ambit.foldName_numbered_inj` — names with different numbers are compared as different;
* `Ambit.NameSupply.firstFree_spec` — **the search ends at the least free number**;
* `Ambit.NameSupply.fresh_spec` — **what a fresh name is**;
* `Ambit.NameSupply.isTaken_fresh`, `Ambit.NameSupply.fold_ne_fold_fresh` — a fresh name is not
  taken;
* `Ambit.NameSupply.isTaken_foldl_take`, `Ambit.NameSupply.isTaken_ofNames` — what is taken after
  taking some names.
-/

import Ambit.NameSupply
import Mathlib.Data.List.Nodup
import Mathlib.Data.List.Perm.Subperm
import Std.Data.String.ToNat

set_option relaxedAutoImplicit false
set_option autoImplicit false

namespace Ambit

/-! ### Digits and lower case -/

namespace Text

/-- A digit has no case: it is not cased, not ignored for casing, and its own lower case. -/
theorem digit_caseless {c : Char} (h : c.isDigit = true) :
    isCased c = false ∧ isCaseIgnorable c = false ∧ lowerOne c = c ∧ c ≠ 'Σ' ∧ c ≠ 'İ' := by
  have hall : ∀ n < 58, 48 ≤ n → isCased (Char.ofNat n) = false ∧
      isCaseIgnorable (Char.ofNat n) = false ∧ lowerOne (Char.ofNat n) = Char.ofNat n ∧
      Char.ofNat n ≠ 'Σ' ∧ Char.ofNat n ≠ 'İ' := by
    decide
  obtain ⟨lo, hi⟩ := Char.isDigit_iff_toNat.1 h
  have hc := hall c.toNat (Nat.lt_succ_of_le hi) lo
  rwa [Char.ofNat_toNat] at hc

variable {ds : List Char}

theorem meetsCased_append_digits (hds : ∀ c ∈ ds, c.isDigit = true) (cs : List Char) :
    meetsCased (cs ++ ds) = meetsCased cs := by
  have hnone : meetsCased ds = false := by
    cases ds with
    | nil => rfl
    | cons d ds =>
        obtain ⟨hcased, hignorable, -⟩ := digit_caseless (hds d (List.mem_cons_self ..))
        simp [meetsCased, hignorable, hcased]
  induction cs with
  | nil => exact hnone
  | cons c cs ih =>
      cases hc : isCaseIgnorable c with
      | true => simpa [meetsCased, hc] using ih
      | false => simp [meetsCased, hc]

theorem lowerAfter_digits (hds : ∀ c ∈ ds, c.isDigit = true) (before : List Char) :
    lowerAfter before ds = ds := by
  induction ds generalizing before with
  | nil => rfl
  | cons d ds ih =>
      obtain ⟨-, -, hlower, hsigma, hdotted⟩ := digit_caseless (hds d (List.mem_cons_self ..))
      rw [lowerAfter, ih fun c hc => hds c (List.mem_cons_of_mem _ hc)]
      simp [hsigma, hdotted, hlower]

/-- **Lower case leaves a number at the end of a text alone.** -/
theorem lowerAfter_append_digits (hds : ∀ c ∈ ds, c.isDigit = true) (before cs : List Char) :
    lowerAfter before (cs ++ ds) = lowerAfter before cs ++ ds := by
  induction cs generalizing before with
  | nil => exact lowerAfter_digits hds before
  | cons c cs ih =>
      rw [List.cons_append, lowerAfter, lowerAfter, ih, meetsCased_append_digits hds,
        List.append_assoc]

end Text

theorem isDigit_of_mem_repr {n : ℕ} {c : Char} (h : c ∈ n.repr.toList) : c.isDigit = true := by
  rw [Nat.repr_eq_ofList_toDigits, String.toList_ofList] at h
  exact Nat.isDigit_of_mem_toDigits (by decide) (by decide) h

/-- A base with a number is compared as the base is, with the number behind it. -/
theorem toList_foldName_numbered (caseSensitive : Bool) (base : String) (k : ℕ) :
    (foldName caseSensitive (NameSupply.numbered base k)).toList =
      (foldName caseSensitive base).toList ++ k.repr.toList := by
  cases caseSensitive with
  | true => exact String.toList_append
  | false =>
      change (Text.lower (base ++ k.repr)).toList = (Text.lower base).toList ++ k.repr.toList
      rw [Text.lower, Text.lower, String.toList_ofList, String.toList_ofList, String.toList_append,
        Text.lowerChars, Text.lowerChars,
        Text.lowerAfter_append_digits fun _ hc => isDigit_of_mem_repr hc]

/-- Names with different numbers are compared as different. -/
theorem foldName_numbered_inj {caseSensitive : Bool} {base : String} {j k : ℕ}
    (h : foldName caseSensitive (NameSupply.numbered base j) =
      foldName caseSensitive (NameSupply.numbered base k)) : j = k := by
  have hlists := congrArg String.toList h
  rw [toList_foldName_numbered, toList_foldName_numbered] at hlists
  exact Nat.repr_inj.1 (String.toList_injective (List.append_cancel_left hlists))

theorem foldName_numbered_ne (caseSensitive : Bool) (base : String) (k : ℕ) :
    foldName caseSensitive (NameSupply.numbered base k) ≠ foldName caseSensitive base := by
  intro h
  have hlists := congrArg String.toList h
  rw [toList_foldName_numbered, List.append_right_eq_self] at hlists
  exact Nat.repr_ne_empty (String.toList_eq_nil_iff.1 hlists)

namespace NameSupply

variable {s : NameSupply}

/-! ### The search -/

theorem exists_not_isTaken_of_nodup {names : List String} (hnodup : (names.map s.fold).Nodup)
    (hcount : s.count < names.length) : ∃ name ∈ names, s.isTaken name = false := by
  by_contra hall
  simp only [not_exists, not_and, Bool.not_eq_false] at hall
  have hsub : names.map s.fold ⊆ s.taken := by
    intro folded hfolded
    obtain ⟨name, hname, rfl⟩ := List.mem_map.1 hfolded
    exact List.contains_iff_mem.1 (hall name hname)
  have hlength := (hnodup.subperm hsub).length_le
  rw [List.length_map] at hlength
  exact absurd hcount (Nat.not_lt.2 hlength)

theorem nodup_map_fold_numbered (s : NameSupply) (base : String) (n k : ℕ) :
    (((List.range n).map fun j => numbered base (k + j)).map s.fold).Nodup := by
  rw [List.map_map]
  refine List.Nodup.map_on ?_ List.nodup_range
  intro i _ j _ hij
  exact Nat.add_left_cancel (foldName_numbered_inj hij)

theorem exists_not_isTaken (s : NameSupply) (base : String) (k : ℕ) :
    ∃ j ≤ s.count, s.isTaken (numbered base (k + j)) = false := by
  obtain ⟨name, hname, hfree⟩ := exists_not_isTaken_of_nodup
    (s.nodup_map_fold_numbered base (s.count + 1) k) (by simp)
  obtain ⟨j, hj, rfl⟩ := List.mem_map.1 hname
  exact ⟨j, Nat.lt_succ_iff.1 (List.mem_range.1 hj), hfree⟩

theorem exists_free_of_isTaken {base : String} (h : s.isTaken base = true) :
    ∃ k, 1 ≤ k ∧ k ≤ s.count ∧ s.isTaken (numbered base k) = false := by
  -- the base itself is one of the taken names, so it leaves one number more
  have hnodup : ((base :: (List.range s.count).map fun j => numbered base (1 + j)).map
      s.fold).Nodup := by
    rw [List.map_cons, List.nodup_cons]
    refine ⟨fun hmem => ?_, s.nodup_map_fold_numbered base s.count 1⟩
    obtain ⟨name, hname, heq⟩ := List.mem_map.1 hmem
    obtain ⟨j, -, rfl⟩ := List.mem_map.1 hname
    exact foldName_numbered_ne s.caseSensitive base (1 + j) heq
  obtain ⟨name, hname, hfree⟩ := exists_not_isTaken_of_nodup hnodup (by simp)
  rcases List.mem_cons.1 hname with rfl | hname
  · rw [h] at hfree
    cases hfree
  · obtain ⟨j, hj, rfl⟩ := List.mem_map.1 hname
    exact ⟨1 + j, by omega, by rw [List.mem_range] at hj; omega, hfree⟩

/-- The search ends at the first number that is free, or after the last try. -/
theorem firstFree_eq (s : NameSupply) (base : String) (tries k : ℕ) :
    ∃ j ≤ tries, s.firstFree base tries k = numbered base (k + j) ∧
      (∀ i < j, s.isTaken (numbered base (k + i)) = true) ∧
      (j < tries → s.isTaken (numbered base (k + j)) = false) := by
  induction tries generalizing k with
  | zero => exact ⟨0, Nat.le_refl 0, rfl, by simp, by simp⟩
  | succ tries ih =>
      rw [firstFree]
      split
      · rename_i htaken
        obtain ⟨j, hj, heq, hbefore, hfree⟩ := ih (k + 1)
        have hshift : ∀ i, k + 1 + i = k + (i + 1) := by omega
        refine ⟨j + 1, by omega, by rw [heq, hshift], ?_, ?_⟩
        · intro i hi
          cases i with
          | zero => exact htaken
          | succ i => rw [← hshift]; exact hbefore i (by omega)
        · intro hlt
          rw [← hshift]
          exact hfree (by omega)
      · rename_i hfree
        exact ⟨0, by omega, rfl, by simp, fun _ => by simpa using hfree⟩

/-- **The search ends at the least free number** from where it starts. -/
theorem firstFree_spec (s : NameSupply) (base : String) (k : ℕ) :
    ∃ j, s.firstFree base s.count k = numbered base (k + j) ∧
      s.isTaken (numbered base (k + j)) = false ∧
      ∀ i < j, s.isTaken (numbered base (k + i)) = true := by
  obtain ⟨j, hj, heq, hbefore, hfree⟩ := s.firstFree_eq base s.count k
  refine ⟨j, heq, ?_, hbefore⟩
  rcases Nat.lt_or_eq_of_le hj with hlt | rfl
  · exact hfree hlt
  · -- after the last try: some number up to this one is free, and the ones before it are not
    obtain ⟨i, hi, hfree⟩ := s.exists_not_isTaken base k
    rcases Nat.lt_or_eq_of_le hi with hlt | rfl
    · rw [hbefore i hlt] at hfree
      cases hfree
    · exact hfree

/-- **A fresh name** is the base when that is free, and otherwise the base with the least number
from one on that is free.  There is one among the first numbers, as many as there are taken
names. -/
theorem fresh_spec (s : NameSupply) (base : String) :
    (s.isTaken base = false ∧ s.fresh base = base) ∨
      (s.isTaken base = true ∧ ∃ k, 1 ≤ k ∧ k ≤ s.count ∧ s.fresh base = numbered base k ∧
        s.isTaken (numbered base k) = false ∧
        ∀ j, 1 ≤ j → j < k → s.isTaken (numbered base j) = true) := by
  rw [fresh]
  split
  · rename_i htaken
    refine Or.inr ⟨htaken, ?_⟩
    obtain ⟨j, heq, hfree, hbefore⟩ := s.firstFree_spec base 1
    have hleast : ∀ i, 1 ≤ i → i < 1 + j → s.isTaken (numbered base i) = true := by
      intro i hi hij
      obtain ⟨i, rfl⟩ := Nat.exists_eq_add_of_le hi
      exact hbefore i (by omega)
    refine ⟨1 + j, by omega, ?_, heq, hfree, hleast⟩
    by_contra hcount
    obtain ⟨k, hk, hle, hk'⟩ := exists_free_of_isTaken htaken
    rw [hleast k hk (by omega)] at hk'
    cases hk'
  · rename_i hfree
    exact Or.inl ⟨by simpa using hfree, rfl⟩

/-- A fresh name is not taken. -/
theorem isTaken_fresh (s : NameSupply) (base : String) : s.isTaken (s.fresh base) = false := by
  rcases s.fresh_spec base with ⟨hfree, heq⟩ | ⟨-, k, -, -, heq, hfree, -⟩
  · rw [heq]
    exact hfree
  · rw [heq]
    exact hfree

/-- A fresh name is compared as different from every name that is taken. -/
theorem fold_ne_fold_fresh {name : String} (h : s.isTaken name = true) (base : String) :
    s.fold name ≠ s.fold (s.fresh base) := by
  intro heq
  have hfree := s.isTaken_fresh base
  rw [isTaken, ← heq] at hfree
  rw [isTaken, hfree] at h
  cases h

/-! ### Taking several names -/

@[simp] theorem caseSensitive_foldl_take (names : List String) :
    (names.foldl take s).caseSensitive = s.caseSensitive := by
  induction names generalizing s with
  | nil => rfl
  | cons name names ih => rw [List.foldl_cons, ih, caseSensitive_take]

/-- After taking some names, exactly they and the names taken before are taken. -/
theorem isTaken_foldl_take {names : List String} {other : String} :
    (names.foldl take s).isTaken other = true ↔
      (∃ name ∈ names, s.fold other = s.fold name) ∨ s.isTaken other = true := by
  induction names generalizing s with
  | nil => simp
  | cons name names ih =>
      have hfold : ∀ x, (s.take name).fold x = s.fold x := fun _ => rfl
      simp only [List.foldl_cons, ih, hfold, isTaken_take, List.mem_cons, exists_eq_or_imp]
      rw [or_left_comm, or_assoc]

@[simp] theorem caseSensitive_ofNames (caseSensitive : Bool) (names : List String) :
    (ofNames caseSensitive names).caseSensitive = caseSensitive :=
  caseSensitive_foldl_take names

/-- In the supply of a list of names, exactly these names are taken. -/
theorem isTaken_ofNames {caseSensitive : Bool} {names : List String} {other : String} :
    (ofNames caseSensitive names).isTaken other = true ↔
      ∃ name ∈ names, foldName caseSensitive other = foldName caseSensitive name := by
  rw [ofNames, isTaken_foldl_take]
  simp [isTaken, fold]

end NameSupply

end Ambit
