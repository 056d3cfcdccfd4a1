/-
Sets of code points, listed as ranges.

A property of characters is written down as the increasing list of the code point ranges that have
it.  Membership walks the list and stops at the first range that begins past the character, so a
character early in the code space is settled after a few comparisons.

Main definitions:

* `Ambit.Text.covered` — membership of a code point in an increasing list of ranges.

Main results:

* `Ambit.Text.covered_of_mem` — a point of a listed range is covered when the ranges increase;
* `Ambit.Text.exists_range_of_covered` — a covered point lies in a listed range.
-/

set_option relaxedAutoImplicit false
set_option autoImplicit false

namespace Ambit.Text

/-- Whether the code point `n` lies in one of the ranges, which are listed in increasing order. -/
def covered (n : Nat) : List (Nat × Nat) → Bool
  | [] => false
  | (lo, hi) :: rest => if n < lo then false else decide (n ≤ hi) || covered n rest

/-- A covered point lies in a listed range. -/
theorem exists_range_of_covered {n : Nat} :
    ∀ {rs : List (Nat × Nat)}, covered n rs = true → ∃ r ∈ rs, r.1 ≤ n ∧ n ≤ r.2
  | (lo, hi) :: rest, h => by
      rw [covered] at h
      split at h
      · simp at h
      · rw [Bool.or_eq_true, decide_eq_true_eq] at h
        rcases h with h | h
        · exact ⟨(lo, hi), by simp, by simp; omega, h⟩
        · obtain ⟨r, hr, hn⟩ := exists_range_of_covered h
          exact ⟨r, by simp [hr], hn⟩

/-- A point of a listed range is covered, provided the ranges begin in increasing order. -/
theorem covered_of_mem {n : Nat} :
    ∀ {rs : List (Nat × Nat)} {r : Nat × Nat}, rs.Pairwise (fun a b => a.1 ≤ b.1) → r ∈ rs →
      r.1 ≤ n → n ≤ r.2 → covered n rs = true
  | (lo, hi) :: rest, r, hrs, hr, hlo, hhi => by
      rw [List.pairwise_cons] at hrs
      rw [covered]
      rcases List.mem_cons.1 hr with rfl | hr
      · rw [if_neg (by omega)]
        simp [hhi]
      · have : lo ≤ r.1 := hrs.1 r hr
        rw [if_neg (by omega), covered_of_mem hrs.2 hr hlo hhi, Bool.or_true]

end Ambit.Text
