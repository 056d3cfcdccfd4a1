/-
Natural numbers in the binary floating-point format of 64 bits.

The format keeps the 53 leading binary digits of a number.  A number with more of them is rounded
to the nearest one that needs no more, and of two that are equally near to the one whose last kept
digit is zero.  The greatest number of the format is one unit below 2 to the 1024; what lies half a
unit above it or further rounds to infinity.

Main definitions:

* `Ambit.Binary64.unit` — the weight of the last digit that is kept;
* `Ambit.Binary64.round` — **the nearest number of the format**, with the exponent unbounded;
* `Ambit.Binary64.isFinite` — whether a number rounds to a finite one.

Main results:

* `Ambit.Binary64.round_of_lt` — a number of at most 53 binary digits is kept.
-/

set_option relaxedAutoImplicit false
set_option autoImplicit false

namespace Ambit.Binary64

/-- The weight of the last binary digit that is kept of a number. -/
def unit (n : Nat) : Nat := Nat.pow 2 (n.log2 + 1 - 53)

/-- Whether a number is rounded up: more than half a unit would be lost, or exactly half a unit and
the last kept digit is one. -/
def roundsUp (n : Nat) : Bool :=
  decide (unit n < 2 * (n % unit n)) || (unit n == 2 * (n % unit n) && n / unit n % 2 == 1)

/-- **The nearest number of the format**, ties going to the even last digit. -/
def round (n : Nat) : Nat :=
  (n / unit n + if roundsUp n then 1 else 0) * unit n

/-- The least number that rounds to infinity: half a unit above the greatest number of the format.
The tie goes up, because the greatest number ends in a one. -/
def limit : Nat := Nat.pow 2 1024 - Nat.pow 2 970

/-- Whether a number rounds to a finite one. -/
def isFinite (n : Nat) : Bool := decide (n < limit)

/-! ### Rounding -/

theorem unit_of_lt {n : Nat} (h : n < Nat.pow 2 53) : unit n = 1 := by
  rcases Nat.eq_zero_or_pos n with rfl | hn
  · simp [unit]
  · have : n.log2 < 53 := (Nat.log2_lt (by omega)).2 h
    simp [unit, show n.log2 + 1 - 53 = 0 by omega]

/-- A number of at most 53 binary digits is kept. -/
theorem round_of_lt {n : Nat} (h : n < Nat.pow 2 53) : round n = n := by
  simp [round, roundsUp, unit_of_lt h, Nat.mod_one]

end Ambit.Binary64
