/-
JSON values.

A value is read from a text and written to one.  The tree keeps what a reader of the text can tell:
the members of an object in their order and with repetitions, the digits of a number, and that the
escapes of a text spell no characters — a text or key that does not is `none`.

Main definitions:

* `Ambit.Json.Number` — a number as it is written;
* `Ambit.Json.Number.natural?`, `Ambit.Json.Number.isFinite` — whether it is a plain natural number,
  and whether it lies in the range of floating-point numbers of 64 bits;
* `Ambit.Json` — **the values**;
* `Ambit.Json.isReadable` — whether a value can be read as a whole.
-/

import Ambit.Binary64

set_option relaxedAutoImplicit false
set_option autoImplicit false

namespace Ambit

namespace Json

/-! ### Numbers -/

/-- A number as it is written. -/
structure Number where
  negative : Bool := false
  /-- The digits before the point. -/
  whole : List Char
  /-- The digits after the point; none without a point. -/
  fraction : List Char := []
  /-- The exponent with its mark and sign; none without a mark. -/
  exponent : List Char := []
deriving DecidableEq, Repr

namespace Number

/-- The text of a number. -/
def chars (n : Number) : List Char :=
  (if n.negative then ['-'] else []) ++ n.whole ++
    (if n.fraction = [] then [] else '.' :: n.fraction) ++ n.exponent

def ofNat (n : Nat) : Number := { whole := Nat.toDigits 10 n }

/-- The natural number that is written with digits only. -/
def natural? (n : Number) : Option Nat :=
  if n.negative = false ∧ n.fraction = [] ∧ n.exponent = [] then
    some (Nat.ofDigitChars 10 n.whole 0)
  else none

def exponentValue : List Char → Int
  | _ :: '-' :: digits => - Int.ofNat (Nat.ofDigitChars 10 digits 0)
  | _ :: '+' :: digits => Nat.ofDigitChars 10 digits 0
  | _ :: digits => Nat.ofDigitChars 10 digits 0
  | [] => 0

/-- A significand of 64 bits, continued by as many of the digits as it can hold, and the digits that
are left. -/
def gather (significand : Nat) : List Char → Nat × List Char
  | [] => (significand, [])
  | d :: ds =>
      let longer := 10 * significand + (d.toNat - '0'.toNat)
      if longer < UInt64.size then gather longer ds else (significand, d :: ds)

/-- The significand of a number, and the power of ten that scales it.  The digits before the point
are gathered first.  Those that are left count as zeros, and the digits after the point then follow
what was gathered. -/
def scaled (n : Number) : Nat × Int :=
  let (significand, wholeLeft) := gather 0 n.whole
  let (significand, fractionLeft) := gather significand n.fraction
  let moved : Int := fractionLeft.length - n.fraction.length
  (significand, wholeLeft.length + moved + exponentValue n.exponent)

/-- The greatest power of ten that a floating-point number of 64 bits can hold. -/
def maxPower : Nat := 308

/-- Whether a number lies in the range of floating-point numbers of 64 bits.  The significand and
the power of ten are rounded to that format before they are multiplied, so near the end of the range
it is their rounded values that decide. -/
def isFinite (n : Number) : Bool :=
  let (significand, power) := n.scaled
  significand == 0 || decide (power < 0) || (decide (power ≤ maxPower) &&
    Binary64.isFinite (Binary64.round significand * Binary64.round (Nat.pow 10 power.toNat)))

@[simp] theorem natural?_ofNat (n : Nat) : (ofNat n).natural? = some n := by
  simp [ofNat, natural?, Nat.ofDigitChars_ten_toDigits]

end Number

end Json

/-! ### Values -/

/-- A JSON value. -/
inductive Json where
  | null
  | bool (b : Bool)
  | number (n : Json.Number)
  | string (text : Option String)
  | array (items : List Json)
  | object (members : List (Option String × Json))
deriving Repr

namespace Json

instance : Inhabited Json := ⟨null⟩

def ofNat (n : Nat) : Json := .number (.ofNat n)

def ofString (text : String) : Json := .string (some text)

def ofList {α : Type} (write : α → Json) (xs : List α) : Json := .array (xs.map write)

def ofMembers (members : List (String × Json)) : Json :=
  .object (members.map fun (key, v) => (some key, v))

/-- Whether a value can be read as a whole: it has at most the given number of nested arrays and
objects, its texts and keys spell characters, and its numbers are in range. -/
def isReadable : Nat → Json → Bool
  | _, .null => true
  | _, .bool _ => true
  | _, .number n => n.isFinite
  | _, .string text => text.isSome
  | 0, .array _ => false
  | 0, .object _ => false
  | depth + 1, .array items => items.all (isReadable depth)
  | depth + 1, .object members =>
      members.all fun (key, v) => key.isSome && isReadable depth v

end Json

end Ambit
