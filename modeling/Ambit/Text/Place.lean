/-
Places: lines and columns of a text, counted from one.

A place names a byte of a text the way an editor shows it: the line it stands on and its column,
both counted from one, a column being one byte wide.  A line ends with its newline byte.  Offsets
past the end of the text stand for its end; a column past the end of its line stands for the end of
the line, and a line past the last one for the end of the text.

Main definitions:

* `Ambit.Text.Place` — a line and a column;
* `Ambit.Text.placeAt` — **the place of an offset**;
* `Ambit.Text.offsetAt` — **the offset of a place**.
-/

set_option relaxedAutoImplicit false
set_option autoImplicit false

namespace Ambit.Text

/-- A line and a column, counted from one. -/
structure Place where
  line : Nat
  column : Nat
deriving DecidableEq, Repr

/-- The byte that ends a line. -/
def newline : UInt8 := 10

def bytes (s : String) : List UInt8 := s.toUTF8.data.toList

def Place.advance (p : Place) (b : UInt8) : Place :=
  if b = newline then ⟨p.line + 1, 1⟩ else ⟨p.line, p.column + 1⟩

/-- **The place of an offset**: where the bytes before it lead from the first line and column. -/
def placeAt (text : List UInt8) (offset : Nat) : Place :=
  (text.take offset).foldl Place.advance ⟨1, 1⟩

/-- The offset at which a line begins, lines counted from zero. -/
def lineStart : Nat → List UInt8 → Option Nat
  | 0, _ => some 0
  | _ + 1, [] => none
  | n + 1, b :: bs =>
      if b = newline then (lineStart n bs).map (· + 1) else (lineStart (n + 1) bs).map (· + 1)

def lineLength (text : List UInt8) : Nat := (text.takeWhile (· ≠ newline)).length

/-- **The offset of a place.**  A line or column zero counts as one. -/
def offsetAt (text : List UInt8) (p : Place) : Nat :=
  match lineStart (p.line - 1) text with
  | none => text.length
  | some start => min (start + (p.column - 1)) (start + lineLength (text.drop start))

end Ambit.Text
