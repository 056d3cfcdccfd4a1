/-
Regions of a text: bodies, parameter lists and statements.

A body runs from an opening brace to the brace that closes it, and a function from its parameter
list to the end of its body or to a semicolon.  What is not closed runs to the end of the text, one
byte past the last.

Main definitions:

* `Ambit.Sketch.closing?` — the mark that closes the one a text begins with;
* `Ambit.Sketch.bodySpan` — **the body after an offset**;
* `Ambit.Sketch.functionEnd` — where a function ends;
* `Ambit.Sketch.firstStatement?` — where the statements of a text begin.
-/

import Ambit.Text.Blank
import Ambit.Text.Occurrence
import Ambit.Text.Span

set_option relaxedAutoImplicit false
set_option autoImplicit false

namespace Ambit.Sketch

open Ambit.Text

/-- The byte offset of the mark that closes the one opened `depth` levels before, in a text that
begins at `offset`. -/
def closingFrom (opening closing : Char) : Nat → Nat → List Char → Option Nat
  | _, _, [] => none
  | depth, offset, c :: cs =>
      if c = opening then closingFrom opening closing (depth + 1) (offset + c.utf8Size) cs
      else if c = closing then
        if depth ≤ 1 then some offset
        else closingFrom opening closing (depth - 1) (offset + c.utf8Size) cs
      else closingFrom opening closing depth (offset + c.utf8Size) cs

/-- The byte offset of the mark that closes the one at `start`. -/
def closing? (opening closing : Char) (text : List Char) (start : Nat) : Option Nat :=
  closingFrom opening closing 0 start (dropBytes start text)

/-- The offset past the end of a text. -/
def past (text : List Char) : Nat := byteLength text + 1

/-- The offset past the brace that closes the one at `start`. -/
def bodyEnd (text : List Char) (start : Nat) : Nat :=
  match closing? '\x7b' '\x7d' text start with
  | some stop => stop + 1
  | none => past text

/-- **The body after an offset**: from the next brace to the one that closes it.  Without a brace
it is all that follows. -/
def bodySpan (text : List Char) (start : Nat) : Span :=
  match find ['\x7b'] (dropBytes start text) with
  | none => .between start (past text)
  | some n => .between (start + n) (bodyEnd text (start + n))

/-- The end of a function after its parameters: a semicolon, or the end of its body. -/
def afterParameters (text : List Char) : Nat → List Char → Nat
  | _, [] => past text
  | offset, c :: cs =>
      if c = ';' then offset + 1
      else if c = '\x7b' then bodyEnd text offset
      else afterParameters text (offset + c.utf8Size) cs

/-- Where a function ends whose parameter list opens at an offset. -/
def functionEnd (text : List Char) (start : Nat) : Nat :=
  match closing? '(' ')' text start with
  | none => past text
  | some stop => afterParameters text stop (dropBytes stop text)

/-- What follows the first semicolon of a text. -/
def afterSemicolon (cs : List Char) : List Char := (cs.dropWhile (· != ';')).drop 1

theorem length_afterSemicolon_lt {cs : List Char} (h : cs ≠ []) :
    (afterSemicolon cs).length < cs.length := by
  have hle : (cs.dropWhile (· != ';')).length ≤ cs.length :=
    (List.dropWhile_sublist _).length_le
  have hpos : 0 < cs.length := List.length_pos_iff.2 h
  rw [afterSemicolon, List.length_drop]
  omega

theorem length_trimStart_le (cs : List Char) : (trimStart cs).length ≤ cs.length :=
  (List.dropWhile_sublist _).length_le

/-- Where the first statement of a text begins that is no import, when the text begins at an
offset. -/
def statementFrom (offset : Nat) (text : List Char) : Option Nat :=
  if h : trimStart text = [] then none
  else if "using ".toList.isPrefixOf (trimStart text) then
    have : (afterSemicolon (trimStart text)).length < text.length :=
      Nat.lt_of_lt_of_le (length_afterSemicolon_lt h) (length_trimStart_le text)
    statementFrom (offset + (byteLength text - byteLength (afterSemicolon (trimStart text))))
      (afterSemicolon (trimStart text))
  else some (offset + (byteLength text - byteLength (trimStart text)))
termination_by text.length

/-- Where the statements of a text begin, after the imports. -/
def firstStatement? (text : List Char) : Option Nat := statementFrom 0 text

end Ambit.Sketch
