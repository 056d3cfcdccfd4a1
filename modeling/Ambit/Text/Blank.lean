/-
Blanks: the characters with the Unicode property White_Space, and the words between them.

Main definitions:

* `Ambit.Text.isBlank` — the White_Space property;
* `Ambit.Text.trimStart`, `Ambit.Text.trimEnd` — a text without the blanks at one end;
* `Ambit.Text.words` — **the words** of a text: its longest stretches without blanks;
* `Ambit.Text.pieces` — the parts of a text between the occurrences of one character.
-/

import Ambit.Text.Ranges

set_option relaxedAutoImplicit false
set_option autoImplicit false

namespace Ambit.Text

/-- The code point ranges of the White_Space property, in increasing order. -/
def blankRanges : List (Nat × Nat) := [
    (0x9, 0xD), (0x20, 0x20), (0x85, 0x85), (0xA0, 0xA0), (0x1680, 0x1680), (0x2000, 0x200A),
    (0x2028, 0x2029), (0x202F, 0x202F), (0x205F, 0x205F), (0x3000, 0x3000)]

/-- Whether a character is a blank. -/
def isBlank (c : Char) : Bool := covered c.toNat blankRanges

/-- A text without its leading blanks. -/
def trimStart (cs : List Char) : List Char := cs.dropWhile isBlank

/-- A text without its trailing blanks. -/
def trimEnd (cs : List Char) : List Char := (cs.reverse.dropWhile isBlank).reverse

/-- A text without the blanks at its two ends. -/
def trim (cs : List Char) : List Char := trimEnd (trimStart cs)

/-- The words of a text, where `current` is the word that the text continues, last character
first. -/
def wordsFrom (current : List Char) : List Char → List (List Char)
  | [] => if current = [] then [] else [current.reverse]
  | c :: cs =>
      if isBlank c then
        if current = [] then wordsFrom [] cs else current.reverse :: wordsFrom [] cs
      else wordsFrom (c :: current) cs

/-- **The words** of a text: its longest stretches without blanks. -/
def words (cs : List Char) : List (List Char) := wordsFrom [] cs

/-- The parts of a text between the occurrences of `sep`; there is one more part than
occurrences. -/
def pieces (sep : Char) : List Char → List (List Char)
  | [] => [[]]
  | c :: cs =>
      if c = sep then [] :: pieces sep cs
      else
        match pieces sep cs with
        | [] => [[c]]
        | p :: ps => (c :: p) :: ps

end Ambit.Text
