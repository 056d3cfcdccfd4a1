/-
Occurrences of one text in another.

The search reads the text from left to right and looks at the occurrences of the needle it meets.
Each one may be accepted or refused by its two neighbours, the character right before it and the
one right after it.  After a refused occurrence the search goes on behind it, so a later occurrence
that overlaps a refused one is passed over.  The empty needle occurs between any two characters and
at both ends.

Main definitions:

* `Ambit.Text.searchFrom`, `Ambit.Text.search` — **the search** for the first accepted occurrence;
* `Ambit.Text.find` — the first occurrence whatever its neighbours.
-/

import Ambit.Text.Bytes

set_option relaxedAutoImplicit false
set_option autoImplicit false

namespace Ambit.Text

/-- The search in a text that begins at byte `offset` and is preceded by `previous`; the next
`skip` characters still belong to a refused occurrence.  `accepts` judges an occurrence by its two
neighbours. -/
def searchFrom (needle : List Char) (accepts : Option Char → Option Char → Bool)
    (skip offset : Nat) (previous : Option Char) : List Char → Option Nat
  | [] => if skip = 0 ∧ needle = [] ∧ accepts previous none then some offset else none
  | c :: cs =>
      if skip = 0 ∧ needle.isPrefixOf (c :: cs) then
        if accepts previous ((c :: cs).drop needle.length).head? then some offset
        else searchFrom needle accepts (needle.length - 1) (offset + c.utf8Size) (some c) cs
      else searchFrom needle accepts (skip - 1) (offset + c.utf8Size) (some c) cs

/-- **The search** for the byte offset of the first occurrence of `needle` that is accepted. -/
def search (needle text : List Char) (accepts : Option Char → Option Char → Bool) : Option Nat :=
  searchFrom needle accepts 0 0 none text

/-- The byte offset of the first occurrence of `needle`. -/
def find (needle text : List Char) : Option Nat := search needle text fun _ _ => true

end Ambit.Text
