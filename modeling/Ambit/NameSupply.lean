/-
A supply of names that avoids the ones already taken.

A fresh name is the base itself when nobody has it, and otherwise the base followed by the least
number, from one on, that makes it free.  Names are compared either exactly or by their lower case.
At most as many numbers can be taken as there are taken names, so the search is bounded by their
count.

Main definitions:

* `Ambit.foldName` — the form in which a name is compared;
* `Ambit.NameSupply` — the taken names, in folded form;
* `Ambit.NameSupply.fresh` — **a name that is not taken**;
* `Ambit.NameSupply.draw` — a fresh name together with the supply in which it is taken.

Main results:

* `Ambit.NameSupply.isTaken_take` — after taking a name, exactly it and the names taken before are
  taken.
-/

import Ambit.Text.Casing

set_option relaxedAutoImplicit false
set_option autoImplicit false

namespace Ambit

/-- The form in which a name is compared: itself, or its lower case. -/
def foldName (caseSensitive : Bool) (name : String) : String :=
  if caseSensitive then name else Text.lower name

/-- The names that are taken, in folded form and each once. -/
structure NameSupply where
  caseSensitive : Bool
  taken : List String := []
deriving DecidableEq, Repr

namespace NameSupply

/-- The form in which this supply compares a name. -/
def fold (s : NameSupply) (name : String) : String := foldName s.caseSensitive name

/-- Whether a name is taken. -/
def isTaken (s : NameSupply) (name : String) : Bool := s.taken.contains (s.fold name)

/-- The supply in which one more name is taken. -/
def take (s : NameSupply) (name : String) : NameSupply :=
  { s with taken := s.taken.insert (s.fold name) }

def ofNames (caseSensitive : Bool) (names : List String) : NameSupply :=
  names.foldl take { caseSensitive }

/-- The number of taken names. -/
def count (s : NameSupply) : Nat := s.taken.length

/-- A base with a number after it. -/
def numbered (base : String) (k : Nat) : String := base ++ Nat.repr k

/-- The first free number from `k` on, tried at most `tries` times. -/
def firstFree (s : NameSupply) (base : String) : (tries k : Nat) → String
  | 0, k => numbered base k
  | tries + 1, k =>
      if s.isTaken (numbered base k) then s.firstFree base tries (k + 1) else numbered base k

/-- **A name that is not taken**: the base, or the base with the least free number from one on. -/
def fresh (s : NameSupply) (base : String) : String :=
  if s.isTaken base then s.firstFree base s.count 1 else base

/-- A fresh name, and the supply in which it is taken. -/
def draw (s : NameSupply) (base : String) : String × NameSupply :=
  let name := s.fresh base
  (name, s.take name)

/-! ### Taking names -/

@[simp] theorem caseSensitive_take (s : NameSupply) (name : String) :
    (s.take name).caseSensitive = s.caseSensitive := rfl

/-- After taking a name, exactly it and the names taken before are taken. -/
theorem isTaken_take (s : NameSupply) (name other : String) :
    (s.take name).isTaken other = true ↔ s.fold other = s.fold name ∨ s.isTaken other = true := by
  simp only [isTaken, take, fold, List.contains_iff_mem, List.mem_insert_iff]

end NameSupply

end Ambit
