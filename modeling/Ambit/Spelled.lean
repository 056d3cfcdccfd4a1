/-
Finite kinds whose members are written as words.

Kinds of symbols, scopes and types are written out by fixed words.  A kind lists its members and
spells each of them, no two alike, so that a word can be read back.

Main definitions:

* `Ambit.Spelled` — a kind with a word for each of its members;
* `Ambit.Spelled.read?` — **the member that a word spells**.

Main results:

* `Ambit.Spelled.read?_eq_some_iff` — a word is read as a member exactly when it is its word.
-/

set_option relaxedAutoImplicit false
set_option autoImplicit false

namespace Ambit

/-- A finite kind with a word for each of its members. -/
class Spelled (α : Type) where
  /-- The members of the kind. -/
  members : List α
  /-- The word of a member. -/
  spell : α → String
  /-- The first member with the word of a member is that member. -/
  find_spell : ∀ a, (members.find? fun b => spell b == spell a) = some a

namespace Spelled

variable {α : Type} [Spelled α]

/-- **The member that a word spells.** -/
def read? (word : String) : Option α := (members : List α).find? fun a => spell a == word

/-- A word is read as a member exactly when it is its word. -/
theorem read?_eq_some_iff {word : String} {a : α} : read? word = some a ↔ word = spell a := by
  constructor
  · intro h
    have := List.find?_some h
    simp only [beq_iff_eq] at this
    exact this.symm
  · rintro rfl
    exact find_spell a

end Spelled

end Ambit
