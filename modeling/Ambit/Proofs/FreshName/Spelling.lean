/-
Fresh names can be written into a program.

A fresh name starts from any text.  First a name is made of it, then perhaps a number goes behind
the name, and last a reserved word gets its mark.  None of the steps knows how a text is read.
Whatever the text was, what comes out is a name whose spelling is one identifier, and a cursor
behind that spelling finds the name again.

Main results:

* `Ambit.Identifier.isName_append` — a name can be gone on;
* `Ambit.NameSupply.isName_fresh` — a fresh name for a name is a name;
* `Ambit.NameSupply.mintAll_spells` — what is minted is a name with its spelling;
* `Ambit.Store.freshLocals_spell_identifiers` — **fresh names are spelled as identifiers**.
-/

import Ambit.FreshName
import Ambit.Proofs.Answer
import Ambit.Proofs.NameSupply
import Ambit.Proofs.Token.Identifier

set_option relaxedAutoImplicit false
set_option autoImplicit false

namespace Ambit

/-! ### Names that are gone on -/

namespace Identifier

theorem isPart_of_isDigit {c : Char} (h : c.isDigit = true) : isPart c = true := by
  have hall : ∀ n < 58, 48 ≤ n → isPart (Char.ofNat n) = true := by decide
  obtain ⟨lo, hi⟩ := Char.isDigit_iff_toNat.1 h
  have hc := hall c.toNat (Nat.lt_succ_of_le hi) lo
  rwa [Char.ofNat_toNat] at hc

/-- A name can be gone on by characters that may stand in it. -/
theorem isName_append {name more : List Char} (hname : isName name = true)
    (hmore : ∀ c ∈ more, isPart c = true) : isName (name ++ more) = true := by
  cases name with
  | nil => cases hname
  | cons c cs =>
      obtain ⟨hc, hcs⟩ := isName_cons.1 hname
      exact isName_cons.2 ⟨hc, List.forall_mem_append.2 ⟨hcs, hmore⟩⟩

end Identifier

/-! ### Names that are minted -/

namespace NameSupply

open Identifier

/-- A fresh name for a name is a name. -/
theorem isName_fresh (s : NameSupply) {base : String} (h : isName base.toList = true) :
    isName (s.fresh base).toList = true := by
  rcases s.fresh_spec base with ⟨-, heq⟩ | ⟨-, k, -, -, heq, -, -⟩
  · rw [heq]
    exact h
  · rw [heq, numbered, String.toList_append]
    exact isName_append h fun c hc => isPart_of_isDigit (isDigit_of_mem_repr hc)

/-- **What is minted is a name with its spelling**, for each base one. -/
theorem mintAll_spells (s : NameSupply) (bases : List String) :
    (s.mintAll bases).length = bases.length ∧
      ∀ fresh ∈ s.mintAll bases, isName fresh.name.toList = true ∧
        fresh.text = spelling fresh.name := by
  induction bases generalizing s with
  | nil => exact ⟨rfl, fun fresh h => absurd h List.not_mem_nil⟩
  | cons base bases ih =>
      obtain ⟨hlength, hspells⟩ := ih (s.mint base).2
      refine ⟨congrArg (· + 1) hlength, fun fresh h => ?_⟩
      rcases List.mem_cons.1 h with rfl | h
      · exact ⟨s.isName_fresh (isName_ofBase base), rfl⟩
      · exact hspells fresh h

end NameSupply

namespace Store

open Ambit.Text

/-- **Fresh names are spelled as identifiers.**  Whatever the bases are, there is one fresh name for
each.  It is a valid name without a mark; its text is no reserved word and is read as one identifier
from its beginning to its end; and at the end of its text the name is typed. -/
theorem freshLocals_spell_identifiers {s : Store} {signal : Signal} {options : Options}
    {position : UInt64} {bases : List String} {names : List FreshName}
    (h : s.freshLocals signal options position bases = .ok names) :
    names.length = bases.length ∧ ∀ fresh ∈ names,
      Identifier.isValid fresh.name = true ∧ fresh.name.toList.head? ≠ some '@' ∧
      Identifier.isReserved fresh.text = false ∧
      tokenize fresh.text = [⟨.identifier, fresh.text, 0, byteLength fresh.text.toList⟩] ∧
      (Cursor.ofText fresh.text).typed = fresh.name := by
  obtain ⟨supply, -, h⟩ := Answer.bind_eq_ok.1 h
  obtain ⟨-, -, h⟩ := Answer.bind_eq_ok.1 h
  cases h
  obtain ⟨hlength, hspells⟩ := supply.mintAll_spells bases
  refine ⟨hlength, fun fresh hfresh => ?_⟩
  obtain ⟨hname, htext⟩ := hspells fresh hfresh
  rw [htext]
  refine ⟨Identifier.isValid_of_isName hname, Identifier.head?_ne_of_isName hname,
    Identifier.isReserved_spelling fresh.name, tokenize_spelling hname, ?_⟩
  rw [Cursor.ofText_spelling hname]

/-- A method with a parameter that has a reserved word for its name. -/
def wordy : Store :=
  empty.insertScope { id := ⟨0⟩, kind := .method, span := ⟨0, 40⟩ }
    |>.insertSymbol { id := ⟨0⟩, kind := .parameter, name := "class", scope := ⟨0⟩ }

/-- From nothing, from marks alone, from a text that begins with a digit, from a word that is taken
and from one that is not, names are made; the last one is written with a mark and read back. -/
theorem freshLocals_spell_identifiers_wordy :
    wordy.freshLocals .quiet {} 10 ["", "@@", "2nd é", "@class", "is"] =
        .ok [⟨"v", "v"⟩, ⟨"v1", "v1"⟩, ⟨"_2ndé", "_2ndé"⟩, ⟨"class1", "class1"⟩, ⟨"is", "@is"⟩] ∧
      Identifier.isValid "is" = true ∧ "is".toList.head? ≠ some '@' ∧
      Identifier.isReserved "@is" = false ∧ tokenize "@is" = [⟨.identifier, "@is", 0, 3⟩] ∧
      (Cursor.ofText "@is").typed = "is" := by
  have h : wordy.freshLocals .quiet {} 10 ["", "@@", "2nd é", "@class", "is"] =
      .ok [⟨"v", "v"⟩, ⟨"v1", "v1"⟩, ⟨"_2ndé", "_2ndé"⟩, ⟨"class1", "class1"⟩, ⟨"is", "@is"⟩] := rfl
  exact ⟨h, (freshLocals_spell_identifiers h).2 ⟨"is", "@is"⟩ (by simp)⟩

end Store

end Ambit
