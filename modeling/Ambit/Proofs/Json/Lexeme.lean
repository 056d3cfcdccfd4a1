/-
Written lexemes are read back.

A string is written character by character, some of them escaped, and a natural number by its
digits.  Cutting a text that begins with what was written gives the lexeme, and leaves the text
behind it.  For a number the text behind must not go on with it; in what is written a value is
followed by a comma, a new line or nothing.

Main definitions:

* `Ambit.Json.Spells` — a text is cut off as a lexeme;
* `Ambit.Json.Delimited` — a text that does not continue a value.

Main results:

* `Ambit.Json.stringRest_flatMap_escape` — a string is read back;
* `Ambit.Json.number?_toDigits` — a natural number is read back;
* `Ambit.Json.spells_quote`, `Ambit.Json.spells_ofNat` — **strings and natural numbers are cut off
  as their lexemes**;
* `Ambit.Json.lexemes_append` — cutting off a lexeme.
-/

import Ambit.Json.Lexeme
import Ambit.Json.Printer
import Mathlib.Tactic.IntervalCases

set_option relaxedAutoImplicit false
set_option autoImplicit false

namespace Ambit.Json

/-! ### Strings -/

theorem hexValue?_digitChar {n : ℕ} (h : n < 16) : hexValue? (Nat.digitChar n) = some n := by
  interval_cases n <;> rfl

theorem stringRest_char {c : Char} (hquote : c ≠ '"') (hslash : c ≠ '\\')
    (hcontrol : ¬ c.toNat < 32) (cs : List Char) :
    stringRest (c :: cs) = (stringRest cs).map fun p => (.char c :: p.1, p.2 + 1) := by
  rw [stringRest]
  · simp only [hcontrol, hslash, or_self, if_false]
    cases stringRest cs <;> rfl
  · exact hquote
  · intros
    contradiction
  · intros
    contradiction

theorem stringRest_escaped {e c : Char} (h : escaped? e = some c) (cs : List Char) :
    stringRest ('\\' :: e :: cs) = (stringRest cs).map fun p => (.char c :: p.1, p.2 + 2) := by
  have hne : e ≠ 'u' := by
    rintro rfl
    cases h
  rw [stringRest]
  · simp only [h]
    cases stringRest cs <;> rfl
  · intros
    contradiction

/-- An escape of a control character is read as its unit. -/
theorem stringRest_unit {n : ℕ} (h : n < 32) (cs : List Char) :
    stringRest
        ('\\' :: 'u' :: '0' :: '0' :: Nat.digitChar (n / 16) :: Nat.digitChar (n % 16) :: cs) =
      (stringRest cs).map fun p => (.unit n :: p.1, p.2 + 6) := by
  have hzero : hexValue? '0' = some 0 := rfl
  have hhigh := hexValue?_digitChar (n := n / 16) (by omega)
  have hlow := hexValue?_digitChar (n := n % 16) (by omega)
  have hunit :
      unit? '0' '0' (Nat.digitChar (n / 16)) (Nat.digitChar (n % 16)) = some (.unit n) := by
    have hn : n / 16 * 16 + n % 16 = n := by omega
    simp [unit?, hzero, hhigh, hlow, hn]
  rw [stringRest, hunit]
  cases stringRest cs <;> rfl

theorem joinUnits_unit {n : ℕ} (h : n < 0xD800) (us : List StringUnit) :
    joinUnits (.unit n :: us) = (joinUnits us).map (Char.ofNat n :: ·) := by
  cases us with
  | nil => simp [joinUnits, h]
  | cons u us => cases u <;> simp [joinUnits, h]

/-- What is written for a character is read as one part, which spells the character. -/
theorem stringRest_escape (c : Char) (cs : List Char) :
    ∃ u, stringRest (escape c ++ cs) =
        (stringRest cs).map (fun p => (u :: p.1, p.2 + (escape c).length)) ∧
      ∀ us, joinUnits (u :: us) = (joinUnits us).map (c :: ·) := by
  unfold escape
  split
  case h_8 hquote hslash _ _ _ _ _ =>
    split
    · rename_i hcontrol
      refine ⟨.unit c.toNat, stringRest_unit hcontrol cs, fun us => ?_⟩
      rw [joinUnits_unit (by omega), Char.ofNat_toNat]
    · rename_i hcontrol
      exact ⟨.char c, stringRest_char hquote hslash hcontrol cs, fun us => rfl⟩
  all_goals exact ⟨.char _, stringRest_escaped rfl cs, fun us => rfl⟩

/-- **A string is read back**, up to and with its closing quote. -/
theorem stringRest_flatMap_escape (text rest : List Char) :
    ∃ us, stringRest (text.flatMap escape ++ '"' :: rest) =
        some (us, (text.flatMap escape).length + 1) ∧
      joinUnits us = some text := by
  induction text with
  | nil => exact ⟨[], by rw [List.flatMap_nil, List.nil_append, stringRest]; rfl, rfl⟩
  | cons c text ih =>
      obtain ⟨us, hread, hjoin⟩ := ih
      obtain ⟨u, hu, hspell⟩ := stringRest_escape c (text.flatMap escape ++ '"' :: rest)
      refine ⟨u :: us, ?_, ?_⟩
      · rw [List.flatMap_cons, List.append_assoc, hu, hread, List.length_append]
        simp only [Option.map_some, Option.some.injEq, Prod.mk.injEq, true_and]
        omega
      · rw [hspell, hjoin]
        rfl

/-! ### Numbers -/

/-- A text that does not continue a value: it is empty, or begins with a comma or a new line. -/
def Delimited (rest : List Char) : Prop := ∀ c ∈ rest.head?, c = ',' ∨ c = '\n'

theorem delimited_nil : Delimited [] := by
  intro c hc
  cases hc

theorem delimited_comma (rest : List Char) : Delimited (',' :: rest) := by
  intro c hc
  cases hc
  exact Or.inl rfl

theorem delimited_newLine (depth : ℕ) (rest : List Char) : Delimited (newLine depth ++ rest) := by
  intro c hc
  cases hc
  exact Or.inr rfl

theorem head?_toDigits {n : ℕ} (h : 0 < n) : (Nat.toDigits 10 n).head? ≠ some '0' := by
  induction n using Nat.strongRecOn with
  | ind n ih =>
      by_cases hn : n < 10
      · interval_cases n <;> decide
      · rw [Nat.toDigits_of_base_le (by omega) (by omega), List.head?_append]
        have hrest := ih (n / 10) (by omega) (by omega)
        cases hhead : (Nat.toDigits 10 (n / 10)).head? with
        | none => exact absurd (List.head?_eq_none_iff.1 hhead) Nat.toDigits_ne_nil
        | some c =>
            rw [hhead] at hrest
            exact hrest

theorem digits_append {ds rest : List Char} (hds : ∀ c ∈ ds, c.isDigit = true)
    (hrest : Delimited rest) : digits (ds ++ rest) = ds := by
  have hnone : rest.takeWhile Char.isDigit = [] := by
    cases rest with
    | nil => rfl
    | cons c rest =>
        rcases hrest c rfl with rfl | rfl <;> rfl
  rw [digits, List.takeWhile_append_of_pos hds, hnone, List.append_nil]

/-- **A natural number is read back.** -/
theorem number?_toDigits (n : ℕ) {rest : List Char} (hrest : Delimited rest) :
    number? (Nat.toDigits 10 n ++ rest) = some (.ofNat n) := by
  have hdigit : ∀ c ∈ Nat.toDigits 10 n, c.isDigit = true :=
    fun c hc => Nat.isDigit_of_mem_toDigits (by omega) (by omega) hc
  have hne : Nat.toDigits 10 n ≠ [] := Nat.toDigits_ne_nil
  have hhead? : (Nat.toDigits 10 n ++ rest).head? = (Nat.toDigits 10 n).head? := by
    cases hds : Nat.toDigits 10 n with
    | nil => exact absurd hds hne
    | cons d ds => rfl
  have hsign : (Nat.toDigits 10 n ++ rest).head? ≠ some '-' := by
    intro hhead
    rw [hhead?] at hhead
    exact absurd (hdigit '-' (List.mem_of_head? hhead)) (by decide)
  have hwhole : wholeDigits (Nat.toDigits 10 n ++ rest) = Nat.toDigits 10 n := by
    rcases Nat.eq_zero_or_pos n with rfl | hn
    · rfl
    · have hzero : (Nat.toDigits 10 n ++ rest).head? ≠ some '0' := by
        rw [hhead?]
        exact head?_toDigits hn
      rw [wholeDigits]
      · exact digits_append hdigit hrest
      · intro cs hcs
        rw [hcs] at hzero
        exact hzero rfl
  have hfraction : fraction? rest = some [] := by
    cases rest with
    | nil => rfl
    | cons c rest => rcases hrest c rfl with rfl | rfl <;> rfl
  have hexponent : exponent? rest = some [] := by
    cases rest with
    | nil => rfl
    | cons c rest => rcases hrest c rfl with rfl | rfl <;> rfl
  simp only [number?, hsign, decide_false, if_false, hwhole, hne, List.drop_left, hfraction]
  simp [hexponent, Number.ofNat]

/-! ### Lexemes -/

/-- A text is cut off as a lexeme from the text behind it. -/
def Spells (text : List Char) (lexeme : Lexeme) (rest : List Char) : Prop :=
  ∃ c cs, text = c :: cs ∧ isBlank c = false ∧ lexeme? c (cs ++ rest) = some (lexeme, cs.length)

/-- **Cutting off a lexeme.** -/
theorem lexemes_append {text rest : List Char} {lexeme : Lexeme} (h : Spells text lexeme rest) :
    lexemes (text ++ rest) = (lexemes rest).map (lexeme :: ·) := by
  obtain ⟨c, cs, rfl, hblank, hlexeme⟩ := h
  rw [List.cons_append, lexemes, hblank, hlexeme]
  simp

theorem lexemes_blank {c : Char} (h : isBlank c = true) (cs : List Char) :
    lexemes (c :: cs) = lexemes cs := by
  rw [lexemes, if_pos h]

theorem lexemes_newLine (depth : ℕ) (cs : List Char) :
    lexemes (newLine depth ++ cs) = lexemes cs := by
  have hblanks : ∀ n, lexemes (List.replicate n ' ' ++ cs) = lexemes cs := by
    intro n
    induction n with
    | zero => rfl
    | succ n ih => rw [List.replicate_succ, List.cons_append, lexemes_blank rfl, ih]
  rw [newLine, List.cons_append, lexemes_blank rfl, hblanks]

theorem spells_mark {c : Char} {lexeme : Lexeme} (h : mark? c = some lexeme) (rest : List Char) :
    Spells [c] lexeme rest := by
  unfold mark? at h
  split at h <;> cases h <;> exact ⟨_, [], rfl, rfl, rfl⟩

theorem spells_null (rest : List Char) : Spells ['n', 'u', 'l', 'l'] .null rest :=
  ⟨'n', ['u', 'l', 'l'], rfl, rfl, rfl⟩

theorem spells_true (rest : List Char) : Spells ['t', 'r', 'u', 'e'] (.bool true) rest :=
  ⟨'t', ['r', 'u', 'e'], rfl, rfl, rfl⟩

theorem spells_false (rest : List Char) : Spells ['f', 'a', 'l', 's', 'e'] (.bool false) rest :=
  ⟨'f', ['a', 'l', 's', 'e'], rfl, rfl, rfl⟩

/-- A string that can be read up to its closing quote is cut off as a lexeme. -/
theorem spells_of_stringRest (body : List Char) {rest : List Char} {us : List StringUnit}
    (h : stringRest (body ++ rest) = some (us, body.length)) :
    Spells ('"' :: body) (.string ((joinUnits us).map String.ofList)) rest := by
  refine ⟨'"', body, rfl, rfl, ?_⟩
  rw [lexeme?, h]
  rfl

/-- **A string is cut off as its lexeme.** -/
theorem spells_quote (text : Option String) (rest : List Char) :
    Spells (quote text) (.string text) rest := by
  cases text with
  | none =>
      have hread : stringRest ('\\' :: 'u' :: 'd' :: '8' :: '0' :: '0' :: '"' :: rest) =
          some ([.unit 0xD800], 7) := by
        rw [stringRest, stringRest]
        rfl
      exact spells_of_stringRest ['\\', 'u', 'd', '8', '0', '0', '"'] hread
  | some text =>
      obtain ⟨us, hread, hjoin⟩ := stringRest_flatMap_escape text.toList rest
      have hbody : stringRest (text.toList.flatMap escape ++ ['"'] ++ rest) =
          some (us, (text.toList.flatMap escape ++ ['"']).length) := by
        rw [List.append_assoc, List.length_append]
        exact hread
      have hspells := spells_of_stringRest _ hbody
      rw [hjoin, Option.map_some, String.ofList_toList] at hspells
      exact hspells

theorem lexeme?_digit {d : Char} (h : d.isDigit = true) (cs : List Char) :
    lexeme? d cs = (number? (d :: cs)).map fun n => (.number n, n.chars.length - 1) := by
  have hmark : mark? d = none := by
    rw [mark?] <;> rintro rfl <;> cases h
  rw [lexeme?, hmark]
  all_goals
    intros
    subst_vars
    cases h

/-- **A natural number is cut off as its lexeme.** -/
theorem spells_ofNat (n : ℕ) {rest : List Char} (hrest : Delimited rest) :
    Spells (Number.ofNat n).chars (.number (.ofNat n)) rest := by
  have hchars : (Number.ofNat n).chars = Nat.toDigits 10 n := by simp [Number.chars, Number.ofNat]
  have hread := number?_toDigits n hrest
  cases hds : Nat.toDigits 10 n with
  | nil => exact absurd hds Nat.toDigits_ne_nil
  | cons d ds =>
      have hdigit : d.isDigit = true :=
        Nat.isDigit_of_mem_toDigits (n := n) (b := 10) (by omega) (by omega) (by simp [hds])
      have hblank : isBlank d = false := by
        simp only [isBlank, Bool.or_eq_false_iff, beq_eq_false_iff_ne]
        refine ⟨⟨⟨?_, ?_⟩, ?_⟩, ?_⟩ <;> rintro rfl <;> cases hdigit
      rw [hds] at hchars hread
      refine ⟨d, ds, hchars, hblank, ?_⟩
      rw [lexeme?_digit hdigit, ← List.cons_append, hread, Option.map_some, hchars]
      rfl

end Ambit.Json
