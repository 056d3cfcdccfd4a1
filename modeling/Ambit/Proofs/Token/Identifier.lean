/-
Names are read as identifiers.

Which characters a name consists of is decided in one place, and where a token begins and ends in
another.  The two fit together: a name, with or without its mark, is read as one identifier when
nothing that could go on a name follows it.  No name begins like a gap, a literal or a comment, and
a mark in front of a name is not the beginning of a verbatim string.

Main results:

* `Ambit.Token.piece_name`, `Ambit.Token.piece_marked` — the token that begins with a name;
* `Ambit.tokensFrom_name`, `Ambit.tokensFrom_marked` — **a name in front of a text is one token**,
  with or without its mark;
* `Ambit.dropWhile_mark` — the name behind a mark;
* `Ambit.tokenize_spelling` — the spelling of a name is one identifier;
* `Ambit.Cursor.ofText_spelling` — **at the end of the spelling of a name the name is typed**.
-/

import Ambit.Cursor

set_option relaxedAutoImplicit false
set_option autoImplicit false

namespace Ambit

open Ambit.Text

/-! ### Characters of names -/

namespace Identifier

/-- The characters that begin gaps, comments, literals and marked names. -/
def openers : List Char := [' ', '\t', '\r', '\n', '/', '$', '@', '"', '\'']

theorem not_mem_openers_of_isStart {c : Char} (h : isStart c = true) : c ∉ openers := by
  have hall : openers.all (fun d => !isStart d) = true := by decide
  intro hc
  have hnot := List.all_eq_true.1 hall c hc
  rw [h] at hnot
  cases hnot

theorem isReserved_marked (name : String) : isReserved ("@" ++ name) = false := by
  have hall : ∀ word ∈ reservedWords, word.toList.head? ≠ some '@' := by decide
  rw [isReserved, Bool.eq_false_iff, ne_eq, List.contains_iff_mem]
  intro hmem
  refine hall _ hmem ?_
  rw [String.toList_append]
  rfl

/-- **The spelling of a name is not a reserved word.** -/
theorem isReserved_spelling (name : String) : isReserved (spelling name) = false := by
  rw [spelling]
  split
  · exact isReserved_marked name
  · rename_i h
    simpa using h

end Identifier

/-! ### The token that begins with a name -/

namespace Token

open Identifier

variable {c : Char} {cs rest : List Char}

theorem takeWhile_append {p : Char → Bool} (hcs : ∀ d ∈ cs, p d = true)
    (hrest : ∀ d ∈ rest.head?, p d = false) : (cs ++ rest).takeWhile p = cs := by
  have hnone : rest.takeWhile p = [] := by
    cases rest with
    | nil => rfl
    | cons d rest => rw [List.takeWhile_cons_of_neg (by simpa using hrest d rfl)]
  rw [List.takeWhile_append_of_pos hcs, hnone, List.append_nil]

theorem partsLength_append (hcs : ∀ d ∈ cs, isPart d = true)
    (hrest : ∀ d ∈ rest.head?, isPart d = false) : partsLength (cs ++ rest) = cs.length := by
  rw [partsLength, takeWhile_append hcs hrest]

theorem literalLength_of_not_mem (h : c ∉ openers) : literalLength c cs = none := by
  simp only [openers, List.mem_cons, not_or] at h
  obtain ⟨-, -, -, -, -, hdollar, hat, hquote, happ, -⟩ := h
  unfold literalLength
  split
  all_goals simp_all

theorem literalLength_marked (h : isStart c = true) : literalLength '@' (c :: cs) = none := by
  have hc := not_mem_openers_of_isStart h
  simp only [openers, List.mem_cons, not_or] at hc
  obtain ⟨-, -, -, -, -, hdollar, -, hquote, -, -⟩ := hc
  unfold literalLength
  split
  all_goals simp_all

theorem identifierLength_of_isStart (h : isStart c = true) :
    identifierLength c cs = some (partsLength cs) := by
  unfold identifierLength
  rw [if_pos h]

theorem identifierLength_marked (h : isStart c = true) :
    identifierLength '@' (c :: cs) = some (partsLength cs + 1) := by
  have hat : isStart '@' = false := by decide
  simp [identifierLength, hat, h]

/-- The token that begins with a name. -/
theorem piece_name (hname : isName (c :: cs) = true)
    (hrest : ∀ d ∈ rest.head?, isPart d = false) :
    piece c (cs ++ rest) = (.token .identifier, cs.length) := by
  obtain ⟨hc, hcs⟩ := isName_cons.1 hname
  have hopeners := not_mem_openers_of_isStart hc
  have hlexeme : lexeme c (cs ++ rest) = (.token .identifier, cs.length) := by
    rw [lexeme, literalLength_of_not_mem hopeners, identifierLength_of_isStart hc,
      partsLength_append hcs hrest]
  simp only [openers, List.mem_cons, not_or] at hopeners
  obtain ⟨hspace, htab, hreturn, hline, hslash, -⟩ := hopeners
  have hgap : isGapChar c = false := by simp [isGapChar, hspace, htab, hreturn, hline]
  rw [piece, hgap, if_neg (by simp), if_neg hslash, hlexeme]

/-- The token that begins with a marked name. -/
theorem piece_marked (hname : isName (c :: cs) = true)
    (hrest : ∀ d ∈ rest.head?, isPart d = false) :
    piece '@' (c :: cs ++ rest) = (.token .identifier, (c :: cs).length) := by
  obtain ⟨hc, hcs⟩ := isName_cons.1 hname
  rw [List.cons_append, piece, if_neg (by decide), if_neg (by decide), lexeme,
    literalLength_marked hc, identifierLength_marked hc, partsLength_append hcs hrest]
  rfl

end Token

/-! ### Names in a text -/

open Identifier

variable {name rest : List Char}

/-- The first token of a text, when the piece that begins it is one. -/
theorem tokensFrom_token (offset : Nat) {c : Char} {cs : List Char} {kind : TokenKind}
    (h : Token.piece c (cs ++ rest) = (.token kind, cs.length)) :
    tokensFrom offset (c :: cs ++ rest) =
      ⟨kind, String.ofList (c :: cs), offset, offset + byteLength (c :: cs)⟩ ::
        tokensFrom (offset + byteLength (c :: cs)) rest := by
  rw [List.cons_append, tokensFrom, h]
  dsimp only
  rw [List.take_left, List.drop_left]

/-- **A name in front of a text is one token**, unless the text goes on the name. -/
theorem tokensFrom_name (offset : Nat) (hname : isName name = true)
    (hrest : ∀ d ∈ rest.head?, isPart d = false) :
    tokensFrom offset (name ++ rest) =
      ⟨.identifier, String.ofList name, offset, offset + byteLength name⟩ ::
        tokensFrom (offset + byteLength name) rest := by
  cases name with
  | nil => cases hname
  | cons c cs => exact tokensFrom_token offset (Token.piece_name hname hrest)

/-- **A marked name in front of a text is one token**, unless the text goes on the name. -/
theorem tokensFrom_marked (offset : Nat) (hname : isName name = true)
    (hrest : ∀ d ∈ rest.head?, isPart d = false) :
    tokensFrom offset ('@' :: name ++ rest) =
      ⟨.identifier, String.ofList ('@' :: name), offset, offset + byteLength ('@' :: name)⟩ ::
        tokensFrom (offset + byteLength ('@' :: name)) rest := by
  cases name with
  | nil => cases hname
  | cons c cs => exact tokensFrom_token offset (Token.piece_marked hname hrest)

/-- A name in front of a text is one token, whether it is written with a mark or without. -/
theorem tokensFrom_written (offset : Nat) {text : List Char} (hname : isName name = true)
    (htext : text = name ∨ text = '@' :: name) (hrest : ∀ d ∈ rest.head?, isPart d = false) :
    tokensFrom offset (text ++ rest) =
      ⟨.identifier, String.ofList text, offset, offset + byteLength text⟩ ::
        tokensFrom (offset + byteLength text) rest := by
  rcases htext with rfl | rfl
  · exact tokensFrom_name offset hname hrest
  · exact tokensFrom_marked offset hname hrest

/-- The mark of a name is dropped, and nothing else is. -/
theorem dropWhile_mark {text : List Char} (hname : isName name = true)
    (htext : text = name ∨ text = '@' :: name) : text.dropWhile (· == '@') = name := by
  have hdrop : name.dropWhile (· == '@') = name := by
    have hhead := head?_ne_of_isName hname
    cases name with
    | nil => rfl
    | cons c cs =>
        exact List.dropWhile_cons_of_neg fun hat => hhead (congrArg some (beq_iff_eq.1 hat))
  rcases htext with rfl | rfl
  · exact hdrop
  · rw [List.dropWhile_cons_of_pos (by decide), hdrop]

/-! ### Spellings -/

variable {word : String}

theorem toList_spelling (word : String) :
    (spelling word).toList = word.toList ∨ (spelling word).toList = '@' :: word.toList := by
  rw [spelling]
  split
  · rw [String.toList_append]
    exact Or.inr rfl
  · exact Or.inl rfl

/-- **The spelling of a name is one identifier.** -/
theorem tokenize_spelling (h : isName word.toList = true) :
    tokenize (spelling word) =
      [⟨.identifier, spelling word, 0, byteLength (spelling word).toList⟩] := by
  have hend : ∀ c ∈ ([] : List Char).head?, isPart c = false := by simp
  have hone := tokensFrom_written 0 h (toList_spelling word) hend
  rwa [List.append_nil, tokensFrom, Nat.zero_add, String.ofList_toList] at hone

/-- **At the end of the spelling of a name the name is typed**, and nothing else is known there. -/
theorem Cursor.ofText_spelling (h : isName word.toList = true) :
    Cursor.ofText (spelling word) = { typed := word } := by
  rw [Cursor.ofText, tokenize_spelling h]
  simp [Cursor.nameOf, Cursor.afterTokens, Token.isIdentifier,
    dropWhile_mark h (toList_spelling word)]

end Ambit
