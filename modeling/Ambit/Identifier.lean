/-
Identifiers: which words are reserved, which texts are names, and how a name is spelled.

A name is a letter or underscore followed by letters, numerals and underscores, in any script.
A reserved word can be a name too, but then the text has to carry an `@` in front of it, so that it
is not read as the word.  Contextual words mean something only in certain places and are ordinary
names elsewhere.

Main definitions:

* `Ambit.Identifier.isReserved`, `Ambit.Identifier.isContextual`, `Ambit.Identifier.isPredefined` —
  the three families of words;
* `Ambit.Identifier.isStart`, `Ambit.Identifier.isPart` — the characters of a name;
* `Ambit.Identifier.isValid` — a text that is a name, with or without its `@`;
* `Ambit.Identifier.spelling` — **how a name is written**, with an `@` when it is reserved;
* `Ambit.Identifier.ofBase` — **a name made from any text**.

Main results:

* `Ambit.Identifier.isName_ofBase` — **what is made from any text is a name**;
* `Ambit.Identifier.head?_ne_of_isName` — a name does not begin with an `@`.
-/

import Ambit.Text.Letter
import Ambit.Text.Numeral

set_option relaxedAutoImplicit false
set_option autoImplicit false

namespace Ambit.Identifier

open Ambit.Text

/-! ### Words -/

def reservedWords : List String := [
    "abstract", "as", "base", "bool", "break", "byte", "case", "catch", "char", "checked",
    "class", "const", "continue", "decimal", "default", "delegate", "do", "double", "else",
    "enum", "event", "explicit", "extern", "false", "finally", "fixed", "float", "for", "foreach",
    "goto", "if", "implicit", "in", "int", "interface", "internal", "is", "lock", "long",
    "namespace", "new", "null", "object", "operator", "out", "override", "params", "private",
    "protected", "public", "readonly", "ref", "return", "sbyte", "sealed", "short", "sizeof",
    "stackalloc", "static", "string", "struct", "switch", "this", "throw", "true", "try",
    "typeof", "uint", "ulong", "unchecked", "unsafe", "ushort", "using", "virtual", "void",
    "volatile", "while"]

def contextualWords : List String := [
    "add", "and", "alias", "ascending", "async", "await", "by", "descending", "dynamic", "equals",
    "file", "from", "get", "global", "group", "init", "into", "join", "let", "managed", "nameof",
    "nint", "not", "notnull", "nuint", "on", "or", "orderby", "partial", "record", "remove",
    "required", "scoped", "select", "set", "unmanaged", "value", "var", "when", "where", "with",
    "yield"]

def predefinedTypes : List String := [
    "bool", "byte", "char", "decimal", "double", "float", "int", "long", "object", "sbyte",
    "short", "string", "uint", "ulong", "ushort", "void", "nint", "nuint", "dynamic"]

/-- Whether a word is reserved. -/
def isReserved (word : String) : Bool := reservedWords.contains word

/-- Whether a word is contextual. -/
def isContextual (word : String) : Bool := contextualWords.contains word

/-- Whether a word names a predefined type. -/
def isPredefined (word : String) : Bool := predefinedTypes.contains word

/-! ### Names -/

def isAlphanumeric (c : Char) : Bool := isLetter c || isNumeral c

/-- A character that may begin a name. -/
def isStart (c : Char) : Bool := c == '_' || isLetter c

/-- A character that may stand in a name. -/
def isPart (c : Char) : Bool := c == '_' || isAlphanumeric c

def dropMark : List Char → List Char
  | '@' :: cs => cs
  | cs => cs

/-- A list of characters that spells a name, without any `@`. -/
def isName : List Char → Bool
  | [] => false
  | c :: cs => isStart c && cs.all isPart

/-- Whether a text is a name, with or without its `@`.  Reserved words count, since the `@` makes
them usable. -/
def isValid (text : String) : Bool := isName (dropMark text.toList)

/-- **How a name is written**: a reserved word takes an `@`. -/
def spelling (name : String) : String := if isReserved name then "@" ++ name else name

/-- A name from the characters of any text: the ones that cannot stand in a name are dropped, an
underscore goes before a leading numeral, and nothing left at all becomes `v`. -/
def nameOfChars (cs : List Char) : List Char :=
  match (dropMark cs).filter isPart with
  | [] => ['v']
  | c :: rest => if isNumeral c then '_' :: c :: rest else c :: rest

/-- **A name made from any text.** -/
def ofBase (base : String) : String := String.ofList (nameOfChars base.toList)

/-! ### What is made from any text is a name -/

theorem isPart_of_isStart {c : Char} (h : isStart c = true) : isPart c = true := by
  simp only [isStart, isPart, isAlphanumeric, Bool.or_eq_true] at h ⊢
  rcases h with h | h
  · exact Or.inl h
  · exact Or.inr (Or.inl h)

theorem not_isPart_at : isPart '@' = false := by decide

theorem isName_cons {c : Char} {cs : List Char} :
    isName (c :: cs) = true ↔ isStart c = true ∧ ∀ d ∈ cs, isPart d = true := by
  rw [isName, Bool.and_eq_true, List.all_eq_true]

theorem isName_nameOfChars (cs : List Char) : isName (nameOfChars cs) = true := by
  rw [nameOfChars]
  split
  · decide
  · rename_i c rest h
    have hall : ∀ d ∈ c :: rest, isPart d = true := by
      intro d hd
      rw [← h] at hd
      exact (List.mem_filter.1 hd).2
    have hrest : ∀ d ∈ rest, isPart d = true := fun d hd => hall d (List.mem_cons_of_mem _ hd)
    split
    · exact isName_cons.2 ⟨by decide, hall⟩
    · rename_i hnum
      refine isName_cons.2 ⟨?_, hrest⟩
      have hc := hall c (by simp)
      simp only [isPart, isAlphanumeric, Bool.or_eq_true] at hc
      rw [isStart, Bool.or_eq_true]
      rcases hc with hc | hc | hc
      · exact Or.inl hc
      · exact Or.inr hc
      · exact absurd hc hnum

theorem isName_ofBase (base : String) : isName (ofBase base).toList = true := by
  rw [ofBase, String.toList_ofList]
  exact isName_nameOfChars base.toList

/-- A name does not begin with an `@`. -/
theorem head?_ne_of_isName {cs : List Char} (h : isName cs = true) : cs.head? ≠ some '@' := by
  cases cs with
  | nil => simp
  | cons c cs =>
      intro hhead
      cases hhead
      exact absurd (isPart_of_isStart (isName_cons.1 h).1) (by simp [not_isPart_at])

theorem dropMark_of_isName {cs : List Char} (h : isName cs = true) : dropMark cs = cs := by
  unfold dropMark
  split
  · exact absurd rfl (head?_ne_of_isName h)
  · rfl

theorem isValid_of_isName {name : String} (h : isName name.toList = true) :
    isValid name = true := by
  rw [isValid, dropMark_of_isName h]
  exact h

end Ambit.Identifier
