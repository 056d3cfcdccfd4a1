/-
The lexemes of a JSON text.

A text is cut into marks, words, numbers and strings; blanks between them are dropped.  A string is
first read into characters and escaped units of 16 bits, and then joined to a text: a pair of
surrogate units spells one character, and a surrogate without its partner spells none.

Main definitions:

* `Ambit.Json.Lexeme` — the lexemes;
* `Ambit.Json.stringRest`, `Ambit.Json.joinUnits` — strings;
* `Ambit.Json.number?` — the number that a text begins with;
* `Ambit.Json.lexemes` — **the lexemes of a text**, if it has only such.
-/

import Ambit.Json

set_option relaxedAutoImplicit false
set_option autoImplicit false

namespace Ambit.Json

/-- The pieces of a JSON text. -/
inductive Lexeme where
  | openBracket
  | closeBracket
  | openBrace
  | closeBrace
  | comma
  | colon
  | null
  | bool (b : Bool)
  | number (n : Number)
  | string (text : Option String)
deriving DecidableEq, Repr

/-! ### Strings -/

/-- A part of a string: a character, or an escaped unit of 16 bits. -/
inductive StringUnit where
  | char (c : Char)
  | unit (code : Nat)
deriving DecidableEq, Repr

def hexValue? (c : Char) : Option Nat :=
  if c.isDigit then some (c.toNat - '0'.toNat)
  else if 'a' ≤ c ∧ c ≤ 'f' then some (c.toNat - 'a'.toNat + 10)
  else if 'A' ≤ c ∧ c ≤ 'F' then some (c.toNat - 'A'.toNat + 10)
  else none

def unit? (a b c d : Char) : Option StringUnit := do
  return .unit (((← hexValue? a) * 16 + (← hexValue? b)) * 256 + (← hexValue? c) * 16 +
    (← hexValue? d))

/-- The character that an escape of two characters stands for. -/
def escaped? : Char → Option Char
  | '"' => some '"'
  | '\\' => some '\\'
  | '/' => some '/'
  | 'b' => some '\x08'
  | 'f' => some '\x0c'
  | 'n' => some '\n'
  | 'r' => some '\r'
  | 't' => some '\t'
  | _ => none

/-- The parts of a string after its opening quote, and the number of characters up to and with its
closing quote. -/
def stringRest : List Char → Option (List StringUnit × Nat)
  | [] => none
  | '"' :: _ => some ([], 1)
  | '\\' :: 'u' :: a :: b :: c :: d :: cs => do
      let u ← unit? a b c d
      let (us, n) ← stringRest cs
      return (u :: us, n + 6)
  | '\\' :: e :: cs => do
      let c ← escaped? e
      let (us, n) ← stringRest cs
      return (.char c :: us, n + 2)
  | c :: cs =>
      if c.toNat < 32 ∨ c = '\\' then none
      else do
        let (us, n) ← stringRest cs
        return (.char c :: us, n + 1)

/-- The characters that the parts of a string spell. -/
def joinUnits : List StringUnit → Option (List Char)
  | [] => some []
  | .char c :: us => (joinUnits us).map (c :: ·)
  | .unit n :: us =>
      if n < 0xD800 ∨ 0xE000 ≤ n then (joinUnits us).map (Char.ofNat n :: ·)
      else
        match us with
        | .unit m :: rest =>
            if n < 0xDC00 ∧ 0xDC00 ≤ m ∧ m < 0xE000 then
              (joinUnits rest).map (Char.ofNat (0x10000 + (n - 0xD800) * 1024 + (m - 0xDC00)) :: ·)
            else none
        | _ => none

/-! ### Numbers -/

def digits (cs : List Char) : List Char := cs.takeWhile Char.isDigit

/-- The digits before the point: a zero stands alone. -/
def wholeDigits : List Char → List Char
  | '0' :: _ => ['0']
  | cs => digits cs

def fraction? : List Char → Option (List Char)
  | '.' :: cs => if digits cs = [] then none else some (digits cs)
  | _ => some []

def sign : List Char → List Char
  | '+' :: _ => ['+']
  | '-' :: _ => ['-']
  | _ => []

def exponent? : List Char → Option (List Char)
  | c :: cs =>
      if c = 'e' ∨ c = 'E' then
        let ds := digits (cs.drop (sign cs).length)
        if ds = [] then none else some (c :: (sign cs ++ ds))
      else some []
  | [] => some []

/-- The number that a text begins with. -/
def number? (cs : List Char) : Option Number :=
  let negative := cs.head? = some '-'
  let cs := if negative then cs.drop 1 else cs
  let whole := wholeDigits cs
  if whole = [] then none
  else do
    let cs := cs.drop whole.length
    let fraction ← fraction? cs
    let cs := if fraction = [] then cs else cs.drop (fraction.length + 1)
    let exponent ← exponent? cs
    return { negative, whole, fraction, exponent }

/-! ### The whole text -/

def isBlank (c : Char) : Bool := c == ' ' || c == '\t' || c == '\n' || c == '\r'

def mark? : Char → Option Lexeme
  | '[' => some .openBracket
  | ']' => some .closeBracket
  | '\x7b' => some .openBrace
  | '\x7d' => some .closeBrace
  | ',' => some .comma
  | ':' => some .colon
  | _ => none

/-- The lexeme that begins with `c`, and the number of its further characters. -/
def lexeme? (c : Char) (cs : List Char) : Option (Lexeme × Nat) :=
  match c, cs with
  | 'n', 'u' :: 'l' :: 'l' :: _ => some (.null, 3)
  | 't', 'r' :: 'u' :: 'e' :: _ => some (.bool true, 3)
  | 'f', 'a' :: 'l' :: 's' :: 'e' :: _ => some (.bool false, 4)
  | '"', cs => (stringRest cs).map fun (us, n) => (.string ((joinUnits us).map String.ofList), n)
  | c, cs =>
      match mark? c with
      | some lexeme => some (lexeme, 0)
      | none => (number? (c :: cs)).map fun n => (.number n, n.chars.length - 1)

/-- **The lexemes of a text.** -/
def lexemes : List Char → Option (List Lexeme)
  | [] => some []
  | c :: cs =>
      if isBlank c then lexemes cs
      else
        match lexeme? c cs with
        | none => none
        | some (lexeme, n) => (lexemes (cs.drop n)).map (lexeme :: ·)
termination_by cs => cs.length
decreasing_by
  all_goals simp only [List.length_drop, List.length_cons]; omega

end Ambit.Json
