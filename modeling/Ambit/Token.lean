/-
Tokens of a source text.

The text is read from left to right, one piece after another.  A piece is either a gap — a blank, a
line comment or a block comment — or a token.  Strings come in two forms, the regular one in which
a backslash protects the next character and which ends with its line, and the verbatim one in which
a doubled quote stands for a quote.  A literal without its closing quote is a token of its own kind,
and an unfinished block comment runs to the end of the text.  Every character that begins nothing
else is a token by itself, so no text is refused.

Main definitions:

* `Ambit.Token` — a token with its text and its byte range;
* `Ambit.Token.piece` — the piece that begins with a given character, and how far it goes on;
* `Ambit.tokenize` — **the tokens of a text**.
-/

import Ambit.Identifier
import Ambit.Text.Bytes

set_option relaxedAutoImplicit false
set_option autoImplicit false

namespace Ambit

open Ambit.Text

inductive TokenKind where
  /-- A name or a word. -/
  | identifier
  /-- A number, string or character. -/
  | literal
  /-- A string or character without its closing quote. -/
  | unterminated
  /-- An operator or a punctuation mark. -/
  | punct
deriving DecidableEq, Repr

/-- The name of a kind of tokens. -/
def TokenKind.name : TokenKind → String
  | .identifier => "identifier"
  | .literal => "literal"
  | .unterminated => "unterminated"
  | .punct => "punct"

/-- A token with its byte range. -/
structure Token where
  kind : TokenKind
  text : String
  start : Nat
  stop : Nat
deriving DecidableEq, Repr

namespace Token

def isIdentifier (t : Token) : Bool := t.kind == .identifier

/-! ### Gaps -/

/-- A blank between tokens: space, tab, carriage return or newline. -/
def isGapChar (c : Char) : Bool := c == ' ' || c == '\t' || c == '\r' || c == '\n'

def isLineEnd (c : Char) : Bool := c == '\r' || c == '\n'

/-- Whether a text is at an end of its line: at its very end, at a newline, or at a carriage return
with its newline. -/
def atLineEnd : List Char → Bool
  | [] => true
  | '\n' :: _ => true
  | '\r' :: '\n' :: _ => true
  | _ => false

/-- The number of characters up to the end of the line.  A lone carriage return is no end of a
line, and there is none behind it. -/
def toLineEnd (cs : List Char) : Option Nat :=
  let body := cs.takeWhile (!isLineEnd ·)
  if atLineEnd (cs.drop body.length) then some body.length else none

/-- The number of characters up to and with the end of a block comment, or to the end of the
text. -/
def toCommentEnd : List Char → Nat
  | [] => 0
  | c :: cs =>
      if c = '*' ∧ cs.head? = some '/' then 2 else toCommentEnd cs + 1

/-! ### Literals -/

/-- The length of the rest of a regular literal, with its closing quote, and whether it is
closed. -/
def regularRest (quote : Char) : List Char → Nat × Bool
  | [] => (0, false)
  | '\\' :: [] => (0, false)
  | '\\' :: _ :: cs => let (n, closed) := regularRest quote cs; (n + 2, closed)
  | c :: cs =>
      if c = quote then (1, true)
      else if c = '\n' then (0, false)
      else let (n, closed) := regularRest quote cs; (n + 1, closed)

/-- The length of the rest of a verbatim string, with its closing quote, and whether it is
closed. -/
def verbatimRest : List Char → Nat × Bool
  | [] => (0, false)
  | '"' :: '"' :: cs => let (n, closed) := verbatimRest cs; (n + 2, closed)
  | '"' :: _ => (1, true)
  | _ :: cs => let (n, closed) := verbatimRest cs; (n + 1, closed)

def literalKind (closed : Bool) : TokenKind := if closed then .literal else .unterminated

/-! ### Pieces -/

/-- A piece of text: a gap, or a token of some kind. -/
inductive Piece where
  | gap
  | token (kind : TokenKind)
deriving DecidableEq, Repr

/-- A literal whose rest begins after `n` further characters. -/
def literalPiece (n : Nat) (rest : Nat × Bool) : Piece × Nat :=
  (.token (literalKind rest.2), n + rest.1)

/-- A comment that begins with a slash. -/
def commentLength : List Char → Option Nat
  | '/' :: cs => (toLineEnd cs).map (· + 1)
  | '*' :: cs => some (toCommentEnd cs + 1)
  | _ => none

/-- A string or character literal: the piece, if one begins here. -/
def literalLength (c : Char) (cs : List Char) : Option (Piece × Nat) :=
  match c, cs with
  | '$', '@' :: '"' :: rest => some (literalPiece 2 (verbatimRest rest))
  | '@', '$' :: '"' :: rest => some (literalPiece 2 (verbatimRest rest))
  | '@', '"' :: rest => some (literalPiece 1 (verbatimRest rest))
  | '$', '"' :: rest => some (literalPiece 1 (regularRest '"' rest))
  | '"', rest => some (literalPiece 0 (regularRest '"' rest))
  | '\'', rest => some (literalPiece 0 (regularRest '\'' rest))
  | _, _ => none

def partsLength (cs : List Char) : Nat := (cs.takeWhile Identifier.isPart).length

/-- The number of characters after the first of an identifier, if one begins here. -/
def identifierLength (c : Char) (cs : List Char) : Option Nat :=
  if Identifier.isStart c then some (partsLength cs)
  else if c = '@' then
    match cs with
    | d :: rest => if Identifier.isStart d then some (partsLength rest + 1) else none
    | [] => none
  else none

def isNumberPart (c : Char) : Bool := c.isAlphanum || c == '_'

/-- The number of characters after the first of an operator. -/
def operatorLength (c : Char) (cs : List Char) : Nat :=
  match c, cs with
  | '?', '.' :: _ => 1
  | '?', '?' :: '=' :: _ => 2
  | '?', '?' :: _ => 1
  | '=', '>' :: _ => 1
  | '=', '=' :: _ => 1
  | '!', '=' :: _ => 1
  | '<', '=' :: _ => 1
  | '>', '=' :: _ => 1
  | '&', '&' :: _ => 1
  | '|', '|' :: _ => 1
  | ':', ':' :: _ => 1
  | '+', '+' :: _ => 1
  | '-', '-' :: _ => 1
  | _, _ => 0

/-- The token that begins with `c`, and the number of its further characters. -/
def lexeme (c : Char) (cs : List Char) : Piece × Nat :=
  match literalLength c cs with
  | some piece => piece
  | none =>
      match identifierLength c cs with
      | some n => (.token .identifier, n)
      | none =>
          if c.isDigit then (.token .literal, (cs.takeWhile isNumberPart).length)
          else (.token .punct, operatorLength c cs)

/-- **The piece** that begins with `c`, and the number of its further characters. -/
def piece (c : Char) (cs : List Char) : Piece × Nat :=
  if isGapChar c then (.gap, 0)
  else if c = '/' then
    match commentLength cs with
    | some n => (.gap, n)
    | none => lexeme c cs
  else lexeme c cs

end Token

/-- The tokens of a text that begins at byte `offset`. -/
def tokensFrom (offset : Nat) : List Char → List Token
  | [] => []
  | c :: cs =>
      let step := Token.piece c cs
      let taken := c :: cs.take step.2
      let stop := offset + byteLength taken
      let later := tokensFrom stop (cs.drop step.2)
      match step.1 with
      | .gap => later
      | .token kind => ⟨kind, String.ofList taken, offset, stop⟩ :: later
termination_by cs => cs.length
decreasing_by simp only [List.length_drop, List.length_cons]; omega

/-- **The tokens of a text.** -/
def tokenize (text : String) : List Token := tokensFrom 0 text.toList

end Ambit
