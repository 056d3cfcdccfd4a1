/-
Writing JSON values.

A value is written with an indentation of two blanks for each array or object around it, one item
or member on each line; empty arrays and objects are written on one line.  In strings only quotes,
backslashes and control characters are escaped.

Main definitions:

* `Ambit.Json.quote` — a string in quotes;
* `Ambit.Json.render` — **the text of a value**.
-/

import Ambit.Json

set_option relaxedAutoImplicit false
set_option autoImplicit false

namespace Ambit.Json

/-- A character inside a string. -/
def escape (c : Char) : List Char :=
  match c with
  | '"' => ['\\', '"']
  | '\\' => ['\\', '\\']
  | '\x08' => ['\\', 'b']
  | '\x0c' => ['\\', 'f']
  | '\n' => ['\\', 'n']
  | '\r' => ['\\', 'r']
  | '\t' => ['\\', 't']
  | c =>
      if c.toNat < 32 then
        ['\\', 'u', '0', '0', Nat.digitChar (c.toNat / 16), Nat.digitChar (c.toNat % 16)]
      else [c]

/-- A string in quotes.  One that spells no text is written as a lone surrogate. -/
def quote : Option String → List Char
  | some text => '"' :: (text.toList.flatMap escape ++ ['"'])
  | none => ['"', '\\', 'u', 'd', '8', '0', '0', '"']

def newLine (depth : Nat) : List Char := '\n' :: List.replicate (2 * depth) ' '

/-- Items or members between two marks, one on each line. -/
def enclose (opening closing : Char) (depth : Nat) : List (List Char) → List Char
  | [] => [opening, closing]
  | first :: rest =>
      opening :: (newLine (depth + 1) ++ first ++
        (rest.flatMap fun part => ',' :: (newLine (depth + 1) ++ part)) ++ newLine depth ++
        [closing])

mutual
/-- The text of a value inside a number of arrays and objects. -/
def chars (depth : Nat) : Json → List Char
  | .null => ['n', 'u', 'l', 'l']
  | .bool true => ['t', 'r', 'u', 'e']
  | .bool false => ['f', 'a', 'l', 's', 'e']
  | .number n => n.chars
  | .string text => quote text
  | .array items => enclose '[' ']' depth (itemChars (depth + 1) items)
  | .object members => enclose '\x7b' '\x7d' depth (memberChars (depth + 1) members)
def itemChars (depth : Nat) : List Json → List (List Char)
  | [] => []
  | v :: vs => chars depth v :: itemChars depth vs
def memberChars (depth : Nat) : List (Option String × Json) → List (List Char)
  | [] => []
  | (key, v) :: ms => (quote key ++ ':' :: ' ' :: chars depth v) :: memberChars depth ms
end

/-- **The text of a value.** -/
def render (v : Json) : String := String.ofList (chars 0 v)

end Ambit.Json
