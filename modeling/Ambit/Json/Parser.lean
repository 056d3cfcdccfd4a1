/-
Reading JSON values.

The lexemes of a text are taken one by one.  Between two of them the reader stands at a place: it
waits for a value, for a key, for a colon, or it has just finished a value.  The arrays and objects
that are open around the place form a stack, so that values may be nested to any depth.

Main definitions:

* `Ambit.Json.Place`, `Ambit.Json.Frame` — the places, and the open arrays and objects;
* `Ambit.Json.step` — what a lexeme does;
* `Ambit.Json.parse` — **the value of a text**.
-/

import Ambit.Json.Lexeme

set_option relaxedAutoImplicit false
set_option autoImplicit false

namespace Ambit.Json

/-- An open array or object around the place of the reader, with what is finished of it, the last
first. -/
inductive Frame where
  | array (done : List Json)
  /-- An object in which the value of a key is being read. -/
  | member (done : List (Option String × Json)) (key : Option String)

/-- Where the reader stands between two lexemes. -/
inductive Place where
  /-- A value comes next. -/
  | value
  /-- After an opening bracket. -/
  | opened
  /-- After a value. -/
  | after (v : Json)
  /-- After an opening brace. -/
  | firstKey
  /-- After a comma in an object. -/
  | key (done : List (Option String × Json))
  /-- After a key. -/
  | colon (done : List (Option String × Json)) (key : Option String)

/-- A place, and the open arrays and objects around it, the innermost first. -/
abbrev State := Place × List Frame

/-- What a lexeme does where a value comes next. -/
def stepValue (frames : List Frame) : Lexeme → Option State
  | .null => some (.after .null, frames)
  | .bool b => some (.after (.bool b), frames)
  | .number n => some (.after (.number n), frames)
  | .string text => some (.after (.string text), frames)
  | .openBracket => some (.opened, frames)
  | .openBrace => some (.firstKey, frames)
  | _ => none

/-- What a lexeme does after a value. -/
def stepAfter (v : Json) : List Frame → Lexeme → Option State
  | .array done :: frames, .comma => some (.value, .array (v :: done) :: frames)
  | .array done :: frames, .closeBracket => some (.after (.array (v :: done).reverse), frames)
  | .member done key :: frames, .comma => some (.key ((key, v) :: done), frames)
  | .member done key :: frames, .closeBrace =>
      some (.after (.object ((key, v) :: done).reverse), frames)
  | _, _ => none

/-- **What a lexeme does.** -/
def step : State → Lexeme → Option State
  | (.value, frames), lexeme => stepValue frames lexeme
  | (.opened, frames), .closeBracket => some (.after (.array []), frames)
  | (.opened, frames), lexeme => stepValue (.array [] :: frames) lexeme
  | (.after v, frames), lexeme => stepAfter v frames lexeme
  | (.firstKey, frames), .closeBrace => some (.after (.object []), frames)
  | (.firstKey, frames), .string key => some (.colon [] key, frames)
  | (.key done, frames), .string key => some (.colon done key, frames)
  | (.colon done key, frames), .colon => some (.value, .member done key :: frames)
  | _, _ => none

def ofLexemes (ls : List Lexeme) : Option Json :=
  match ls.foldlM step (.value, []) with
  | some (.after v, []) => some v
  | _ => none

/-- **The value of a text.** -/
def parse (text : String) : Option Json := (lexemes text.toList).bind ofLexemes

end Ambit.Json
