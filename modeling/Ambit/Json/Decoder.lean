/-
Reading what JSON values stand for.

A decoder is given the number of arrays and objects that may still be entered, and a value.  Records
are written as objects with named members or as arrays with the members in their order; members of
other names are passed over, or refused by a strict reader, and none may come twice.  Members of a
finite kind are written as words.

Main definitions:

* `Ambit.Json.Decoder` — the type;
* `Ambit.Json.Decoder.record` — **records**;
* `Ambit.Json.Decoder.word`, `Ambit.Json.Decoder.list`, … — the other shapes.
-/

import Ambit.Json
import Ambit.Spelled

set_option relaxedAutoImplicit false
set_option autoImplicit false

namespace Ambit.Json

/-- Reads a value when a number of arrays and objects may still be entered. -/
abbrev Decoder (α : Type) := Nat → Json → Option α

abbrev Fields := List (String × Json)

namespace Decoder

variable {α β : Type}

/-! ### Plain values -/

def bool : Decoder Bool
  | _, .bool b => some b
  | _, _ => none

def string : Decoder String
  | _, .string text => text
  | _, _ => none

/-- A natural number below a bound. -/
def below (bound : Nat) : Decoder Nat
  | _, .number n => n.natural?.filter (· < bound)
  | _, _ => none

def uint32 : Decoder UInt32 := fun depth v => (below UInt32.size depth v).map Nat.toUInt32

def uint64 : Decoder UInt64 := fun depth v => (below UInt64.size depth v).map Nat.toUInt64

/-- A member of a finite kind: its word, alone or as the only key of an object. -/
def word [Spelled α] : Decoder α
  | _, .string (some w) => Spelled.read? w
  | _ + 1, .object [(some w, .null)] => Spelled.read? w
  | _, _ => none

/-! ### Compound values -/

def nullable (d : Decoder α) : Decoder (Option α)
  | _, .null => some none
  | depth, v => (d depth v).map some

/-- A list. -/
def list (d : Decoder α) : Decoder (List α)
  | depth + 1, .array items => items.mapM (d depth)
  | _, _ => none

def pair (d : Decoder α) (e : Decoder β) : Decoder (α × β)
  | depth + 1, .array [a, b] => do return (← d depth a, ← e depth b)
  | _, _ => none

/-! ### Records -/

/-- The members of an object, if every key spells a text. -/
def named (members : List (Option String × Json)) : Option Fields :=
  members.mapM fun (key, v) => key.map (·, v)

/-- The known members of a record.  A known member may not come twice, and a strict reader refuses
the others. -/
def known (names : List String) (strict : Bool) (fields : Fields) : Option Fields :=
  let found := fields.filter fun (name, _) => names.contains name
  if (strict && found.length < fields.length) || !decide (found.map Prod.fst).Nodup then none
  else some found

/-- The known members of a record that is written as an object or as an array. -/
def fields (names : List String) (strict : Bool) : Json → Option Fields
  | .array items => if items.length ≤ names.length then some (names.zip items) else none
  | .object members => (named members).bind (known names strict)
  | _ => none

/-- **A record** with members of the given names. -/
def record (names : List String) (strict : Bool) (build : Nat → Fields → Option α) : Decoder α
  | 0, _ => none
  | depth + 1, v => (fields names strict v).bind (build depth)

end Decoder

namespace Fields

variable {α : Type}

def need (fields : Fields) (depth : Nat) (name : String) (d : Decoder α) : Option α :=
  (fields.lookup name).bind (d depth)

/-- A member that may be missing, and what it then is. -/
def get (fields : Fields) (depth : Nat) (name : String) (d : Decoder α) (missing : α) : Option α :=
  match fields.lookup name with
  | some v => d depth v
  | none => some missing

end Fields

end Ambit.Json
