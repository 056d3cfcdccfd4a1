/-
Headers of declarations.

A header is the text of a declaration up to its parameters or its body: modifiers, a kind or a
type, a name, and a list of type parameters in angle brackets.  What stands before the name is read
word by word; words that say nothing about access and are no modifiers are passed over.

Main definitions:

* `Ambit.Sketch.Header` — the parts of a header;
* `Ambit.Sketch.Header.ofChars` — **the parts of a header's text**.
-/

import Ambit.Symbol
import Ambit.Text.Blank
import Ambit.Text.Bytes

set_option relaxedAutoImplicit false
set_option autoImplicit false

namespace Ambit.Sketch

open Ambit.Text

/-- The parts of a header. -/
structure Header where
  name : String
  /-- The byte offset of the name. -/
  nameOffset : Nat
  /-- The access that the header states. -/
  access : Option Accessibility := none
  modifiers : List Modifier := []
  typeParams : List String := []
  isRefLike : Bool := false
deriving DecidableEq, Repr

namespace Header

/-- The access that words state: the first word about access decides, together with the next. -/
def accessIn : List String → Option Accessibility
  | [] => none
  | "public" :: _ => some .everywhere
  | "private" :: "protected" :: _ => some .assemblyAndDerived
  | "private" :: _ => some .container
  | "protected" :: "internal" :: _ => some .assemblyOrDerived
  | "protected" :: _ => some .derived
  | "internal" :: _ => some .assembly
  | _ :: rest => accessIn rest

def modifierOf? (word : String) : Option Modifier :=
  if word = "[Obsolete]" then some .obsolete
  else (Spelled.read? word).filter fun m => m != .obsolete && m != .extension

/-- The text before the list of type parameters, and that list without its brackets. -/
def splitTypeParams (head : List Char) : List Char × List Char :=
  match head.reverse with
  | '>' :: before =>
      match before.span (· != '<') with
      | (inside, '<' :: rest) => (rest.reverse, inside.reverse)
      | _ => (head, [])
  | _ => (head, [])

def typeParamNames (inside : List Char) : List String :=
  (((pieces ',' inside).map trim).filter (· != [])).map String.ofList

/-- **The parts of a header's text.** -/
def ofChars (cs : List Char) : Header :=
  let head := trimEnd (cs.takeWhile (· != '('))
  let (base, inside) := splitTypeParams head
  let name := (words base).getLastD []
  let nameOffset := byteLength base - byteLength name
  let before := (words (takeBytes nameOffset base)).map String.ofList
  { name := String.ofList name
    nameOffset
    access := accessIn before
    modifiers := before.filterMap modifierOf?
    typeParams := typeParamNames inside
    isRefLike := before.contains "ref" }

def nameSpan (h : Header) (start : Nat) : Span :=
  .between (start + h.nameOffset) (start + h.nameOffset + h.name.utf8ByteSize)

end Header

end Ambit.Sketch
