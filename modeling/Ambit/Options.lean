/-
Options of questions.

The options say whether names that differ only in case are different, and what a list of
completions shows.  They are read strictly: an unknown option is refused, and one that is missing
has its usual value.

Main definitions:

* `Ambit.Options` — the options, with their usual values;
* `Ambit.Options.fold` — the form of a name in which names are compared;
* `Ambit.Options.read`, `Ambit.Options.toJson` — **the JSON form**.
-/

import Ambit.Archive
import Ambit.NameSupply

set_option relaxedAutoImplicit false
set_option autoImplicit false

namespace Ambit

open Ambit.Json (Decoder)

/-- The options of questions. -/
structure Options where
  /-- Names that differ only in case are different. -/
  caseSensitive : Bool := true
  /-- Methods of one name are offered together. -/
  collapseOverloads : Bool := true
  /-- Obsolete symbols are not offered. -/
  hideObsolete : Bool := false
  /-- Generic symbols are shown with angle brackets. -/
  genericSuffix : Bool := true
  /-- Extension methods are offered. -/
  extensionMethods : Bool := true
deriving DecidableEq, Repr

namespace Options

/-- The form of a name in which names are compared. -/
def fold (o : Options) (name : String) : String := foldName o.caseSensitive name

/-- Writes options. -/
def toJson (o : Options) : Json :=
  .ofMembers [("case_sensitive", .bool o.caseSensitive),
    ("collapse_overloads", .bool o.collapseOverloads), ("hide_obsolete", .bool o.hideObsolete),
    ("generic_display_suffix", .bool o.genericSuffix),
    ("include_extension_methods", .bool o.extensionMethods)]

def ofJson : Decoder Options :=
  Decoder.record ["case_sensitive", "collapse_overloads", "hide_obsolete",
    "generic_display_suffix", "include_extension_methods"] true
  fun depth r => do
    let usual : Options := {}
    return {
      caseSensitive := ← r.get depth "case_sensitive" Decoder.bool usual.caseSensitive
      collapseOverloads := ← r.get depth "collapse_overloads" Decoder.bool usual.collapseOverloads
      hideObsolete := ← r.get depth "hide_obsolete" Decoder.bool usual.hideObsolete
      genericSuffix := ← r.get depth "generic_display_suffix" Decoder.bool usual.genericSuffix
      extensionMethods :=
        ← r.get depth "include_extension_methods" Decoder.bool usual.extensionMethods }

/-- **The options of a text.** -/
def read (text : String) : Answer Options :=
  match (Json.parse text).bind (ofJson Json.maxDepth) with
  | none => .error .malformed
  | some options => .ok options

end Options

end Ambit
