/-
Archives: the facts of a store in the form in which they are kept.

An archive lists the facts of a store, and carries the version of its form.  A store is restored
from an archive by inserting the facts one after the other, which builds the indexes anew, and by
checking that they fit together.  An archive is written as JSON and read from it.

Main definitions:

* `Ambit.Archive` — the archive;
* `Ambit.Store.archive`, `Ambit.Archive.restore` — from a store to its archive, and back;
* `Ambit.Store.write`, `Ambit.Store.read` — **from a store to a text, and back**.
-/

import Ambit.Archive.Fact
import Ambit.Json.Parser
import Ambit.Json.Printer
import Ambit.Store.Check

set_option relaxedAutoImplicit false
set_option autoImplicit false

namespace Ambit

open Ambit.Json (Decoder)

/-- The facts of a store as lists. -/
structure Archive where
  version : UInt32
  symbols : List Symbol := []
  scopes : List Scope := []
  types : List TypeDecl := []
  typeParams : List TypeParam := []
  signatures : List Signature := []
  interceptions : List Interception := []
  wellKnown : List (WellKnown × SymbolId) := []
deriving DecidableEq, Repr

/-- The facts of a store as lists, in the order of their identities. -/
def Store.archive (s : Store) : Archive where
  version := s.version
  symbols := s.symbols.values
  scopes := s.scopes.values
  types := s.types.values
  typeParams := s.typeParams.values
  signatures := s.signatures.values
  interceptions := s.interceptions
  wellKnown := s.wellKnown.toList

namespace Archive

def currentVersion : UInt32 := 1

/-- The store with the facts of an archive. -/
def rebuild (a : Archive) : Store :=
  let s := a.scopes.foldl Store.insertScope Store.empty
  let s := a.symbols.foldl Store.insertSymbol s
  let s := a.types.foldl Store.insertType s
  let s := a.typeParams.foldl Store.insertTypeParam s
  let s := a.signatures.foldl Store.insertSignature s
  let s := a.interceptions.foldl Store.insertInterception s
  a.wellKnown.foldl (fun s r => s.register r.1 r.2) s

/-- The store that an archive was made of, if its version is understood and its facts fit
together. -/
def restore (a : Archive) : Answer Store :=
  if a.version = currentVersion then do
    a.rebuild.check
    return a.rebuild
  else .error (.wrongVersion a.version currentVersion)

/-! ### The JSON form -/

def toJson (a : Archive) : Json :=
  .ofMembers [("schema_version", .ofNat a.version.toNat), ("symbols", .ofList ofSymbol a.symbols),
    ("scopes", .ofList ofScope a.scopes), ("type_decls", .ofList ofTypeDecl a.types),
    ("type_params", .ofList ofTypeParam a.typeParams),
    ("signatures", .ofList ofSignature a.signatures),
    ("interceptions", .ofList ofInterception a.interceptions),
    ("well_known", .ofList ofRegistration a.wellKnown)]

def ofJson : Decoder Archive :=
  Decoder.record ["schema_version", "symbols", "scopes", "type_decls", "type_params", "signatures",
    "interceptions", "well_known"] false
  fun depth r => do
    return {
      version := ← r.need depth "schema_version" Decoder.uint32
      symbols := ← r.get depth "symbols" (Decoder.list symbol) []
      scopes := ← r.get depth "scopes" (Decoder.list scope) []
      types := ← r.get depth "type_decls" (Decoder.list typeDecl) []
      typeParams := ← r.get depth "type_params" (Decoder.list typeParam) []
      signatures := ← r.get depth "signatures" (Decoder.list signature) []
      interceptions := ← r.get depth "interceptions" (Decoder.list interception) []
      wellKnown := ← r.get depth "well_known" (Decoder.list registration) [] }

end Archive

/-- The number of arrays and objects that may lie around one another in what is read. -/
def Json.maxDepth : Nat := 127

namespace Store

/-- **The text of a store.** -/
def write (s : Store) : String := s.archive.toJson.render

/-- **The store of a text.** -/
def read (text : String) : Answer Store :=
  match (Json.parse text).bind (Archive.ofJson Json.maxDepth) with
  | none => .error .malformed
  | some archive => archive.restore

def load : Option String → Answer Store
  | none => .error .unavailable
  | some text => read text

end Store

end Ambit
