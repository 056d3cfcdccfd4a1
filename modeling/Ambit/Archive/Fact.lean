/-
The JSON form of facts.

Every fact is written as an object with its members in a fixed order.  Members that are absent or
empty lists are left out, except where a list always belongs to the form; when a fact is read, such
members may be missing.  A type is an object that names its form, and is read as a whole before its
form is looked at.

Main definitions:

* `Ambit.Archive.ofTypeRef`, `Ambit.Archive.ofSymbol`, … — writing facts;
* `Ambit.Archive.typeRef`, `Ambit.Archive.symbol`, … — **reading facts**.
-/

import Ambit.Declaration
import Ambit.Json.Decoder
import Ambit.Scope
import Ambit.Symbol

set_option relaxedAutoImplicit false
set_option autoImplicit false

namespace Ambit.Archive

open Ambit.Json (Decoder Fields)
open Ambit.Text (Span)

/-! ### Members of records -/

section Members

variable {α : Type}

/-- A member that is left out when it is absent. -/
def present (name : String) (write : α → Json) : Option α → List (String × Json)
  | some x => [(name, write x)]
  | none => []

/-- A member that is left out when it is an empty list. -/
def nonempty (name : String) (write : α → Json) (xs : List α) : List (String × Json) :=
  if xs.isEmpty then [] else [(name, Json.ofList write xs)]

def ofWord [Spelled α] (a : α) : Json := .ofString (Spelled.spell a)

end Members

/-! ### Numbers and spans -/

def ofSymbolId (id : SymbolId) : Json := .ofNat id.val.toNat

def ofScopeId (id : ScopeId) : Json := .ofNat id.val.toNat

def symbolId : Decoder SymbolId := fun depth v => (Decoder.uint32 depth v).map SymbolId.mk

def scopeId : Decoder ScopeId := fun depth v => (Decoder.uint32 depth v).map ScopeId.mk

def ofSpan (s : Span) : Json :=
  .ofMembers [("start", .ofNat s.start.toNat), ("end", .ofNat s.stop.toNat)]

/-- Reads a span; its ends may be the wrong way round. -/
def span : Decoder Span := Decoder.record ["start", "end"] false fun depth r => do
  return {
    start := ← r.need depth "start" Decoder.uint64
    stop := ← r.need depth "end" Decoder.uint64 }

/-! ### Types -/

mutual
/-- Writes a type. -/
def ofTypeRef : TypeRef → Json
  | .named d args =>
      .ofMembers ([("kind", .ofString "named"), ("symbol_id", ofSymbolId d)] ++
        if args.isEmpty then [] else [("args", .array (ofTypeRefs args))])
  | .param p => .ofMembers [("kind", .ofString "param"), ("symbol_id", ofSymbolId p)]
  | .nullable t => .ofMembers [("kind", .ofString "nullable"), ("inner", ofTypeRef t)]
  | .array t rank =>
      .ofMembers [("kind", .ofString "array"), ("element", ofTypeRef t),
        ("rank", .ofNat rank.toNat)]
  | .unresolved => .ofMembers [("kind", .ofString "unresolved")]
def ofTypeRefs : List TypeRef → List Json
  | [] => []
  | t :: ts => ofTypeRef t :: ofTypeRefs ts
end

@[simp] theorem ofTypeRefs_eq_map (ts : List TypeRef) : ofTypeRefs ts = ts.map ofTypeRef := by
  induction ts with
  | nil => rfl
  | cons t ts ih => rw [ofTypeRefs, ih, List.map_cons]

inductive TypeForm where
  | named
  | param
  | nullable
  | array
  | unresolved
deriving DecidableEq, Repr

instance : Spelled TypeForm where
  members := [.named, .param, .nullable, .array, .unresolved]
  spell
    | .named => "named"
    | .param => "param"
    | .nullable => "nullable"
    | .array => "array"
    | .unresolved => "unresolved"
  find_spell a := by cases a <;> rfl

/-- The form that a type names: by its word, and inside another type also by its place. -/
def typeForm (inside : Bool) : Json → Option TypeForm
  | .string (some w) => Spelled.read? w
  | .number n =>
      if inside then n.natural?.bind ((Spelled.members : List TypeForm)[·]?) else none
  | _ => none

/-- The form that a type names, and the rest of it.  In an object it is the one member `kind`, in
an array it comes first. -/
def splitForm (inside : Bool) : Json → Option (TypeForm × Json)
  | .array (tag :: rest) => (typeForm inside tag).map (·, .array rest)
  | .object members =>
      match members.partition fun (key, _) => key == some "kind" with
      | ([(_, tag)], rest) => (typeForm inside tag).map (·, .object rest)
      | _ => none
  | _ => none

/-- Whether nothing is left of a type without parts. -/
def isBare : Json → Bool
  | .array [] => true
  | .object _ => true
  | _ => false

/-- Reads a type with at most the given number of types around one another. -/
def typeRefWithin : Nat → Bool → Json → Option TypeRef
  | 0, _, _ => none
  | depth + 1, inside, v => do
      let (form, rest) ← splitForm inside v
      match form with
      | .named =>
          let r ← Decoder.fields ["symbol_id", "args"] false rest
          let definition ← r.need depth "symbol_id" symbolId
          match r.lookup "args" with
          | none => some (.named definition [])
          | some (.array items) =>
              return .named definition (← items.mapM (typeRefWithin depth true))
          | some _ => none
      | .param =>
          let r ← Decoder.fields ["symbol_id"] false rest
          return .param (← r.need depth "symbol_id" symbolId)
      | .nullable =>
          let r ← Decoder.fields ["inner"] false rest
          let inner ← r.lookup "inner"
          return .nullable (← typeRefWithin depth true inner)
      | .array =>
          let r ← Decoder.fields ["element", "rank"] false rest
          let element ← r.lookup "element"
          return .array (← typeRefWithin depth true element) (← r.need depth "rank" Decoder.uint32)
      | .unresolved => if isBare rest then some .unresolved else none

/-- **Reads a type.** -/
def typeRef : Decoder TypeRef := fun depth v =>
  if v.isReadable depth then typeRefWithin depth false v else none

/-! ### Symbols and scopes -/

/-- Writes a symbol. -/
def ofSymbol (s : Symbol) : Json :=
  .ofMembers ([("symbol_id", ofSymbolId s.id), ("kind", ofWord s.kind), ("name", .ofString s.name),
      ("scope_id", ofScopeId s.scope)] ++
    present "decl_span" ofSpan s.span ++
    present "container_symbol_id" ofSymbolId s.container ++
    [("accessibility", ofWord s.access)] ++
    nonempty "modifiers" ofWord s.modifiers ++
    [("arity", .ofNat s.arity.toNat)] ++
    present "type_ref" ofTypeRef s.type ++
    [("from_metadata", .bool s.fromMetadata)] ++
    present "explicit_impl_of" ofSymbolId s.implementsExplicitly)

/-- Reads a symbol. -/
def symbol : Decoder Symbol :=
  Decoder.record ["symbol_id", "kind", "name", "scope_id", "decl_span", "container_symbol_id",
    "accessibility", "modifiers", "arity", "type_ref", "from_metadata", "explicit_impl_of"] false
  fun depth r => do
    return {
      id := ← r.need depth "symbol_id" symbolId
      kind := ← r.need depth "kind" Decoder.word
      name := ← r.need depth "name" Decoder.string
      scope := ← r.need depth "scope_id" scopeId
      span := ← r.get depth "decl_span" (Decoder.nullable span) none
      container := ← r.get depth "container_symbol_id" (Decoder.nullable symbolId) none
      access := ← r.get depth "accessibility" Decoder.word default
      modifiers := ← r.get depth "modifiers" (Decoder.list Decoder.word) []
      arity := ← r.get depth "arity" Decoder.uint32 0
      type := ← r.get depth "type_ref" (Decoder.nullable typeRef) none
      fromMetadata := ← r.get depth "from_metadata" Decoder.bool false
      implementsExplicitly := ← r.get depth "explicit_impl_of" (Decoder.nullable symbolId) none }

def ofScope (s : Scope) : Json :=
  .ofMembers ([("scope_id", ofScopeId s.id), ("kind", ofWord s.kind), ("span", ofSpan s.span)] ++
    present "parent" ofScopeId s.parent ++
    present "owner" ofSymbolId s.owner ++
    [("from_metadata", .bool s.fromMetadata)] ++
    nonempty "imports" ofSymbolId s.imports ++
    [("is_static", .bool s.isStatic)])

def scope : Decoder Scope :=
  Decoder.record ["scope_id", "kind", "span", "parent", "owner", "from_metadata", "imports",
    "is_static"] false
  fun depth r => do
    return {
      id := ← r.need depth "scope_id" scopeId
      kind := ← r.need depth "kind" Decoder.word
      span := ← r.need depth "span" span
      parent := ← r.get depth "parent" (Decoder.nullable scopeId) none
      owner := ← r.get depth "owner" (Decoder.nullable symbolId) none
      fromMetadata := ← r.get depth "from_metadata" Decoder.bool false
      imports := ← r.get depth "imports" (Decoder.list symbolId) []
      isStatic := ← r.get depth "is_static" Decoder.bool false }

/-! ### Declarations -/

def ofTypeDecl (d : TypeDecl) : Json :=
  .ofMembers ([("symbol_id", ofSymbolId d.id), ("kind", ofWord d.kind)] ++
    present "base" ofTypeRef d.base ++
    nonempty "interfaces" ofTypeRef d.interfaces ++
    [("is_ref_like", .bool d.isRefLike)])

def typeDecl : Decoder TypeDecl :=
  Decoder.record ["symbol_id", "kind", "base", "interfaces", "is_ref_like"] false fun depth r => do
    return {
      id := ← r.need depth "symbol_id" symbolId
      kind := ← r.need depth "kind" Decoder.word
      base := ← r.get depth "base" (Decoder.nullable typeRef) none
      interfaces := ← r.get depth "interfaces" (Decoder.list typeRef) []
      isRefLike := ← r.get depth "is_ref_like" Decoder.bool false }

def ofTypeParam (p : TypeParam) : Json :=
  .ofMembers ([("symbol_id", ofSymbolId p.id), ("owner", ofSymbolId p.owner),
      ("ordinal", .ofNat p.ordinal.toNat)] ++
    nonempty "constraints" ofTypeRef p.constraints ++
    [("reference_type", .bool p.referenceType), ("value_type", .bool p.valueType)])

def typeParam : Decoder TypeParam :=
  Decoder.record ["symbol_id", "owner", "ordinal", "constraints", "reference_type", "value_type"]
    false
  fun depth r => do
    return {
      id := ← r.need depth "symbol_id" symbolId
      owner := ← r.need depth "owner" symbolId
      ordinal := ← r.need depth "ordinal" Decoder.uint32
      constraints := ← r.get depth "constraints" (Decoder.list typeRef) []
      referenceType := ← r.get depth "reference_type" Decoder.bool false
      valueType := ← r.get depth "value_type" Decoder.bool false }

def ofParameter (p : Parameter) : Json :=
  .ofMembers [("name", .ofString p.name), ("type_ref", ofTypeRef p.type), ("kind", ofWord p.kind),
    ("has_default", .bool p.hasDefault)]

def parameter : Decoder Parameter :=
  Decoder.record ["name", "type_ref", "kind", "has_default"] false fun depth r => do
    return {
      name := ← r.need depth "name" Decoder.string
      type := ← r.need depth "type_ref" typeRef
      kind := ← r.get depth "kind" Decoder.word default
      hasDefault := ← r.get depth "has_default" Decoder.bool false }

def ofSignature (s : Signature) : Json :=
  .ofMembers ([("symbol_id", ofSymbolId s.id)] ++
    nonempty "params" ofParameter s.params ++
    present "returns" ofTypeRef s.returns)

def signature : Decoder Signature :=
  Decoder.record ["symbol_id", "params", "returns"] false fun depth r => do
    return {
      id := ← r.need depth "symbol_id" symbolId
      params := ← r.get depth "params" (Decoder.list parameter) []
      returns := ← r.get depth "returns" (Decoder.nullable typeRef) none }

def ofInterception (i : Interception) : Json :=
  .ofMembers [("interceptor", ofSymbolId i.interceptor), ("target", ofSpan i.target)]

def interception : Decoder Interception :=
  Decoder.record ["interceptor", "target"] false fun depth r => do
    return {
      interceptor := ← r.need depth "interceptor" symbolId
      target := ← r.need depth "target" span }

def ofRegistration (r : WellKnown × SymbolId) : Json := .array [ofWord r.1, ofSymbolId r.2]

def registration : Decoder (WellKnown × SymbolId) := Decoder.pair Decoder.word symbolId

end Ambit.Archive
