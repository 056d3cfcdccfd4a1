/-
Written facts are recovered.

Every kind of fact has a codec.  For a record this comes down to naming its slots: which members it
has, which of them are left out when they are absent or empty, and how each is written.  A type is
different: it is first read as a whole, which needs its numbers to be in range, and then taken apart
by the form that it names, at any depth of types inside one another.

Main results:

* `Ambit.Json.Number.isFinite_ofNat` — natural numbers of 32 bits are in range;
* `Ambit.Archive.splitForm_ofMembers` — the form of a type is told apart from its other members;
* `Ambit.Archive.codec_typeRef` — **types are recovered**;
* `Ambit.Archive.codec_symbol`, `Ambit.Archive.codec_scope`, … — the facts are recovered;
* `Ambit.Archive.codec_archive` — **archives are recovered**.
-/

import Ambit.Archive
import Ambit.Proofs.Json.Decoder

set_option relaxedAutoImplicit false
set_option autoImplicit false

namespace Ambit

/-! ### Numbers in range -/

namespace Json.Number

theorem le_ofDigitChars (ds : List Char) (n : ℕ) : n ≤ Nat.ofDigitChars 10 ds n := by
  induction ds generalizing n with
  | nil => exact Nat.le_refl n
  | cons d ds ih =>
      have hlonger := ih (10 * n + (d.toNat - '0'.toNat))
      rw [Nat.ofDigitChars_cons]
      omega

/-- A significand holds all digits of a number of 64 bits. -/
theorem gather_eq (ds : List Char) {n : ℕ} (h : Nat.ofDigitChars 10 ds n < UInt64.size) :
    gather n ds = (Nat.ofDigitChars 10 ds n, []) := by
  induction ds generalizing n with
  | nil => rfl
  | cons d ds ih =>
      rw [Nat.ofDigitChars_cons] at h ⊢
      have hlonger := le_ofDigitChars ds (10 * n + (d.toNat - '0'.toNat))
      rw [gather, if_pos (Nat.lt_of_le_of_lt hlonger h), ih h]

/-- Natural numbers of 32 bits are in range. -/
theorem isFinite_ofNat {n : ℕ} (h : n < 2 ^ 32) : (ofNat n).isFinite = true := by
  have hscaled : (ofNat n).scaled = (n, 0) := by
    have hsmall : Nat.ofDigitChars 10 (Nat.toDigits 10 n) 0 < UInt64.size := by
      rw [Nat.ofDigitChars_ten_toDigits]
      exact Nat.lt_trans h (by decide)
    have hgather := gather_eq _ hsmall
    rw [Nat.ofDigitChars_ten_toDigits] at hgather
    simp [scaled, ofNat, hgather, gather, exponentValue]
  have hround : Binary64.round n = n := Binary64.round_of_lt (Nat.lt_trans h (by decide))
  have hone : Binary64.round 1 = 1 := Binary64.round_of_lt (by decide)
  have hlimit : n < Binary64.limit := Nat.lt_trans h (by decide +kernel)
  simp [isFinite, hscaled, hround, hone, Binary64.isFinite, hlimit]

end Json.Number

namespace Archive

open Json (Codec written listSlot Holds Plain)

/-! ### Members -/

section Members

variable {α : Type} (name : String) (write : α → Json) (slots : List (String × Option Json))

@[simp] theorem written_map (o : Option α) :
    written ((name, o.map write) :: slots) = present name write o ++ written slots := by
  cases o <;> rfl

@[simp] theorem written_listSlot (xs : List α) :
    written ((name, listSlot write xs) :: slots) = nonempty name write xs ++ written slots := by
  cases xs <;> rfl

end Members

theorem plain_listSlot {α : Type} {read : Json.Decoder α} {write : α → Json}
    (h : Codec read write) (xs : List α) : ∀ v ∈ listSlot write xs, Plain v :=
  Json.forall_mem_listSlot (h.list.plain xs)

/-! ### Numbers and spans -/

theorem codec_symbolId : Codec symbolId ofSymbolId :=
  Json.codec_uint32.map SymbolId.mk SymbolId.val fun _ => rfl

theorem codec_scopeId : Codec scopeId ofScopeId :=
  Json.codec_uint32.map ScopeId.mk ScopeId.val fun _ => rfl

theorem codec_span : Codec span ofSpan := by
  refine Codec.record
    (fun s => [("start", some (.ofNat s.start.toNat)), ("end", some (.ofNat s.stop.toNat))])
    (fun _ => rfl) (fun _ => rfl) (by decide) ?_ ?_
  · intro s
    simp [Plain.ofNat]
  · intro depth s fields hfields
    have hstart := Json.codec_uint64.need (hfields "start")
    have hend := Json.codec_uint64.need (hfields "end")
    simp only [hstart, hend]
    rfl

/-! ### Types -/

/-- Values that can be read as a whole: their numbers are in range and their texts spell
characters. -/
inductive Tidy : Json → Prop
  | ofNat {n : ℕ} : n < 2 ^ 32 → Tidy (.ofNat n)
  | ofString (text : String) : Tidy (.ofString text)
  | array {items : List Json} : (∀ v ∈ items, Tidy v) → Tidy (.array items)
  | ofMembers {fields : Json.Fields} : (∀ f ∈ fields, Tidy f.2) → Tidy (.ofMembers fields)

theorem Tidy.plain {v : Json} (h : Tidy v) : Plain v := by
  induction h with
  | ofNat => exact .ofNat _
  | ofString text => exact .string text
  | array _ ih => exact .array ih
  | ofMembers _ ih =>
      refine .object fun m hm => ?_
      obtain ⟨f, hf, rfl⟩ := List.mem_map.1 hm
      exact ih f hf

theorem Tidy.isReadable {v : Json} (h : Tidy v) {depth : ℕ} (hnesting : v.nesting ≤ depth) :
    v.isReadable depth = true := by
  induction h generalizing depth with
  | ofNat hn =>
      rw [Json.ofNat, Json.isReadable]
      exact Json.Number.isFinite_ofNat hn
  | ofString text =>
      rw [Json.ofString, Json.isReadable]
      rfl
  | array _ ih =>
      cases depth with
      | zero => simp [Json.nesting] at hnesting
      | succ depth =>
          rw [Json.nesting_array_le] at hnesting
          rw [Json.isReadable]
          exact List.all_eq_true.2 fun v hv => ih v hv (hnesting v hv)
  | ofMembers _ ih =>
      cases depth with
      | zero => exact absurd hnesting (Nat.not_le.2 (Json.nesting_ofMembers_pos _))
      | succ depth =>
          rw [Json.nesting_ofMembers_le] at hnesting
          rw [Json.ofMembers, Json.isReadable, List.all_map]
          refine List.all_eq_true.2 fun f hf => ?_
          exact ih f hf (hnesting f hf)

def formOf : TypeRef → TypeForm
  | .named _ _ => .named
  | .param _ => .param
  | .nullable _ => .nullable
  | .array _ _ => .array
  | .unresolved => .unresolved

/-- The slots of a type beside its form. -/
def typeSlots : TypeRef → List (String × Option Json)
  | .named d args => [("symbol_id", some (ofSymbolId d)), ("args", listSlot ofTypeRef args)]
  | .param p => [("symbol_id", some (ofSymbolId p))]
  | .nullable t => [("inner", some (ofTypeRef t))]
  | .array t rank => [("element", some (ofTypeRef t)), ("rank", some (.ofNat rank.toNat))]
  | .unresolved => []

theorem ofTypeRef_eq (t : TypeRef) :
    ofTypeRef t = .ofMembers (("kind", ofWord (formOf t)) :: written (typeSlots t)) := by
  cases t with
  | named d args =>
      rw [ofTypeRef, ofTypeRefs_eq_map]
      cases args <;> rfl
  | param p => rfl
  | nullable t => rfl
  | array t rank => rfl
  | unresolved => rfl

theorem tidy_of_typeSlots {t : TypeRef} (h : ∀ slot ∈ typeSlots t, ∀ v ∈ slot.2, Tidy v) :
    Tidy (ofTypeRef t) := by
  rw [ofTypeRef_eq]
  refine .ofMembers fun f hf => ?_
  rcases List.mem_cons.1 hf with rfl | hf
  · exact .ofString _
  · exact h (f.1, some f.2) (Json.mem_written.1 hf) f.2 rfl

theorem tidy_ofTypeRef (t : TypeRef) : Tidy (ofTypeRef t) := by
  have hid : ∀ id, Tidy (ofSymbolId id) := fun id => .ofNat id.val.toNat_lt
  induction t using TypeRef.induction with
  | named d args ih =>
      have hargs : Tidy (.ofList ofTypeRef args) := by
        refine .array fun v hv => ?_
        obtain ⟨t, ht, rfl⟩ := List.mem_map.1 hv
        exact ih t ht
      refine tidy_of_typeSlots ?_
      simpa [typeSlots, hid] using Json.forall_mem_listSlot hargs
  | param p => exact tidy_of_typeSlots (by simp [typeSlots, hid])
  | nullable t ih => exact tidy_of_typeSlots (by simp [typeSlots, ih])
  | array t rank ih =>
      have hrank : Tidy (.ofNat rank.toNat) := .ofNat rank.toNat_lt
      exact tidy_of_typeSlots (by simp [typeSlots, ih, hrank])
  | unresolved => exact tidy_of_typeSlots (by simp [typeSlots])

/-- The form of an object is told by its one member `kind`. -/
theorem splitForm_object {members rest : List (Option String × Json)} {key : Option String}
    {tag : Json}
    (h : members.partition (fun m => m.1 == some "kind") = ([(key, tag)], rest)) (inside : Bool) :
    splitForm inside (.object members) = (typeForm inside tag).map (·, .object rest) := by
  rw [splitForm, h]

/-- The form of a type is told apart from its other members. -/
theorem splitForm_ofMembers (inside : Bool) (form : TypeForm) {members : Json.Fields}
    (h : "kind" ∉ members.map Prod.fst) :
    splitForm inside (.ofMembers (("kind", ofWord form) :: members)) =
      some (form, .ofMembers members) := by
  have htag : typeForm inside (ofWord form) = some form := Spelled.read?_eq_some_iff.2 rfl
  have hothers : ∀ m ∈ members.map (fun f => (some f.1, f.2)), (m.1 == some "kind") = false := by
    intro m hm
    obtain ⟨f, hf, rfl⟩ := List.mem_map.1 hm
    refine beq_eq_false_iff_ne.2 fun heq => h ?_
    rw [← Option.some.inj heq]
    exact List.mem_map_of_mem hf
  have hkind : (members.map fun f => (some f.1, f.2)).filter (fun m => m.1 == some "kind") = [] :=
    List.filter_eq_nil_iff.2 fun m hm => by simp [hothers m hm]
  have hrest : (members.map fun f => (some f.1, f.2)).filter (not ∘ fun m => m.1 == some "kind") =
      members.map fun f => (some f.1, f.2) :=
    List.filter_eq_self.2 fun m hm => by simp [hothers m hm]
  have hpartition : (((some "kind", ofWord form) : Option String × Json) ::
      members.map fun f => (some f.1, f.2)).partition (fun m => m.1 == some "kind") =
      ([(some "kind", ofWord form)], members.map fun f => (some f.1, f.2)) := by
    rw [List.partition_eq_filter_filter, List.filter_cons_of_pos (by rfl), hkind,
      List.filter_cons_of_neg (by simp), hrest]
  exact (splitForm_object hpartition inside).trans (by rw [htag]; rfl)

theorem nodup_kind_typeSlots (t : TypeRef) : ("kind" :: (typeSlots t).map Prod.fst).Nodup := by
  cases t <;> simp [typeSlots]

theorem fields_typeSlots (t : TypeRef) :
    Json.Decoder.fields ((typeSlots t).map Prod.fst) false (.ofMembers (written (typeSlots t))) =
      some (written (typeSlots t)) :=
  Json.fields_ofMembers (Json.map_fst_written_sublist _)
    (List.nodup_cons.1 (nodup_kind_typeSlots t)).2

theorem splitForm_ofTypeRef (t : TypeRef) (inside : Bool) :
    splitForm inside (ofTypeRef t) = some (formOf t, .ofMembers (written (typeSlots t))) := by
  rw [ofTypeRef_eq]
  refine splitForm_ofMembers inside (formOf t) fun hmem => ?_
  exact (List.nodup_cons.1 (nodup_kind_typeSlots t)).1
    ((Json.map_fst_written_sublist _).subset hmem)

theorem holds_typeSlots {t : TypeRef} {depth : ℕ} (h : (ofTypeRef t).nesting ≤ depth) :
    ∃ inner, depth = inner + 1 ∧
      ∀ name, Holds (written (typeSlots t)) inner name ((typeSlots t).lookup name).join := by
  rw [ofTypeRef_eq] at h
  cases depth with
  | zero => exact absurd h (Nat.not_le.2 (Json.nesting_ofMembers_pos _))
  | succ depth =>
      rw [Json.nesting_ofMembers_le] at h
      refine ⟨depth, rfl, Json.holds_written (List.nodup_cons.1 (nodup_kind_typeSlots t)).2 ?_⟩
      exact fun f hf => h f (List.mem_cons_of_mem _ hf)

/-- A type is recovered at any depth of types inside one another. -/
theorem typeRefWithin_ofTypeRef (t : TypeRef) {depth : ℕ} (inside : Bool)
    (hnesting : (ofTypeRef t).nesting ≤ depth) :
    typeRefWithin depth inside (ofTypeRef t) = some t := by
  induction t using TypeRef.induction generalizing depth inside with
  | named d args ih =>
      obtain ⟨depth, rfl, hholds⟩ := holds_typeSlots hnesting
      have hfields : Json.Decoder.fields ["symbol_id", "args"] false _ = _ :=
        fields_typeSlots (.named d args)
      have hid := codec_symbolId.need (hholds "symbol_id")
      have hargs : Holds _ depth "args" (listSlot ofTypeRef args) := hholds "args"
      rw [typeRefWithin, splitForm_ofTypeRef]
      simp only [formOf, Option.bind_eq_bind, Option.bind_some, hfields, hid, hargs.lookup]
      cases args with
      | nil => rfl
      | cons t ts =>
          -- the arguments stand in an array, which may be entered too
          have hread : ((t :: ts).map ofTypeRef).mapM (typeRefWithin depth true) =
              some (t :: ts) := by
            refine Json.mapM_map_eq_some fun u hu => ih u hu true ?_
            have hmem : ofTypeRef u ∈ (t :: ts).map ofTypeRef := List.mem_map_of_mem hu
            have hle := hargs.nesting_le _ rfl
            exact Nat.le_trans (Nat.le_of_lt (Json.nesting_lt_array hmem)) hle
          have hslot : listSlot ofTypeRef (t :: ts) = some (.array ((t :: ts).map ofTypeRef)) := rfl
          simp only [hslot, hread]
          rfl
  | param p =>
      obtain ⟨depth, rfl, hholds⟩ := holds_typeSlots hnesting
      have hfields : Json.Decoder.fields ["symbol_id"] false _ = _ := fields_typeSlots (.param p)
      have hid := codec_symbolId.need (hholds "symbol_id")
      rw [typeRefWithin, splitForm_ofTypeRef]
      simp only [formOf, Option.bind_eq_bind, Option.bind_some, hfields, hid]
      rfl
  | nullable t ih =>
      obtain ⟨depth, rfl, hholds⟩ := holds_typeSlots hnesting
      have hfields : Json.Decoder.fields ["inner"] false _ = _ := fields_typeSlots (.nullable t)
      have hinner : Holds _ depth "inner" (some (ofTypeRef t)) := hholds "inner"
      have hread := ih true (hinner.nesting_le _ rfl)
      rw [typeRefWithin, splitForm_ofTypeRef]
      simp only [formOf, Option.bind_eq_bind, Option.bind_some, hfields, hinner.lookup, hread]
      rfl
  | array t rank ih =>
      obtain ⟨depth, rfl, hholds⟩ := holds_typeSlots hnesting
      have hfields : Json.Decoder.fields ["element", "rank"] false _ = _ :=
        fields_typeSlots (.array t rank)
      have helement : Holds _ depth "element" (some (ofTypeRef t)) := hholds "element"
      have hread := ih true (helement.nesting_le _ rfl)
      have hrank := Json.codec_uint32.need (hholds "rank")
      rw [typeRefWithin, splitForm_ofTypeRef]
      simp only [formOf, Option.bind_eq_bind, Option.bind_some, hfields, helement.lookup, hread,
        hrank]
      rfl
  | unresolved =>
      obtain ⟨depth, rfl, -⟩ := holds_typeSlots hnesting
      rw [typeRefWithin, splitForm_ofTypeRef]
      rfl

/-- **Types are recovered.** -/
theorem codec_typeRef : Codec typeRef ofTypeRef where
  plain t := (tidy_ofTypeRef t).plain
  recovers depth t hnesting := by
    rw [typeRef, if_pos ((tidy_ofTypeRef t).isReadable hnesting)]
    exact typeRefWithin_ofTypeRef t false hnesting

/-! ### Facts -/

theorem codec_ofWord {α : Type} [Spelled α] : Codec (Json.Decoder.word : Json.Decoder α) ofWord :=
  Json.codec_word

theorem ofSymbolId_ne_null (id : SymbolId) : ofSymbolId id ≠ .null := by
  rintro ⟨⟩

theorem ofScopeId_ne_null (id : ScopeId) : ofScopeId id ≠ .null := by
  rintro ⟨⟩

theorem ofSpan_ne_null (s : Text.Span) : ofSpan s ≠ .null := by
  rintro ⟨⟩

theorem ofTypeRef_ne_null (t : TypeRef) : ofTypeRef t ≠ .null := by
  rw [ofTypeRef_eq]
  rintro ⟨⟩

def symbolSlots (s : Symbol) : List (String × Option Json) :=
  [("symbol_id", some (ofSymbolId s.id)), ("kind", some (ofWord s.kind)),
    ("name", some (.ofString s.name)), ("scope_id", some (ofScopeId s.scope)),
    ("decl_span", s.span.map ofSpan), ("container_symbol_id", s.container.map ofSymbolId),
    ("accessibility", some (ofWord s.access)), ("modifiers", listSlot ofWord s.modifiers),
    ("arity", some (.ofNat s.arity.toNat)), ("type_ref", s.type.map ofTypeRef),
    ("from_metadata", some (.bool s.fromMetadata)),
    ("explicit_impl_of", s.implementsExplicitly.map ofSymbolId)]

theorem codec_symbol : Codec symbol ofSymbol := by
  refine Codec.record symbolSlots ?_ (fun _ => rfl) (by decide) ?_ ?_
  · intro s
    simp [ofSymbol, symbolSlots]
  · intro s
    have hmodifiers := plain_listSlot codec_ofWord s.modifiers
    simpa [symbolSlots, Plain.bool, Plain.ofNat, Json.codec_string.plain, codec_symbolId.plain,
      codec_scopeId.plain, codec_ofWord.plain, codec_span.plain, codec_typeRef.plain]
      using hmodifiers
  · intro depth s fields hfields
    have hid := codec_symbolId.need (hfields "symbol_id")
    have hkind := codec_ofWord.need (hfields "kind")
    have hname := Json.codec_string.need (hfields "name")
    have hscope := codec_scopeId.need (hfields "scope_id")
    have hspan := codec_span.getNullable ofSpan_ne_null (hfields "decl_span")
    have hcontainer :=
      codec_symbolId.getNullable ofSymbolId_ne_null (hfields "container_symbol_id")
    have haccess := codec_ofWord.get (hfields "accessibility") default
    have hmodifiers := codec_ofWord.getList (hfields "modifiers")
    have harity := Json.codec_uint32.get (hfields "arity") 0
    have htype := codec_typeRef.getNullable ofTypeRef_ne_null (hfields "type_ref")
    have hmetadata := Json.codec_bool.get (hfields "from_metadata") false
    have himplements :=
      codec_symbolId.getNullable ofSymbolId_ne_null (hfields "explicit_impl_of")
    simp only [hid, hkind, hname, hscope, hspan, hcontainer, haccess, hmodifiers, harity, htype,
      hmetadata, himplements]
    rfl

def scopeSlots (s : Scope) : List (String × Option Json) :=
  [("scope_id", some (ofScopeId s.id)), ("kind", some (ofWord s.kind)),
    ("span", some (ofSpan s.span)), ("parent", s.parent.map ofScopeId),
    ("owner", s.owner.map ofSymbolId), ("from_metadata", some (.bool s.fromMetadata)),
    ("imports", listSlot ofSymbolId s.imports), ("is_static", some (.bool s.isStatic))]

theorem codec_scope : Codec scope ofScope := by
  refine Codec.record scopeSlots ?_ (fun _ => rfl) (by decide) ?_ ?_
  · intro s
    simp [ofScope, scopeSlots]
  · intro s
    have himports := plain_listSlot codec_symbolId s.imports
    simpa [scopeSlots, Plain.bool, codec_scopeId.plain, codec_symbolId.plain, codec_span.plain,
      codec_ofWord.plain] using himports
  · intro depth s fields hfields
    have hid := codec_scopeId.need (hfields "scope_id")
    have hkind := codec_ofWord.need (hfields "kind")
    have hspan := codec_span.need (hfields "span")
    have hparent := codec_scopeId.getNullable ofScopeId_ne_null (hfields "parent")
    have howner := codec_symbolId.getNullable ofSymbolId_ne_null (hfields "owner")
    have hmetadata := Json.codec_bool.get (hfields "from_metadata") false
    have himports := codec_symbolId.getList (hfields "imports")
    have hstatic := Json.codec_bool.get (hfields "is_static") false
    simp only [hid, hkind, hspan, hparent, howner, hmetadata, himports, hstatic]
    rfl

def typeDeclSlots (d : TypeDecl) : List (String × Option Json) :=
  [("symbol_id", some (ofSymbolId d.id)), ("kind", some (ofWord d.kind)),
    ("base", d.base.map ofTypeRef), ("interfaces", listSlot ofTypeRef d.interfaces),
    ("is_ref_like", some (.bool d.isRefLike))]

theorem codec_typeDecl : Codec typeDecl ofTypeDecl := by
  refine Codec.record typeDeclSlots ?_ (fun _ => rfl) (by decide) ?_ ?_
  · intro d
    simp [ofTypeDecl, typeDeclSlots]
  · intro d
    have hinterfaces := plain_listSlot codec_typeRef d.interfaces
    simpa [typeDeclSlots, Plain.bool, codec_symbolId.plain, codec_ofWord.plain,
      codec_typeRef.plain] using hinterfaces
  · intro depth d fields hfields
    have hid := codec_symbolId.need (hfields "symbol_id")
    have hkind := codec_ofWord.need (hfields "kind")
    have hbase := codec_typeRef.getNullable ofTypeRef_ne_null (hfields "base")
    have hinterfaces := codec_typeRef.getList (hfields "interfaces")
    have hrefLike := Json.codec_bool.get (hfields "is_ref_like") false
    simp only [hid, hkind, hbase, hinterfaces, hrefLike]
    rfl

def typeParamSlots (p : TypeParam) : List (String × Option Json) :=
  [("symbol_id", some (ofSymbolId p.id)), ("owner", some (ofSymbolId p.owner)),
    ("ordinal", some (.ofNat p.ordinal.toNat)), ("constraints", listSlot ofTypeRef p.constraints),
    ("reference_type", some (.bool p.referenceType)), ("value_type", some (.bool p.valueType))]

theorem codec_typeParam : Codec typeParam ofTypeParam := by
  refine Codec.record typeParamSlots ?_ (fun _ => rfl) (by decide) ?_ ?_
  · intro p
    simp [ofTypeParam, typeParamSlots]
  · intro p
    have hconstraints := plain_listSlot codec_typeRef p.constraints
    simpa [typeParamSlots, Plain.bool, Plain.ofNat, codec_symbolId.plain] using hconstraints
  · intro depth p fields hfields
    have hid := codec_symbolId.need (hfields "symbol_id")
    have howner := codec_symbolId.need (hfields "owner")
    have hordinal := Json.codec_uint32.need (hfields "ordinal")
    have hconstraints := codec_typeRef.getList (hfields "constraints")
    have hreference := Json.codec_bool.get (hfields "reference_type") false
    have hvalue := Json.codec_bool.get (hfields "value_type") false
    simp only [hid, howner, hordinal, hconstraints, hreference, hvalue]
    rfl

def parameterSlots (p : Parameter) : List (String × Option Json) :=
  [("name", some (.ofString p.name)), ("type_ref", some (ofTypeRef p.type)),
    ("kind", some (ofWord p.kind)), ("has_default", some (.bool p.hasDefault))]

theorem codec_parameter : Codec parameter ofParameter := by
  refine Codec.record parameterSlots (fun _ => rfl) (fun _ => rfl) (by decide) ?_ ?_
  · intro p
    simp [parameterSlots, Plain.bool, Json.codec_string.plain, codec_typeRef.plain,
      codec_ofWord.plain]
  · intro depth p fields hfields
    have hname := Json.codec_string.need (hfields "name")
    have htype := codec_typeRef.need (hfields "type_ref")
    have hkind := codec_ofWord.get (hfields "kind") default
    have hdefault := Json.codec_bool.get (hfields "has_default") false
    simp only [hname, htype, hkind, hdefault]
    rfl

def signatureSlots (s : Signature) : List (String × Option Json) :=
  [("symbol_id", some (ofSymbolId s.id)), ("params", listSlot ofParameter s.params),
    ("returns", s.returns.map ofTypeRef)]

theorem codec_signature : Codec signature ofSignature := by
  refine Codec.record signatureSlots ?_ (fun _ => rfl) (by decide) ?_ ?_
  · intro s
    simp [ofSignature, signatureSlots]
  · intro s
    have hparams := plain_listSlot codec_parameter s.params
    simpa [signatureSlots, codec_symbolId.plain, codec_typeRef.plain] using hparams
  · intro depth s fields hfields
    have hid := codec_symbolId.need (hfields "symbol_id")
    have hparams := codec_parameter.getList (hfields "params")
    have hreturns := codec_typeRef.getNullable ofTypeRef_ne_null (hfields "returns")
    simp only [hid, hparams, hreturns]
    rfl

theorem codec_interception : Codec interception ofInterception := by
  refine Codec.record (fun i => [("interceptor", some (ofSymbolId i.interceptor)),
    ("target", some (ofSpan i.target))]) (fun _ => rfl) (fun _ => rfl) (by decide) ?_ ?_
  · intro i
    simp [codec_symbolId.plain, codec_span.plain]
  · intro depth i fields hfields
    have hinterceptor := codec_symbolId.need (hfields "interceptor")
    have htarget := codec_span.need (hfields "target")
    simp only [hinterceptor, htarget]
    rfl

theorem codec_registration : Codec registration ofRegistration := codec_ofWord.pair codec_symbolId

/-! ### Archives -/

def archiveSlots (a : Archive) : List (String × Option Json) :=
  [("schema_version", some (.ofNat a.version.toNat)),
    ("symbols", some (.ofList ofSymbol a.symbols)), ("scopes", some (.ofList ofScope a.scopes)),
    ("type_decls", some (.ofList ofTypeDecl a.types)),
    ("type_params", some (.ofList ofTypeParam a.typeParams)),
    ("signatures", some (.ofList ofSignature a.signatures)),
    ("interceptions", some (.ofList ofInterception a.interceptions)),
    ("well_known", some (.ofList ofRegistration a.wellKnown))]

/-- **Archives are recovered.** -/
theorem codec_archive : Codec ofJson toJson := by
  refine Codec.record archiveSlots (fun _ => rfl) (fun _ => rfl) (by decide) ?_ ?_
  · intro a
    simp [archiveSlots, Plain.ofNat, codec_symbol.list.plain, codec_scope.list.plain,
      codec_typeDecl.list.plain, codec_typeParam.list.plain, codec_signature.list.plain,
      codec_interception.list.plain, codec_registration.list.plain]
  · intro depth a fields hfields
    have hversion := Json.codec_uint32.need (hfields "schema_version")
    have hsymbols := codec_symbol.list.get (hfields "symbols") []
    have hscopes := codec_scope.list.get (hfields "scopes") []
    have htypes := codec_typeDecl.list.get (hfields "type_decls") []
    have htypeParams := codec_typeParam.list.get (hfields "type_params") []
    have hsignatures := codec_signature.list.get (hfields "signatures") []
    have hinterceptions := codec_interception.list.get (hfields "interceptions") []
    have hwellKnown := codec_registration.list.get (hfields "well_known") []
    simp only [hversion, hsymbols, hscopes, htypes, htypeParams, hsignatures, hinterceptions,
      hwellKnown]
    rfl

end Archive

end Ambit
