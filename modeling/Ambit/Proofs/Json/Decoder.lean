/-
Decoders that recover what was written.

A decoder belongs to a way of writing if it recovers everything that is written so, as long as it
may enter as many arrays and objects as the written value has inside one another.  This is shown
shape by shape: numbers, words, lists, pairs, and records.  A record is written from slots, each
with a name and perhaps a value; the empty ones are left out.  What a reader looks up under a name
is then what stands in the slot of that name.

Main definitions:

* `Ambit.Json.nesting` — how many arrays and objects lie around one another in a value;
* `Ambit.Json.Codec` — **a decoder that recovers what was written**;
* `Ambit.Json.written` — the members of a record, from its slots.

Main results:

* `Ambit.Json.Codec.list`, `Ambit.Json.Codec.pair`, … — the shapes;
* `Ambit.Json.lookup_written` — what is looked up under a name stands in its slot;
* `Ambit.Json.Codec.record` — **records are recovered**, when they can be rebuilt from their slots.
-/

import Ambit.Json.Decoder
import Ambit.Proofs.Json.RoundTrip

set_option relaxedAutoImplicit false
set_option autoImplicit false

namespace Ambit.Json

/-! ### Nesting -/

mutual
/-- The number of arrays and objects that lie around one another in a value. -/
def nesting : Json → Nat
  | .array items => itemNesting items + 1
  | .object members => memberNesting members + 1
  | .null | .bool _ | .number _ | .string _ => 0
def itemNesting : List Json → Nat
  | [] => 0
  | v :: vs => max v.nesting (itemNesting vs)
def memberNesting : List (Option String × Json) → Nat
  | [] => 0
  | (_, v) :: ms => max v.nesting (memberNesting ms)
end

theorem itemNesting_le {vs : List Json} {depth : ℕ} :
    itemNesting vs ≤ depth ↔ ∀ v ∈ vs, v.nesting ≤ depth := by
  induction vs with
  | nil => simp [itemNesting]
  | cons v vs ih => simp [itemNesting, ih]

theorem memberNesting_le {ms : List (Option String × Json)} {depth : ℕ} :
    memberNesting ms ≤ depth ↔ ∀ m ∈ ms, m.2.nesting ≤ depth := by
  induction ms with
  | nil => simp [memberNesting]
  | cons m ms ih => simp [memberNesting, ih]

theorem nesting_array_le {items : List Json} {depth : ℕ} :
    (array items).nesting ≤ depth + 1 ↔ ∀ v ∈ items, v.nesting ≤ depth := by
  rw [nesting, Nat.add_le_add_iff_right, itemNesting_le]

theorem nesting_lt_array {items : List Json} {v : Json} (h : v ∈ items) :
    v.nesting < (array items).nesting := by
  rw [nesting]
  exact Nat.lt_succ_of_le (itemNesting_le.1 (Nat.le_refl _) v h)

theorem nesting_ofMembers_le {fields : Fields} {depth : ℕ} :
    (ofMembers fields).nesting ≤ depth + 1 ↔ ∀ f ∈ fields, f.2.nesting ≤ depth := by
  rw [ofMembers, nesting, Nat.add_le_add_iff_right, memberNesting_le, List.forall_mem_map]

theorem nesting_ofMembers_pos (fields : Fields) : 0 < (ofMembers fields).nesting := by
  rw [ofMembers, nesting]
  exact Nat.succ_pos _

/-! ### Plain shapes -/

/-- **A decoder that recovers what was written**, when it may enter as many arrays and objects as
lie around one another in it.  What is written can be read as a text. -/
structure Codec {α : Type} (read : Decoder α) (write : α → Json) : Prop where
  plain : ∀ x, Plain (write x)
  recovers : ∀ depth x, (write x).nesting ≤ depth → read depth (write x) = some x

section Shapes

variable {α β : Type} {read : Decoder α} {write : α → Json}

theorem codec_bool : Codec Decoder.bool .bool where
  plain := .bool
  recovers _ _ _ := rfl

theorem codec_string : Codec Decoder.string .ofString where
  plain text := .string (some text)
  recovers _ _ _ := rfl

theorem below_ofNat {bound n : ℕ} (h : n < bound) (depth : ℕ) :
    Decoder.below bound depth (.ofNat n) = some n := by
  rw [ofNat, Decoder.below, Number.natural?_ofNat, Option.filter_some, if_pos (by simpa using h)]

theorem codec_uint32 : Codec Decoder.uint32 fun x => .ofNat x.toNat where
  plain x := .ofNat x.toNat
  recovers depth x _ := by
    rw [Decoder.uint32, below_ofNat x.toNat_lt]
    simp

theorem codec_uint64 : Codec Decoder.uint64 fun x => .ofNat x.toNat where
  plain x := .ofNat x.toNat
  recovers depth x _ := by
    rw [Decoder.uint64, below_ofNat x.toNat_lt]
    simp

/-- A value that is read under another form. -/
theorem Codec.map (h : Codec read write) (make : α → β) (part : β → α)
    (hmake : ∀ y, make (part y) = y) :
    Codec (fun depth v => (read depth v).map make) fun y => write (part y) where
  plain y := h.plain (part y)
  recovers depth y hnesting := by rw [h.recovers depth (part y) hnesting, Option.map_some, hmake]

theorem codec_word [Spelled α] :
    Codec (Decoder.word : Decoder α) fun a => .ofString (Spelled.spell a) where
  plain a := .string _
  recovers depth a _ := by
    rw [ofString, Decoder.word]
    exact Spelled.read?_eq_some_iff.2 rfl

theorem mapM_map_eq_some {f : β → Option α} {put : α → β} {xs : List α}
    (h : ∀ x ∈ xs, f (put x) = some x) : (xs.map put).mapM f = some xs := by
  induction xs with
  | nil => rfl
  | cons x xs ih =>
      have hx := h x (List.mem_cons_self ..)
      have hxs := ih fun y hy => h y (List.mem_cons_of_mem _ hy)
      simp [List.mapM_cons, hx, hxs]

theorem Codec.list (h : Codec read write) : Codec (Decoder.list read) (ofList write) where
  plain xs := by
    refine .array fun v hv => ?_
    obtain ⟨x, -, rfl⟩ := List.mem_map.1 hv
    exact h.plain x
  recovers depth xs hnesting := by
    cases depth with
    | zero => simp [ofList, nesting] at hnesting
    | succ depth =>
        rw [ofList, nesting_array_le] at hnesting
        refine mapM_map_eq_some fun x hx => ?_
        exact h.recovers depth x (hnesting _ (List.mem_map_of_mem hx))

theorem Codec.pair (h : Codec read write) {read' : Decoder β} {write' : β → Json}
    (h' : Codec read' write') :
    Codec (Decoder.pair read read') fun p => .array [write p.1, write' p.2] where
  plain p := by
    refine .array fun v hv => ?_
    simp only [List.mem_cons, List.not_mem_nil, or_false] at hv
    rcases hv with rfl | rfl
    · exact h.plain p.1
    · exact h'.plain p.2
  recovers depth p hnesting := by
    cases depth with
    | zero => simp [nesting] at hnesting
    | succ depth =>
        rw [nesting_array_le] at hnesting
        have hfirst := h.recovers depth p.1 (hnesting _ (by simp))
        have hsecond := h'.recovers depth p.2 (hnesting _ (by simp))
        simp [Decoder.pair, hfirst, hsecond]

end Shapes

/-! ### Members from slots -/

/-- The members of a record, from its slots: a slot without a value is left out. -/
def written (slots : List (String × Option Json)) : Fields :=
  slots.filterMap fun slot => slot.2.map (slot.1, ·)

@[simp] theorem written_nil : written [] = [] := rfl

@[simp] theorem written_some (name : String) (v : Json) (slots : List (String × Option Json)) :
    written ((name, some v) :: slots) = (name, v) :: written slots := rfl

theorem written_cons (name : String) (o : Option Json) (slots : List (String × Option Json)) :
    written ((name, o) :: slots) = (o.map (name, ·)).toList ++ written slots := by
  cases o <;> rfl

theorem mem_written {slots : List (String × Option Json)} {name : String} {v : Json} :
    (name, v) ∈ written slots ↔ (name, some v) ∈ slots := by
  simp only [written, List.mem_filterMap, Option.map_eq_some_iff, Prod.mk.injEq, Prod.exists]
  constructor
  · rintro ⟨_, _, hmem, _, rfl, rfl, rfl⟩
    exact hmem
  · intro hmem
    exact ⟨name, some v, hmem, v, rfl, rfl, rfl⟩

theorem map_fst_written_sublist (slots : List (String × Option Json)) :
    ((written slots).map Prod.fst).Sublist (slots.map Prod.fst) := by
  induction slots with
  | nil => exact List.Sublist.slnil
  | cons slot slots ih =>
      obtain ⟨name, o⟩ := slot
      rw [written_cons]
      cases o with
      | none => exact ih.cons name
      | some v => exact ih.cons_cons name

/-- **What is looked up under a name stands in the slot of that name.** -/
theorem lookup_written {slots : List (String × Option Json)} (h : (slots.map Prod.fst).Nodup)
    (name : String) : (written slots).lookup name = (slots.lookup name).join := by
  induction slots with
  | nil => rfl
  | cons slot slots ih =>
      obtain ⟨key, o⟩ := slot
      obtain ⟨hkey, hslots⟩ := List.nodup_cons.1 h
      rw [written_cons]
      by_cases hname : name = key
      · subst hname
        rw [List.lookup_cons_self]
        cases o with
        | some v => exact List.lookup_cons_self
        | none =>
            refine List.lookup_eq_none_iff.2 fun f hf => ?_
            have hmem := (map_fst_written_sublist slots).subset (List.mem_map_of_mem hf)
            simp only [bne_iff_ne]
            rintro rfl
            exact hkey hmem
      · have hother : (name == key) = false := beq_eq_false_iff_ne.2 hname
        rw [List.lookup_cons, hother]
        cases o with
        | none => exact ih hslots
        | some v =>
            rw [Option.map_some, Option.toList_some, List.singleton_append, List.lookup_cons,
              hother]
            exact ih hslots

/-! ### Records -/

/-- The members of an object are read when their names are known and different. -/
theorem fields_ofMembers {names : List String} {members : Fields}
    (hsublist : (members.map Prod.fst).Sublist names) (hnodup : names.Nodup) :
    Decoder.fields names false (ofMembers members) = some members := by
  have hnamed : Decoder.named (members.map fun f => (some f.1, f.2)) = some members :=
    mapM_map_eq_some fun _ _ => rfl
  have hobject : ofMembers members = .object (members.map fun f => (some f.1, f.2)) := rfl
  have hfound : members.filter (fun f => names.contains f.1) = members := by
    refine List.filter_eq_self.2 fun f hf => ?_
    exact List.contains_iff_mem.2 (hsublist.subset (List.mem_map_of_mem hf))
  have hdistinct : (members.map Prod.fst).Nodup := hnodup.sublist hsublist
  rw [hobject, Decoder.fields, hnamed, Option.bind_some, Decoder.known]
  simp only [hfound, hdistinct]
  simp

/-- What stands under a name in the members of a record, for reading it with some depth. -/
structure Holds (fields : Fields) (depth : ℕ) (name : String) (o : Option Json) : Prop where
  lookup : fields.lookup name = o
  nesting_le : ∀ v ∈ o, v.nesting ≤ depth

section Members

variable {α : Type} {read : Decoder α} {write : α → Json} {fields : Fields} {depth : ℕ}
  {name : String}

theorem Codec.need (hcodec : Codec read write) {x : α}
    (h : Holds fields depth name (some (write x))) : fields.need depth name read = some x := by
  rw [Fields.need, h.lookup]
  exact hcodec.recovers depth x (h.nesting_le _ rfl)

theorem Codec.get (hcodec : Codec read write) {x : α}
    (h : Holds fields depth name (some (write x))) (missing : α) :
    fields.get depth name read missing = some x := by
  rw [Fields.get, h.lookup]
  exact hcodec.recovers depth x (h.nesting_le _ rfl)

theorem Codec.getNullable (hcodec : Codec read write) (hnull : ∀ x, write x ≠ .null) {o : Option α}
    (h : Holds fields depth name (o.map write)) :
    fields.get depth name (Decoder.nullable read) none = some o := by
  rw [Fields.get, h.lookup]
  cases o with
  | none => rfl
  | some x =>
      have hread := hcodec.recovers depth x (h.nesting_le _ rfl)
      rw [Option.map_some]
      dsimp only
      rw [Decoder.nullable, hread]
      · rfl
      · exact hnull x

/-- The slot of a list, which is left out when it is empty. -/
def listSlot {α : Type} (write : α → Json) (xs : List α) : Option Json :=
  if xs.isEmpty then none else some (ofList write xs)

theorem forall_mem_listSlot {P : Json → Prop} {xs : List α} (h : P (ofList write xs)) :
    ∀ v ∈ listSlot write xs, P v := by
  intro v hv
  cases xs with
  | nil => cases hv
  | cons x xs =>
      cases hv
      exact h

theorem Codec.getList (hcodec : Codec read write) {xs : List α}
    (h : Holds fields depth name (listSlot write xs)) :
    fields.get depth name (Decoder.list read) [] = some xs := by
  cases xs with
  | nil =>
      rw [Fields.get, h.lookup]
      rfl
  | cons x xs => exact hcodec.list.get h []

end Members

theorem holds_written {slots : List (String × Option Json)} {depth : ℕ}
    (hnodup : (slots.map Prod.fst).Nodup) (hnesting : ∀ f ∈ written slots, f.2.nesting ≤ depth)
    (name : String) : Holds (written slots) depth name (slots.lookup name).join := by
  have hlookup := lookup_written hnodup name
  refine ⟨hlookup, fun v hv => ?_⟩
  rw [← hlookup] at hv
  obtain ⟨before, after, heq, -⟩ := List.lookup_eq_some_iff.1 hv
  exact hnesting (name, v) (by rw [heq]; simp)

/-- **A record is recovered** when it is written from slots and can be rebuilt from what stands in
them. -/
theorem Codec.record {α : Type} {names : List String} {build : ℕ → Fields → Option α}
    {write : α → Json} (slots : α → List (String × Option Json))
    (hwrite : ∀ x, write x = ofMembers (written (slots x)))
    (hnames : ∀ x, (slots x).map Prod.fst = names) (hnodup : names.Nodup)
    (hplain : ∀ x, ∀ slot ∈ slots x, ∀ v ∈ slot.2, Plain v)
    (hbuild : ∀ depth x fields,
      (∀ name, Holds fields depth name ((slots x).lookup name).join) →
      build depth fields = some x) :
    Codec (Decoder.record names false build) write where
  plain x := by
    rw [hwrite]
    refine .object fun m hm => ?_
    obtain ⟨⟨name, v⟩, hmem, rfl⟩ := List.mem_map.1 hm
    exact hplain x (name, some v) (mem_written.1 hmem) v rfl
  recovers depth x hnesting := by
    rw [hwrite] at hnesting ⊢
    have hsublist := map_fst_written_sublist (slots x)
    rw [hnames] at hsublist
    cases depth with
    | zero => exact absurd hnesting (Nat.not_le.2 (nesting_ofMembers_pos _))
    | succ depth =>
        rw [Decoder.record, fields_ofMembers hsublist hnodup, Option.bind_some]
        rw [nesting_ofMembers_le] at hnesting
        exact hbuild depth x _ (holds_written ((hnames x).symm ▸ hnodup) hnesting)

end Ambit.Json
