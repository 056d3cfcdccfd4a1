/-
The lists of type parameters.

A symbol has a list of its type parameters.  A type parameter that is inserted is put on the list of
its owner, and this list is sorted anew by the places that its members have then.  The list of an
owner that the type parameter had before is left as it is: a type parameter that was moved to
another owner stays listed for the old one.  So a list has everything that was ever inserted for its
owner, each once.  Those that the owner still has are in the order of their places, whatever became
of the others, and the list is the right one exactly when the owner still has them all.

Main definitions:

* `Ambit.Store.Coherent` — the list of an owner is the right one;
* `Ambit.Store.InPlace` — the order of what an owner still has;
* `Ambit.Store.ListsInserted` — what the lists are after some insertions.

Main results:

* `Ambit.Store.filter_sortedIn` — sorting by places is stable;
* `Ambit.Store.typeParamsOf_insertTypeParam` — what an insertion does to the lists;
* `Ambit.Store.ListsInserted.insertTypeParam` — what one more insertion keeps;
* `Ambit.Store.typeParamsOf_lists_inserted` — **the lists after any insertions, and when they are
  right**;
* `Ambit.Store.typeParamsOf_keeps_moved` — a list that is not.
-/

import Ambit.Store
import Mathlib.Data.List.Induction
import Mathlib.Data.List.Nodup

set_option relaxedAutoImplicit false
set_option autoImplicit false

namespace Ambit.Store

variable {s : Store} {owner : SymbolId}

/-! ### What an insertion does -/

/-- The list of an owner with one more member, which it has once. -/
def withListed (listed : List SymbolId) (id : SymbolId) : List SymbolId :=
  if listed.contains id then listed else listed ++ [id]

theorem mem_withListed {listed : List SymbolId} {id a : SymbolId} :
    a ∈ withListed listed id ↔ a ∈ listed ∨ a = id := by
  rw [withListed]
  split
  · rename_i h
    have hmem : id ∈ listed := List.contains_iff_mem.1 h
    constructor
    · exact Or.inl
    · rintro (ha | rfl)
      · exact ha
      · exact hmem
  · simp

theorem nodup_withListed {listed : List SymbolId} (h : listed.Nodup) (id : SymbolId) :
    (withListed listed id).Nodup := by
  rw [withListed]
  split
  · exact h
  · rename_i hid
    have hnot : id ∉ listed := fun hmem => hid (List.contains_iff_mem.2 hmem)
    refine List.nodup_append.2 ⟨h, List.nodup_singleton id, ?_⟩
    rintro a ha b hb rfl
    obtain rfl := List.mem_singleton.1 hb
    exact hnot ha

/-- Type parameters in the order of the places that a table has for them. -/
def sortedIn (typeParams : SymbolTable TypeParam) (listed : List SymbolId) : List SymbolId :=
  listed.mergeSort fun a b => placeIn typeParams a ≤ placeIn typeParams b

section Places

variable (typeParams : SymbolTable TypeParam)

theorem decide_place_le_trans (a b c : SymbolId)
    (hab : decide (placeIn typeParams a ≤ placeIn typeParams b) = true)
    (hbc : decide (placeIn typeParams b ≤ placeIn typeParams c) = true) :
    decide (placeIn typeParams a ≤ placeIn typeParams c) = true :=
  decide_eq_true (UInt32.le_trans (of_decide_eq_true hab) (of_decide_eq_true hbc))

theorem decide_place_le_total (a b : SymbolId) :
    (decide (placeIn typeParams a ≤ placeIn typeParams b) ||
      decide (placeIn typeParams b ≤ placeIn typeParams a)) = true := by
  simp only [Bool.or_eq_true, decide_eq_true_eq]
  exact UInt32.le_total _ _

end Places

theorem pairwise_sortedIn (typeParams : SymbolTable TypeParam) (listed : List SymbolId) :
    (sortedIn typeParams listed).Pairwise
      fun a b => placeIn typeParams a ≤ placeIn typeParams b := by
  have hsorted : (sortedIn typeParams listed).Pairwise
      fun a b => decide (placeIn typeParams a ≤ placeIn typeParams b) = true :=
    List.pairwise_mergeSort (decide_place_le_trans typeParams) (decide_place_le_total typeParams)
      listed
  exact hsorted.imp of_decide_eq_true

theorem perm_sortedIn (typeParams : SymbolTable TypeParam) (listed : List SymbolId) :
    (sortedIn typeParams listed).Perm listed := List.mergeSort_perm _ _

/-- What has one place keeps its order. -/
theorem filter_sortedIn (typeParams : SymbolTable TypeParam) (listed : List SymbolId)
    (place : UInt32) :
    (sortedIn typeParams listed).filter (fun a => placeIn typeParams a == place) =
      listed.filter fun a => placeIn typeParams a == place := by
  have htied : (listed.filter fun a => placeIn typeParams a == place).Pairwise
      fun a b => decide (placeIn typeParams a ≤ placeIn typeParams b) = true := by
    refine List.pairwise_of_forall_mem_list ?_
    intro a ha b hb
    simp only [List.mem_filter, beq_iff_eq] at ha hb
    rw [ha.2, hb.2]
    exact decide_eq_true (UInt32.le_refl place)
  have hsublist : (listed.filter fun a => placeIn typeParams a == place).Sublist
      (sortedIn typeParams listed) :=
    List.sublist_mergeSort (decide_place_le_trans typeParams) (decide_place_le_total typeParams)
      htied List.filter_sublist
  have hlength := ((perm_sortedIn typeParams listed).filter
    fun a => placeIn typeParams a == place).length_eq
  have hfiltered := hsublist.filter fun a => placeIn typeParams a == place
  rw [List.filter_filter] at hfiltered
  simp only [Bool.and_self] at hfiltered
  exact (hfiltered.eq_of_length hlength.symm).symm

theorem placeIn_eq {typeParams : SymbolTable TypeParam} {id : SymbolId} {p : TypeParam}
    (h : typeParams[id]? = some p) : placeIn typeParams id = p.ordinal := by
  rw [placeIn, h]

theorem typeParams_insertTypeParam (s : Store) (p : TypeParam) (id : SymbolId) :
    (s.insertTypeParam p).typeParams[id]? = if p.id = id then some p else s.typeParams[id]? := by
  rw [insertTypeParam, Std.ExtTreeMap.getElem?_insert]
  exact if_congr Std.LawfulEqCmp.compare_eq_iff_eq rfl rfl

/-- **What an insertion does to the lists**: the list of the owner gets the type parameter and is
sorted anew, and the other lists stay as they are. -/
theorem typeParamsOf_insertTypeParam (s : Store) (p : TypeParam) (owner : SymbolId) :
    (s.insertTypeParam p).typeParamsOf owner =
      if p.owner = owner then
        sortedIn (s.insertTypeParam p).typeParams (withListed (s.typeParamsOf owner) p.id)
      else s.typeParamsOf owner := by
  rw [typeParamsOf, insertTypeParam, Std.ExtTreeMap.getD_insert]
  by_cases h : p.owner = owner
  · rw [if_pos h, if_pos (Std.LawfulEqCmp.compare_eq_iff_eq.2 h), ← h]
    rfl
  · rw [if_neg h, if_neg (mt Std.LawfulEqCmp.compare_eq_iff_eq.1 h)]
    rfl

theorem nodup_insertTypeParam (h : (s.typeParamsOf owner).Nodup) (p : TypeParam) :
    ((s.insertTypeParam p).typeParamsOf owner).Nodup := by
  rw [typeParamsOf_insertTypeParam]
  split
  · exact (perm_sortedIn _ _).nodup_iff.2 (nodup_withListed h p.id)
  · exact h

/-! ### Runs of insertions -/

/-- The list of an owner is the right one: it has exactly the type parameters of the owner, each
once, and in the order of their places. -/
structure Coherent (s : Store) (owner : SymbolId) : Prop where
  mem_iff : ∀ id, id ∈ s.typeParamsOf owner ↔ ∃ p, s.typeParams[id]? = some p ∧ p.owner = owner
  nodup : (s.typeParamsOf owner).Nodup
  ordered : (s.typeParamsOf owner).Pairwise fun a b => ∀ p q,
    s.typeParams[a]? = some p → s.typeParams[b]? = some q → p.ordinal ≤ q.ordinal

/-- Two type parameters are in the order of their places, if the owner still has both. -/
def InPlace (s : Store) (owner a b : SymbolId) : Prop :=
  ∀ p q, s.typeParams[a]? = some p → s.typeParams[b]? = some q →
    p.owner = owner → q.owner = owner → p.ordinal ≤ q.ordinal

/-- What the lists are after type parameters were inserted one after the other. -/
structure ListsInserted (params : List TypeParam) (s : Store) : Prop where
  /-- What is stored was inserted under its number. -/
  inserted : ∀ id p, s.typeParams[id]? = some p → p ∈ params ∧ p.id = id
  mem_iff : ∀ owner id, id ∈ s.typeParamsOf owner ↔ ∃ p ∈ params, p.id = id ∧ p.owner = owner
  nodup : ∀ owner, (s.typeParamsOf owner).Nodup
  inPlace : ∀ owner, (s.typeParamsOf owner).Pairwise (s.InPlace owner)

theorem listsInserted_empty : ListsInserted [] empty where
  inserted := by simp [empty]
  mem_iff := by simp [typeParamsOf, empty]
  nodup := by simp [typeParamsOf, empty]
  inPlace := by simp [typeParamsOf, empty]

/-- Type parameters of an owner are in the same order after something was inserted for another. -/
theorem InPlace.insertTypeParam_of_ne {p : TypeParam} (hne : p.owner ≠ owner) {a b : SymbolId}
    (h : s.InPlace owner a b) : (s.insertTypeParam p).InPlace owner a b := by
  -- what the owner still has is not what was inserted, so it is stored as before
  have hkept : ∀ {id : SymbolId} {q : TypeParam}, (s.insertTypeParam p).typeParams[id]? = some q →
      q.owner = owner → s.typeParams[id]? = some q := by
    intro id q hq howner
    rw [typeParams_insertTypeParam] at hq
    split at hq
    · cases hq
      exact absurd howner hne
    · exact hq
  intro q r hq hr hqowner hrowner
  exact h q r (hkept hq hqowner) (hkept hr hrowner) hqowner hrowner

/-- **What one more insertion keeps.** -/
theorem ListsInserted.insertTypeParam {params : List TypeParam} (h : ListsInserted params s)
    (p : TypeParam) : ListsInserted (params ++ [p]) (s.insertTypeParam p) where
  inserted := by
    intro id q hq
    rw [typeParams_insertTypeParam] at hq
    split at hq
    · rename_i hid
      cases hq
      exact ⟨by simp, hid⟩
    · obtain ⟨hmem, hid⟩ := h.inserted id q hq
      exact ⟨List.mem_append_left _ hmem, hid⟩
  mem_iff := by
    intro owner id
    have hsplit : (∃ q ∈ params ++ [p], q.id = id ∧ q.owner = owner) ↔
        id ∈ s.typeParamsOf owner ∨ (p.id = id ∧ p.owner = owner) := by
      rw [h.mem_iff]
      simp only [List.mem_append, List.mem_singleton, or_and_right, exists_or, exists_eq_left]
    rw [typeParamsOf_insertTypeParam, hsplit]
    split
    · rename_i howner
      rw [(perm_sortedIn _ _).mem_iff, mem_withListed]
      simp only [howner, and_true, eq_comm]
    · rename_i howner
      simp only [howner, and_false, or_false]
  nodup owner := nodup_insertTypeParam (h.nodup owner) p
  inPlace := by
    intro owner
    rw [typeParamsOf_insertTypeParam]
    split
    · -- the list was sorted by the places that are stored now
      refine (pairwise_sortedIn _ _).imp fun hab q r hq hr _ _ => ?_
      rw [placeIn_eq hq, placeIn_eq hr] at hab
      exact hab
    · rename_i hne
      exact (h.inPlace owner).imp (InPlace.insertTypeParam_of_ne hne)

theorem listsInserted_foldl (params : List TypeParam) :
    ListsInserted params (params.foldl insertTypeParam empty) := by
  induction params using List.reverseRecOn with
  | nil => exact listsInserted_empty
  | append_singleton params p ih =>
      rw [List.foldl_append]
      exact ih.insertTypeParam p

/-- A list is the right one exactly when the owner still has everything that was inserted for it. -/
theorem ListsInserted.coherent_iff {params : List TypeParam} (h : ListsInserted params s) :
    s.Coherent owner ↔
      ∀ p ∈ params, p.owner = owner → ∃ q, s.typeParams[p.id]? = some q ∧ q.owner = owner := by
  constructor
  · intro hcoherent p hp howner
    exact (hcoherent.mem_iff p.id).1 ((h.mem_iff owner p.id).2 ⟨p, hp, rfl, howner⟩)
  · intro hkept
    have hmem : ∀ id, id ∈ s.typeParamsOf owner ↔
        ∃ p, s.typeParams[id]? = some p ∧ p.owner = owner := by
      intro id
      rw [h.mem_iff]
      constructor
      · rintro ⟨p, hp, rfl, howner⟩
        exact hkept p hp howner
      · rintro ⟨p, hp, howner⟩
        obtain ⟨hin, hid⟩ := h.inserted id p hp
        exact ⟨p, hin, hid, howner⟩
    refine ⟨hmem, h.nodup owner, (h.inPlace owner).imp_of_mem ?_⟩
    intro a b ha hb hab p q hp hq
    obtain ⟨p', hp', hpowner⟩ := (hmem a).1 ha
    obtain ⟨q', hq', hqowner⟩ := (hmem b).1 hb
    rw [hp] at hp'
    rw [hq] at hq'
    cases hp'
    cases hq'
    exact hab p q hp hq hpowner hqowner

/-- **The lists after any insertions, and when they are right.**  The list of an owner has exactly
what was ever inserted for it, each once, and what the owner still has is in the order of its
places.  It is the right list exactly when nothing that was inserted for the owner was moved to
another one. -/
theorem typeParamsOf_lists_inserted (params : List TypeParam) (owner : SymbolId) :
    let s := params.foldl insertTypeParam empty
    (∀ id, id ∈ s.typeParamsOf owner ↔ ∃ p ∈ params, p.id = id ∧ p.owner = owner) ∧
      (s.typeParamsOf owner).Nodup ∧
      (s.typeParamsOf owner).Pairwise (s.InPlace owner) ∧
      (s.Coherent owner ↔
        ∀ p ∈ params, p.owner = owner → ∃ q, s.typeParams[p.id]? = some q ∧ q.owner = owner) := by
  intro s
  have h : ListsInserted params s := listsInserted_foldl params
  exact ⟨h.mem_iff owner, h.nodup owner, h.inPlace owner, h.coherent_iff⟩

/-- A type parameter that is inserted for one owner and then for another. -/
def movedParam : Store :=
  [{ id := ⟨0⟩, owner := ⟨1⟩, ordinal := 0 }, { id := ⟨0⟩, owner := ⟨2⟩, ordinal := 0 }]
    |>.foldl insertTypeParam empty

/-- It stays on the list of the first owner, which does not have it any more. -/
theorem typeParamsOf_keeps_moved :
    movedParam.typeParamsOf ⟨1⟩ = [⟨0⟩] ∧
      movedParam.typeParams[(⟨0⟩ : SymbolId)]? =
        some { id := ⟨0⟩, owner := ⟨2⟩, ordinal := 0 } ∧
      ¬ movedParam.Coherent ⟨1⟩ := by
  have hlisted : movedParam.typeParamsOf ⟨1⟩ = [⟨0⟩] := by cbv
  have hstored : movedParam.typeParams[(⟨0⟩ : SymbolId)]? =
      some { id := ⟨0⟩, owner := ⟨2⟩, ordinal := 0 } := rfl
  refine ⟨hlisted, hstored, fun hcoherent => ?_⟩
  obtain ⟨p, hp, howner⟩ := (hcoherent.mem_iff ⟨0⟩).1 (by rw [hlisted]; simp)
  rw [hstored] at hp
  cases hp
  exact absurd howner (by decide)

end Ambit.Store
