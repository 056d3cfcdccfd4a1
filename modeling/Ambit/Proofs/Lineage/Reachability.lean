/-
The supertypes of a type are the types that it reaches.

The search for supertypes comes to an end whatever the declarations say.  When it succeeds, it has
found exactly the types that are reached from the normal form of the type, each once and the type
itself first.  When it fails, a walk from the type meets a definition twice.

A search that succeeds does not prove that no type comes from itself.  Only definitions are watched
on the path, and an array has none: where the root of all types comes from an array, a search that
enters this cycle at the array passes over the array when it meets it again.  This is the only way:
among the types that are found, one reaches itself exactly when the root of all types reaches an
array among them.

Main results:

* `Ambit.Store.Gathers.mem_iff` — the search finds exactly what is reached;
* `Ambit.Store.Gathers.exists_cycle_iff` — when a search that succeeds has passed over a cycle;
* `Ambit.Store.supertypes_reachable` — **the search for supertypes, exactly**;
* `Ambit.Store.supertypes_passes_over_cycle` — a cycle that is passed over.
-/

import Ambit.Proofs.Lineage.Bound

set_option relaxedAutoImplicit false
set_option autoImplicit false

namespace Ambit.Store

variable {s : Store} {start : TypeRef} {all : List TypeRef}

/-! ### What is found -/

/-- **The search finds exactly what is reached.** -/
theorem Gathers.mem_iff (h : s.Gathers [] [] [start] (.ok all)) {u : TypeRef} :
    u ∈ all ↔ Relation.ReflTransGen s.Leads start u := by
  constructor
  · intro hu
    rcases h.sound rfl u hu with hu | ⟨t, ht, hreach⟩
    · simp at hu
    · obtain rfl := List.mem_singleton.1 ht
      exact hreach
  · intro hreach
    induction hreach with
    | refl => exact h.visited rfl start (List.mem_singleton_self _)
    | tail _ hstep ih => exact h.closed rfl _ ih (by simp) _ hstep

/-- The supertypes of a type are the types that its normal form reaches. -/
theorem mem_supertypes_iff {signal : Signal} {t u : TypeRef}
    (h : s.supertypes signal t = .ok all) :
    u ∈ all ↔ Relation.ReflTransGen s.Leads (s.normalize t) u :=
  (gathers_of_supertypes h).mem_iff

theorem Gathers.head?_eq (h : s.Gathers [] [] [start] (.ok all)) : all.head? = some start := by
  cases h with
  | known _ hfound _ => simp at hfound
  | fresh _ _ above later =>
      cases later
      obtain ⟨rest, hrest⟩ := above.found_le rfl
      rw [← hrest]
      rfl

theorem normalize_of_reaches (hstart : s.normalize start = start) {u : TypeRef}
    (h : Relation.ReflTransGen s.Leads start u) : s.normalize u = u := by
  cases h with
  | refl => exact hstart
  | tail _ hstep => exact normalize_of_leads hstep

/-! ### Cycles that are passed over -/

/-- A type in normal form that has no definition and leads to another type is an array, and leads to
the root of all types. -/
theorem exists_array_of_leads {t u : TypeRef} (hnormal : s.normalize t = t)
    (hhead : t.head? = none) (h : s.Leads t u) :
    (∃ element rank, t = .array element rank) ∧
      ∃ root, s.wellKnown[WellKnown.object]? = some root ∧ u = .plain root := by
  refine ⟨?_, eq_root_of_leads hnormal (by rw [isDeclared, hhead]) h⟩
  rw [Leads, supers, directSupertypes, hnormal] at h
  cases t with
  | named d args => cases hhead
  | param p => cases hhead
  | nullable t => simp [supertypesOfNormal] at h
  | array element rank => exact ⟨element, rank, rfl⟩
  | unresolved => simp [supertypesOfNormal] at h

theorem supers_array {root : SymbolId} (hroot : s.wellKnown[WellKnown.object]? = some root)
    (element : TypeRef) (rank : UInt32) : s.supers (.array element rank) = [.plain root] := by
  have hsupers : s.supers (.array element rank) =
      (s.plainWellKnown? .object).toList.map s.normalize := rfl
  rw [hsupers, plainWellKnown?, hroot]
  rfl

theorem leads_array {root : SymbolId} (hroot : s.wellKnown[WellKnown.object]? = some root)
    (element : TypeRef) (rank : UInt32) : s.Leads (.array element rank) (.plain root) := by
  rw [Leads, supers_array hroot]
  exact List.mem_singleton_self _

/-- A walk between two ends, all of whose types have some property. -/
theorem transGen_and {r : TypeRef → TypeRef → Prop} {P : TypeRef → Prop} {t u : TypeRef}
    (h : Relation.TransGen r t u)
    (hP : ∀ v, Relation.TransGen r t v → Relation.ReflTransGen r v u → P v) :
    Relation.TransGen (fun a b => r a b ∧ P b) t u := by
  induction h with
  | single hstep => exact .single ⟨hstep, hP _ (.single hstep) .refl⟩
  | tail htb hstep ih =>
      refine (ih fun v htv hvb => hP v htv (hvb.tail hstep)).tail ⟨hstep, ?_⟩
      exact hP _ (htb.tail hstep) .refl

/-- Of the types on a cycle that is found, the one that is found first has no definition. -/
theorem Gathers.exists_first_on_cycle (h : s.Gathers [] [] [start] (.ok all)) {u : TypeRef}
    (hu : u ∈ all) (hcycle : Relation.TransGen s.Leads u u) :
    ∃ v ∈ all, v.head? = none ∧ Relation.TransGen s.Leads v v := by
  classical
  -- the first of the types that `u` reaches and that reach `u`
  let OnCycle : TypeRef → Prop := fun v =>
    Relation.ReflTransGen s.Leads u v ∧ Relation.ReflTransGen s.Leads v u
  obtain ⟨v, hv⟩ : ∃ v, all.find? (fun v => decide (OnCycle v)) = some v := by
    rw [← Option.isSome_iff_exists, List.find?_isSome]
    exact ⟨u, hu, decide_eq_true ⟨.refl, .refl⟩⟩
  obtain ⟨hvcycle, before, after, hall, hbefore⟩ := List.find?_eq_some_iff_append.1 hv
  obtain ⟨huv, hvu⟩ := of_decide_eq_true hvcycle
  have hreturn : Relation.TransGen s.Leads v v := (hcycle.trans_left huv).trans_right hvu
  refine ⟨v, by simp [hall], ?_, hreturn⟩
  -- the cycle through `v` does not touch the types found before it
  have hlate : Relation.TransGen (fun a b => s.Leads a b ∧ b ∉ before) v v := by
    refine transGen_and hreturn fun w hvw hwv hw => ?_
    have hnot := hbefore w hw
    simp only [Bool.not_eq_true', decide_eq_false_iff_not] at hnot
    exact hnot ⟨huv.trans hvw.to_reflTransGen, hwv.trans hvu⟩
  by_contra hhead
  exact h.no_return rfl hall List.nil_prefix (Option.isSome_iff_ne_none.2 hhead) rfl hlate

/-- **When a search that succeeds has passed over a cycle**: exactly when the root of all types
reaches an array that was found. -/
theorem Gathers.exists_cycle_iff (h : s.Gathers [] [] [start] (.ok all))
    (hstart : s.normalize start = start) :
    (∃ u ∈ all, Relation.TransGen s.Leads u u) ↔
      ∃ root element rank, s.wellKnown[WellKnown.object]? = some root ∧
        TypeRef.array element rank ∈ all ∧
        Relation.ReflTransGen s.Leads (.plain root) (.array element rank) := by
  constructor
  · rintro ⟨u, hu, hcycle⟩
    obtain ⟨v, hv, hhead, hreturn⟩ := h.exists_first_on_cycle hu hcycle
    obtain ⟨w, hstep, hwv⟩ := Relation.TransGen.head'_iff.1 hreturn
    obtain ⟨⟨element, rank, rfl⟩, root, hroot, rfl⟩ :=
      exists_array_of_leads (normalize_of_reaches hstart (h.mem_iff.1 hv)) hhead hstep
    exact ⟨root, element, rank, hroot, hv, hwv⟩
  · rintro ⟨root, element, rank, hroot, hmem, hreach⟩
    exact ⟨_, hmem, Relation.TransGen.head'_iff.2 ⟨_, leads_array hroot element rank, hreach⟩⟩

/-! ### The search for supertypes, exactly -/

/-- **The search for supertypes, exactly.**  It comes to an end.  When it succeeds, it has found the
types that are reached from the normal form of the type, each once and that one first; and one of
them reaches itself exactly when the root of all types reaches an array among them.  When it fails,
a walk from the normal form meets a definition twice. -/
theorem supertypes_reachable (s : Store) (t : TypeRef) :
    s.Gathers [] [] [s.normalize t] (s.supertypes .quiet t) ∧
      match s.supertypes .quiet t with
      | .ok all =>
          all.head? = some (s.normalize t) ∧ all.Nodup ∧
            (∀ u, u ∈ all ↔ Relation.ReflTransGen s.Leads (s.normalize t) u) ∧
            ((∃ u ∈ all, Relation.TransGen s.Leads u u) ↔
              ∃ root element rank, s.wellKnown[WellKnown.object]? = some root ∧
                TypeRef.array element rank ∈ all ∧
                Relation.ReflTransGen s.Leads (.plain root) (.array element rank))
      | .error fault =>
          ∃ d, fault = .breach (.inheritanceCycle (s.nameOf d) d) ∧ ∃ walk : List TypeRef,
            walk.head? = some (s.normalize t) ∧ walk.IsChain s.Leads ∧
              2 ≤ (walk.filterMap TypeRef.head?).count d := by
  have h := gathers_supertypes s t
  refine ⟨h, ?_⟩
  split
  · rename_i all hall
    rw [hall] at h
    exact ⟨h.head?_eq, h.nodup rfl List.nodup_nil, fun u => h.mem_iff,
      h.exists_cycle_iff (normalize_normalize t)⟩
  · rename_i fault hfault
    rw [hfault] at h
    obtain ⟨d, hd, walk, ⟨u, hu, hwalk⟩, hchain, hcount⟩ := h.repeats rfl
    obtain rfl := List.mem_singleton.1 hu
    exact ⟨d, hd, walk, hwalk, hchain, hcount⟩

/-- A root of all types that is declared to come from an array. -/
def arrayRoot : Store :=
  empty.insertSymbol { id := ⟨0⟩, kind := .type, name := "Object", scope := ⟨0⟩ }
    |>.insertType { id := ⟨0⟩, kind := .classType, base := some (.array (.plain ⟨0⟩) 1) }
    |>.register .object ⟨0⟩

/-- A search that starts at the array succeeds, although the array reaches itself. -/
theorem supertypes_passes_over_cycle :
    arrayRoot.supertypes .quiet (.array (.plain ⟨0⟩) 1) =
        .ok [.array (.plain ⟨0⟩) 1, .plain ⟨0⟩] ∧
      Relation.TransGen arrayRoot.Leads (.array (.plain ⟨0⟩) 1) (.array (.plain ⟨0⟩) 1) := by
  refine ⟨rfl, .tail (.single (b := .plain ⟨0⟩) ?_) ?_⟩
  · exact List.mem_singleton_self _
  · exact List.mem_singleton_self _

end Ambit.Store
