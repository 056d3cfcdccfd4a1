/-
The bound on the search for supertypes is never reached.

The types on the way of the search have different definitions.  Those whose definition is declared
are at most as many as there are declarations.  A type without a declaration leads nowhere but to
the root of all types, which is on the way at most once; so at most one such type stands before the
root, and at most one more at the very end.  Hence the way is never longer than the bound allows,
and the bounded search does what the unbounded one does.

Main definitions:

* `Ambit.Store.headsOf` — the definitions of some types;
* `Ambit.Store.Trail` — the ways that the search can take.

Main results:

* `Ambit.Store.Trail.length_lt` — **every way is shorter than the bound**;
* `Ambit.Store.gathers_supertypes` — **the supertypes are what the unbounded search finds**.
-/

import Ambit.Proofs.Answer
import Ambit.Proofs.Lineage.NormalForm
import Ambit.Proofs.Lineage.Search
import Mathlib.Data.List.Count
import Mathlib.Data.List.Perm.Subperm

set_option relaxedAutoImplicit false
set_option autoImplicit false

namespace Ambit.Store

variable {s : Store}

/-! ### Normal forms -/

theorem normalize_of_leads {t u : TypeRef} (h : s.Leads t u) : s.normalize u = u := by
  obtain ⟨v, -, rfl⟩ := List.mem_map.1 h
  exact normalize_normalize v

/-! ### Types without a declaration -/

def isDeclared (s : Store) (t : TypeRef) : Bool :=
  match t.head? with
  | some d => s.types.contains d || s.typeParams.contains d
  | none => false

theorem eq_plain_of_mem_plainWellKnown {kind : WellKnown} {u : TypeRef}
    (h : u ∈ (s.plainWellKnown? kind).toList.map s.normalize) :
    ∃ root, s.wellKnown[kind]? = some root ∧ u = .plain root := by
  rw [plainWellKnown?] at h
  cases hroot : s.wellKnown[kind]? with
  | none => simp [hroot] at h
  | some root =>
      rw [hroot] at h
      exact ⟨root, rfl, List.mem_singleton.1 h⟩

/-- A type in normal form without a declaration leads to the root of all types at most. -/
theorem eq_root_of_leads {t u : TypeRef} (hnormal : s.normalize t = t)
    (hdeclared : s.isDeclared t = false) (h : s.Leads t u) :
    ∃ root, s.wellKnown[WellKnown.object]? = some root ∧ u = .plain root := by
  rw [Leads, supers, directSupertypes, hnormal] at h
  cases t with
  | named d args =>
      simp only [isDeclared, TypeRef.head?, Bool.or_eq_false_iff] at hdeclared
      rw [supertypesOfNormal, Std.ExtTreeMap.getElem?_eq_none_of_contains_eq_false hdeclared.1] at h
      simp at h
  | param p =>
      simp only [isDeclared, TypeRef.head?, Bool.or_eq_false_iff] at hdeclared
      have hnone : s.typeParams[p]? = none :=
        Std.ExtTreeMap.getElem?_eq_none_of_contains_eq_false hdeclared.2
      rw [supertypesOfNormal, paramSupertypes] at h
      simp only [hnone, isValueType] at h
      exact eq_plain_of_mem_plainWellKnown h
  | nullable t => simp [supertypesOfNormal] at h
  | array t r => exact eq_plain_of_mem_plainWellKnown h
  | unresolved => simp [supertypesOfNormal] at h

/-! ### The way of the search -/

/-- The definitions of some types. -/
def headsOf (ts : List TypeRef) : List SymbolId := ts.filterMap TypeRef.head?

theorem headsOf_cons (t : TypeRef) (ts : List TypeRef) :
    headsOf (t :: ts) = t.head?.toList ++ headsOf ts := by
  rw [headsOf, List.filterMap_cons]
  cases t.head? <;> rfl

theorem length_headsOf_filter (ts : List TypeRef) :
    (headsOf (ts.filter s.isDeclared)).length = ts.countP s.isDeclared := by
  induction ts with
  | nil => rfl
  | cons t ts ih =>
      cases hdeclared : s.isDeclared t with
      | false =>
          rw [List.filter_cons_of_neg (by simp [hdeclared]),
            List.countP_cons_of_neg (by simp [hdeclared]), ih]
      | true =>
          rw [List.filter_cons_of_pos hdeclared, List.countP_cons_of_pos hdeclared, headsOf_cons]
          rw [isDeclared] at hdeclared
          split at hdeclared
          · rename_i d hd
            simp [hd, ih]
          · cases hdeclared

/-- The ways that the search can take: from the last type on the way, which comes first in the list,
a step leads to the next type, and no definition stands on the way twice. -/
inductive Trail (s : Store) : List TypeRef → TypeRef → Prop where
  | start {t} (hnormal : s.normalize t = t) : Trail s [] t
  | step {way t u} (trail : Trail s way t) (hpath : t.OffPath (headsOf way)) (hu : s.Leads t u) :
      Trail s (t :: way) u

namespace Trail

variable {way : List TypeRef} {u : TypeRef}

theorem normal (h : s.Trail way u) : s.normalize u = u := by
  cases h with
  | start hnormal => exact hnormal
  | step _ _ hu => exact normalize_of_leads hu

theorem nodup_headsOf (h : s.Trail way u) : (headsOf way).Nodup := by
  induction h with
  | start => simp [headsOf]
  | @step way t u _ hpath _ ih =>
      rw [headsOf_cons]
      cases hhead : t.head? with
      | none => simpa using ih
      | some d => simpa using ⟨hpath d hhead, ih⟩

/-- There are at most as many declared types on a way as there are declarations. -/
theorem countP_isDeclared_le (h : s.Trail way u) :
    way.countP s.isDeclared ≤ s.types.size + s.typeParams.size := by
  -- the definitions of the declared types on the way are different keys of the two tables
  have hsub : headsOf (way.filter s.isDeclared) ⊆ s.types.keys ++ s.typeParams.keys := by
    intro d hd
    obtain ⟨t, ht, hd⟩ := List.mem_filterMap.1 hd
    have hdeclared := (List.mem_filter.1 ht).2
    rw [isDeclared, hd, Bool.or_eq_true] at hdeclared
    rw [List.mem_append, Std.ExtTreeMap.mem_keys, Std.ExtTreeMap.mem_keys]
    exact hdeclared
  have hnodup : (headsOf (way.filter s.isDeclared)).Nodup :=
    h.nodup_headsOf.sublist (List.filter_sublist.filterMap _)
  calc way.countP s.isDeclared = (headsOf (way.filter s.isDeclared)).length :=
        (length_headsOf_filter way).symm
    _ ≤ (s.types.keys ++ s.typeParams.keys).length := (hnodup.subperm hsub).length_le
    _ = s.types.size + s.typeParams.size := by
        rw [List.length_append, Std.ExtTreeMap.length_keys, Std.ExtTreeMap.length_keys]

/-- Every type without a declaration on a way stands right before the root of all types. -/
theorem countP_not_isDeclared_le (h : s.Trail way u) {root : SymbolId}
    (hroot : s.wellKnown[WellKnown.object]? = some root) :
    way.countP (fun t => !s.isDeclared t) ≤
      (headsOf way).count root + if u = .plain root then 1 else 0 := by
  induction h with
  | start => simp
  | @step way t u trail hpath hu ih =>
      -- a step counts the root as soon as it is left; until then the last type stands for it
      have hcount : (headsOf way).count root + (if t = .plain root then 1 else 0) ≤
          (headsOf (t :: way)).count root := by
        rw [headsOf_cons, List.count_append, Nat.add_comm]
        refine Nat.add_le_add_right ?_ _
        split
        · rename_i ht
          rw [ht]
          simp [TypeRef.plain, TypeRef.head?]
        · exact Nat.zero_le _
      cases hdeclared : s.isDeclared t with
      | true =>
          rw [List.countP_cons_of_neg (by simp [hdeclared])]
          omega
      | false =>
          obtain ⟨root', hroot', rfl⟩ := eq_root_of_leads trail.normal hdeclared hu
          rw [hroot] at hroot'
          cases hroot'
          rw [List.countP_cons_of_pos (by simp [hdeclared]), if_pos rfl]
          omega

/-- There are at most two types without a declaration on a way. -/
theorem countP_not_isDeclared_le_two (h : s.Trail way u) :
    way.countP (fun t => !s.isDeclared t) ≤ 2 := by
  cases hroot : s.wellKnown[WellKnown.object]? with
  | none =>
      -- without a root no step leads away from a type without a declaration
      induction h with
      | start => simp
      | @step way t u trail hpath hu ih =>
          cases hdeclared : s.isDeclared t with
          | true =>
              rw [List.countP_cons_of_neg (by simp [hdeclared])]
              exact ih
          | false =>
              obtain ⟨root, hroot', -⟩ := eq_root_of_leads trail.normal hdeclared hu
              rw [hroot] at hroot'
              cases hroot'
  | some root =>
      have hle := h.countP_not_isDeclared_le hroot
      have honce := List.nodup_iff_count_le_one.1 h.nodup_headsOf root
      split at hle <;> omega

/-- **Every way is shorter than the bound.** -/
theorem length_lt (h : s.Trail way u) : way.length < s.lineageBound := by
  have hdeclared := h.countP_isDeclared_le
  have hother := h.countP_not_isDeclared_le_two
  have hlength : way.length = _ := List.length_eq_countP_add_countP s.isDeclared
  simp only [Bool.not_eq_true, Bool.decide_eq_false] at hlength
  rw [lineageBound]
  omega

end Trail

/-! ### The bounded search -/

theorem Gathers.cons {path : List SymbolId} {found more ts : List TypeRef} {t : TypeRef}
    {result : Answer (List TypeRef)} (h : s.Gathers path found [t] (.ok more))
    (later : s.Gathers path more ts result) : s.Gathers path found (t :: ts) result := by
  cases h with
  | known hpath hfound hdone =>
      cases hdone
      exact .known hpath hfound later
  | fresh hpath hfound above hdone =>
      cases hdone
      exact .fresh hpath hfound above later

/-- When visiting one type fails, visiting it before others fails. -/
theorem Gathers.cons_error {path : List SymbolId} {found : List TypeRef} {t : TypeRef}
    {fault : Fault} (h : s.Gathers path found [t] (.error fault)) (ts : List TypeRef) :
    s.Gathers path found (t :: ts) (.error fault) := by
  cases h with
  | cycle hd hpath => exact .cycle hd hpath
  | known _ _ hdone => cases hdone
  | broken hpath hfound above => exact .broken hpath hfound above
  | fresh _ _ _ hdone => cases hdone

/-- Visiting types one after the other is the search, if visiting each of them is. -/
theorem gathers_foldlM {path : List SymbolId}
    {visit : List TypeRef → TypeRef → Answer (List TypeRef)} {ts : List TypeRef}
    (hvisit : ∀ t ∈ ts, ∀ found, s.Gathers path found [t] (visit found t))
    (found : List TypeRef) : s.Gathers path found ts (ts.foldlM visit found) := by
  induction ts generalizing found with
  | nil => exact .done
  | cons t ts ih =>
      have ht := hvisit t (List.mem_cons_self ..) found
      rw [List.foldlM_cons]
      cases hresult : visit found t with
      | error fault =>
          rw [hresult] at ht
          exact ht.cons_error ts
      | ok more =>
          rw [hresult] at ht
          exact ht.cons (ih (fun u hu => hvisit u (List.mem_cons_of_mem _ hu)) more)

/-- With as many steps left as the bound allows after the way taken, the bounded search is the
unbounded one. -/
theorem gathers_gatherSupertypes {fuel : ℕ} {way found : List TypeRef} {t : TypeRef}
    (trail : s.Trail way t) (hfuel : s.lineageBound ≤ fuel + way.length) :
    s.Gathers (headsOf way) found [t] (s.gatherSupertypes fuel (headsOf way) found t) := by
  -- the steps left and the length of the way always add up to the bound, which no way reaches
  induction fuel generalizing way found t with
  | zero =>
      have hlength := trail.length_lt
      omega
  | succ fuel ih =>
      rw [gatherSupertypes]
      cases hhead : t.head?.filter (headsOf way).contains with
      | some d =>
          obtain ⟨hd, hmem⟩ := Option.filter_eq_some_iff.1 hhead
          exact .cycle hd (List.contains_iff_mem.1 hmem)
      | none =>
          have hpath : t.OffPath (headsOf way) := by
            intro d hd hmem
            have hnot := Option.filter_eq_none_iff.1 hhead d hd
            exact hnot (List.contains_iff_mem.2 hmem)
          dsimp only
          split
          · rename_i hfound
            exact .known hpath (List.contains_iff_mem.1 hfound) .done
          · rename_i hfound
            rw [List.contains_iff_mem] at hfound
            have above : s.Gathers (t.head?.toList ++ headsOf way) (found ++ [t]) (s.supers t)
                ((s.supers t).foldlM (s.gatherSupertypes fuel (t.head?.toList ++ headsOf way))
                  (found ++ [t])) := by
              refine gathers_foldlM (fun u hu more => ?_) _
              rw [← headsOf_cons]
              refine ih (.step trail hpath hu) ?_
              rw [List.length_cons]
              omega
            rw [← supers]
            cases hresult : (s.supers t).foldlM
                (s.gatherSupertypes fuel (t.head?.toList ++ headsOf way)) (found ++ [t]) with
            | error fault =>
                rw [hresult] at above
                exact .broken hpath hfound above
            | ok more =>
                rw [hresult] at above
                exact .fresh hpath hfound above .done

/-- **The supertypes are what the unbounded search finds.** -/
theorem gathers_supertypes (s : Store) (t : TypeRef) :
    s.Gathers [] [] [s.normalize t] (s.supertypes .quiet t) :=
  gathers_gatherSupertypes (.start (normalize_normalize t)) (Nat.le_add_right ..)

theorem gathers_of_supertypes {signal : Signal} {t : TypeRef} {all : List TypeRef}
    (h : s.supertypes signal t = .ok all) : s.Gathers [] [] [s.normalize t] (.ok all) := by
  obtain ⟨_, hcheck, -⟩ := Answer.bind_eq_ok.1 h
  obtain rfl := Signal.eq_quiet_of_check hcheck
  exact h ▸ gathers_supertypes s t

end Ambit.Store
