/-
Tables that are read out and filled again.

A table is read out in the order of its keys.  What is read out has every entry once, so a table
that is filled with it is the same table again.  Most tables keep facts under their own identities;
then the facts alone suffice.

Main results:

* `Ambit.Table.mem_values` — a table is read out with everything that is in it;
* `Ambit.Table.pairwise_values` — in the order of the identities;
* `Ambit.Table.foldl_insert_toList`, `Ambit.Table.foldl_insert_values` — **a table is filled again
  with what was read out of it**.
-/

import Mathlib.Data.List.Basic
import Std.Data.ExtTreeMap

set_option relaxedAutoImplicit false
set_option autoImplicit false

namespace Ambit.Table

variable {ι α : Type} [Ord ι] [Std.TransOrd ι]

/-! ### Reading out -/

theorem values_eq_map_snd (t : Std.ExtTreeMap ι α) : t.values = t.toList.map Prod.snd := by
  have hfold : t.values = t.foldr (fun _ a as => a :: as) [] := rfl
  rw [hfold, Std.ExtTreeMap.foldr_eq_foldr_toList]
  induction t.toList with
  | nil => rfl
  | cons x xs ih => rw [List.foldr_cons, ih, List.map_cons]

variable [Std.LawfulEqOrd ι]

/-- The facts of a table are those under its keys. -/
theorem mem_values {t : Std.ExtTreeMap ι α} {a : α} :
    a ∈ t.values ↔ ∃ i : ι, t[i]? = some a := by
  rw [values_eq_map_snd, List.mem_map]
  constructor
  · rintro ⟨⟨i, b⟩, hmem, rfl⟩
    exact ⟨i, Std.ExtTreeMap.mem_toList_iff_getElem?_eq_some.1 hmem⟩
  · rintro ⟨i, hi⟩
    exact ⟨(i, a), Std.ExtTreeMap.mem_toList_iff_getElem?_eq_some.2 hi, rfl⟩

section Identities

variable {t : Std.ExtTreeMap ι α} {idOf : α → ι} (hid : ∀ i a, t[i]? = some a → idOf a = i)
include hid

theorem mem_values_iff {a : α} : a ∈ t.values ↔ t[idOf a]? = some a := by
  rw [mem_values]
  constructor
  · rintro ⟨i, hi⟩
    rw [hid i a hi]
    exact hi
  · intro ha
    exact ⟨idOf a, ha⟩

/-- The facts of a table are read out in the order of their identities. -/
theorem pairwise_values : t.values.Pairwise fun a b => compare (idOf a) (idOf b) = .lt := by
  have hkeys : t.toList.Pairwise fun x y => compare x.1 y.1 = .lt :=
    Std.ExtTreeMap.ordered_keys_toList
  rw [values_eq_map_snd, List.pairwise_map]
  refine hkeys.imp_of_mem fun {x y} hx hy hxy => ?_
  rw [hid _ _ (Std.ExtTreeMap.mem_toList_iff_getElem?_eq_some.1 hx),
    hid _ _ (Std.ExtTreeMap.mem_toList_iff_getElem?_eq_some.1 hy)]
  exact hxy

end Identities

/-! ### Filling again -/

theorem getElem?_foldl_insert_of_forall_ne {entries : List (ι × α)} {k : ι}
    (h : ∀ e ∈ entries, e.1 ≠ k) (t : Std.ExtTreeMap ι α) :
    (entries.foldl (fun t e => t.insert e.1 e.2) t)[k]? = t[k]? := by
  induction entries generalizing t with
  | nil => rfl
  | cons e entries ih =>
      have hne : e.1 ≠ k := h e (List.mem_cons_self ..)
      rw [List.foldl_cons, ih fun e he => h e (List.mem_cons_of_mem _ he),
        Std.ExtTreeMap.getElem?_insert, if_neg (mt Std.LawfulEqOrd.eq_of_compare hne)]

/-- Filling in entries of different keys puts each of them there. -/
theorem getElem?_foldl_insert_of_mem {entries : List (ι × α)} {k : ι} {a : α}
    (hkeys : entries.Pairwise fun x y => x.1 ≠ y.1) (hmem : (k, a) ∈ entries)
    (t : Std.ExtTreeMap ι α) :
    (entries.foldl (fun t e => t.insert e.1 e.2) t)[k]? = some a := by
  induction entries generalizing t with
  | nil => cases hmem
  | cons e entries ih =>
      obtain ⟨hhead, htail⟩ := List.pairwise_cons.1 hkeys
      rw [List.foldl_cons]
      rcases List.mem_cons.1 hmem with rfl | hmem
      · have hother : ∀ e ∈ entries, e.1 ≠ k := fun e he => (hhead e he).symm
        rw [getElem?_foldl_insert_of_forall_ne hother, Std.ExtTreeMap.getElem?_insert_self]
      · exact ih htail hmem _

/-- **A table is filled again with its entries.** -/
theorem foldl_insert_toList (t : Std.ExtTreeMap ι α) :
    t.toList.foldl (fun u e => u.insert e.1 e.2) (∅ : Std.ExtTreeMap ι α) = t := by
  have hkeys : t.toList.Pairwise fun x y => x.1 ≠ y.1 := by
    refine Std.ExtTreeMap.distinct_keys_toList.imp fun {x y} hxy heq => hxy ?_
    rw [heq]
    exact Std.ReflCmp.compare_self
  refine Std.ExtTreeMap.ext_getElem? fun k => ?_
  cases hk : t[k]? with
  | some a =>
      exact getElem?_foldl_insert_of_mem hkeys
        (Std.ExtTreeMap.mem_toList_iff_getElem?_eq_some.2 hk) _
  | none =>
      have hother : ∀ e ∈ t.toList, e.1 ≠ k := by
        rintro ⟨i, a⟩ he rfl
        rw [Std.ExtTreeMap.mem_toList_iff_getElem?_eq_some.1 he] at hk
        cases hk
      rw [getElem?_foldl_insert_of_forall_ne hother]
      exact Std.ExtTreeMap.getElem?_empty

/-- **A table is filled again with its facts**, when they are kept under their identities. -/
theorem foldl_insert_values {t : Std.ExtTreeMap ι α} {idOf : α → ι}
    (hid : ∀ i a, t[i]? = some a → idOf a = i) :
    t.values.foldl (fun u a => u.insert (idOf a) a) (∅ : Std.ExtTreeMap ι α) = t := by
  rw [values_eq_map_snd, List.foldl_map]
  refine Eq.trans (List.foldl_ext _ _ _ fun u e he => ?_) (foldl_insert_toList t)
  rw [hid _ _ (Std.ExtTreeMap.mem_toList_iff_getElem?_eq_some.1 he)]

end Ambit.Table
