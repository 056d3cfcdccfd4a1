/-
Derivation is a partial order.

A type derives from the types that its normal form reaches, so every type derives from itself, and
what a base derives from, the type derives from.  Two different types cannot derive from each other.
Both would lie on a cycle and a search from either of them would succeed; but a search that starts
on a cycle fails, unless it starts at an array, which is not watched on the path.  Of two arrays on
one cycle the second one leads to the root of all types, which the search from the first one has on
its path by then.

Main results:

* `Ambit.Store.derivesFrom_eq_ok_iff` — whether a type derives from another one;
* `Ambit.Store.Gathers.head?_eq_none_of_return` — a search that succeeds starts on a cycle only at a
  type without a definition;
* `Ambit.Store.Gathers.eq_of_reaches` — **two types do not reach each other**, when the searches
  from both succeed;
* `Ambit.Store.derivesFrom_orders` — **derivation is the partial order that the direct supertypes
  generate**.
-/

import Ambit.Proofs.Lineage.Reachability

set_option relaxedAutoImplicit false
set_option autoImplicit false

namespace Ambit.Store

open Relation (ReflTransGen TransGen)

variable {s : Store} {signal : Signal} {t u : TypeRef} {all all' : List TypeRef}

/-! ### What a type derives from -/

/-- Whether a type derives from another one: a type that is not resolved does not, and otherwise the
normal form of the other one has to be among the supertypes. -/
theorem derivesFrom_eq_ok_iff {answer : Bool} :
    s.derivesFrom signal t u = .ok answer ↔
      if t.isUnresolved || u.isUnresolved then false = answer
      else ∃ all, s.supertypes signal t = .ok all ∧ all.contains (s.normalize u) = answer := by
  rw [derivesFrom]
  split
  · rw [Except.ok.injEq]
  · simp only [Answer.bind_eq_ok, pure, Except.pure, Except.ok.injEq]

/-- **What a type derives from**: both types are resolved, the search for the supertypes succeeds,
and the normal form of the one reaches that of the other. -/
theorem derivesFrom_iff_reaches :
    s.derivesFrom signal t u = .ok true ↔
      (t.isUnresolved = false ∧ u.isUnresolved = false) ∧
        (∃ all, s.supertypes signal t = .ok all) ∧
        ReflTransGen s.Leads (s.normalize t) (s.normalize u) := by
  rw [derivesFrom_eq_ok_iff]
  split
  · rename_i hunresolved
    simp only [Bool.false_eq_true, false_iff, not_and]
    rintro ⟨ht, hu⟩
    simp [ht, hu] at hunresolved
  · rename_i hresolved
    rw [Bool.not_eq_true, Bool.or_eq_false_iff] at hresolved
    simp only [hresolved, and_self, true_and, List.contains_iff_mem]
    constructor
    · rintro ⟨all, hall, hmem⟩
      exact ⟨⟨all, hall⟩, (mem_supertypes_iff hall).1 hmem⟩
    · rintro ⟨⟨all, hall⟩, hreach⟩
      exact ⟨all, hall, (mem_supertypes_iff hall).2 hreach⟩

/-! ### Searches that start on a cycle -/

/-- **A search that succeeds starts on a cycle only at a type without a definition.** -/
theorem Gathers.head?_eq_none_of_return (h : s.Gathers [] [] [t] (.ok all))
    (hcycle : TransGen s.Leads t t) : t.head? = none := by
  obtain ⟨after, hafter⟩ := List.head?_eq_some_iff.1 h.head?_eq
  have hall : all = [] ++ t :: after := hafter
  by_contra hhead
  refine h.no_return rfl hall List.nil_prefix (Option.isSome_iff_ne_none.2 hhead) rfl ?_
  exact transGen_and hcycle fun _ _ _ => List.not_mem_nil

/-- What is reached from the only type that `t` leads to is `t` or is reached past it. -/
theorem reaches_past {root v : TypeRef} (hroot : ∀ w, s.Leads t w → w = root)
    (h : ReflTransGen s.Leads root v) :
    v = t ∨ ReflTransGen (fun a b => s.Leads a b ∧ b ∉ [t]) root v := by
  induction h with
  | refl => exact Or.inr .refl
  | @tail v w _ hstep ih =>
      by_cases hw : w = t
      · exact Or.inl hw
      · rcases ih with rfl | ih
        · rw [hroot w hstep]
          exact Or.inr .refl
        · exact Or.inr (ih.tail ⟨hstep, by simpa using hw⟩)

/-- A search that succeeds from a type which leads to a single type with a definition: that one does
not lead to itself past the first type. -/
theorem Gathers.no_return_past {root : TypeRef} (h : s.Gathers [] [] [t] (.ok all))
    (hsupers : s.supers t = [root]) (hroot : root ≠ t) (hhead : root.head?.isSome) :
    ¬ TransGen (fun a b => s.Leads a b ∧ b ∉ [t]) root root := by
  have hfresh : root ∉ [t] := by simpa using hroot
  cases h with
  | known _ hfound _ => cases hfound
  | fresh _ _ above _ =>
      rw [hsupers, List.nil_append] at above
      cases above with
      | known _ hfound _ => exact absurd hfound hfresh
      | fresh _ _ above' _ => exact above'.no_return_of_above hfresh hhead rfl

/-- **Two types in normal form that reach each other are the same**, when the searches from both
succeed. -/
theorem Gathers.eq_of_reaches (ht : s.Gathers [] [] [t] (.ok all))
    (hu : s.Gathers [] [] [u] (.ok all')) (htnormal : s.normalize t = t)
    (hunormal : s.normalize u = u) (htu : ReflTransGen s.Leads t u)
    (hut : ReflTransGen s.Leads u t) : t = u := by
  by_contra hne
  have hne' : u ≠ t := fun h => hne h.symm
  obtain ⟨v, htv, hvu⟩ := (ReflTransGen.cases_head htu).resolve_left hne
  obtain ⟨w, huw, hwt⟩ := (ReflTransGen.cases_head hut).resolve_left hne'
  -- both lie on the cycle, so both are arrays and lead to the root only
  have htnone := ht.head?_eq_none_of_return (.head' htv (hvu.trans hut))
  have hunone := hu.head?_eq_none_of_return (.head' huw (hwt.trans htu))
  obtain ⟨⟨element, rank, rfl⟩, root, hroot, rfl⟩ := exists_array_of_leads htnormal htnone htv
  obtain ⟨-, root', hroot', rfl⟩ := exists_array_of_leads hunormal hunone huw
  rw [hroot] at hroot'
  cases hroot'
  -- from the root the way to the second array, and back to the root, goes past the first array
  have hsupers : s.supers (.array element rank) = [.plain root] :=
    supers_array hroot element rank
  have honly : ∀ w, s.Leads (.array element rank) w → w = .plain root := by
    intro w hw
    rw [Leads, hsupers] at hw
    exact List.mem_singleton.1 hw
  have hpast := (reaches_past honly hvu).resolve_left hne'
  refine ht.no_return_past hsupers (by simp [TypeRef.plain]) rfl (.tail' hpast ⟨huw, ?_⟩)
  simp [TypeRef.plain]

/-! ### Derivation -/

/-- **Derivation is the partial order that the direct supertypes generate**: a resolved type derives
from itself, it derives from what its bases derive from, and two types that derive from each other
have the same normal form.  Where there is an answer for resolved types, it says whether the normal
form of the one reaches that of the other. -/
theorem derivesFrom_orders (s : Store) (signal : Signal) :
    (∀ t answer, t.isUnresolved = false → s.derivesFrom signal t t = .ok answer →
      answer = true) ∧
    (∀ t u v, s.derivesFrom signal t u = .ok true → s.derivesFrom signal u v = .ok true →
      s.derivesFrom signal t v = .ok true) ∧
    (∀ t u, s.derivesFrom signal t u = .ok true → s.derivesFrom signal u t = .ok true →
      s.normalize t = s.normalize u) ∧
    ∀ t u answer, t.isUnresolved = false → u.isUnresolved = false →
      s.derivesFrom signal t u = .ok answer →
      (answer = true ↔ ReflTransGen s.Leads (s.normalize t) (s.normalize u)) := by
  have hanswer : ∀ t u answer, t.isUnresolved = false → u.isUnresolved = false →
      s.derivesFrom signal t u = .ok answer →
      (answer = true ↔ ReflTransGen s.Leads (s.normalize t) (s.normalize u)) := by
    intro t u answer ht hu h
    rw [derivesFrom_eq_ok_iff, ht, hu] at h
    obtain ⟨all, hall, rfl⟩ := h
    rw [List.contains_iff_mem, mem_supertypes_iff hall]
  refine ⟨?_, ?_, ?_, hanswer⟩
  · intro t answer ht h
    exact (hanswer t t answer ht ht h).2 .refl
  · intro t u v htu huv
    obtain ⟨⟨ht, -⟩, hall, hreach⟩ := derivesFrom_iff_reaches.1 htu
    obtain ⟨⟨-, hv⟩, -, hreach'⟩ := derivesFrom_iff_reaches.1 huv
    exact derivesFrom_iff_reaches.2 ⟨⟨ht, hv⟩, hall, hreach.trans hreach'⟩
  · intro t u htu hut
    obtain ⟨-, ⟨all, hall⟩, hreach⟩ := derivesFrom_iff_reaches.1 htu
    obtain ⟨-, ⟨all', hall'⟩, hreach'⟩ := derivesFrom_iff_reaches.1 hut
    exact (gathers_of_supertypes hall).eq_of_reaches (gathers_of_supertypes hall')
      (normalize_normalize t) (normalize_normalize u) hreach hreach'

/-- A class with a base class, both below the root of all types. -/
def threeDeep : Store :=
  empty.insertType { id := ⟨0⟩, kind := .classType }
    |>.insertType { id := ⟨1⟩, kind := .classType }
    |>.insertType { id := ⟨2⟩, kind := .classType, base := some (.plain ⟨1⟩) }
    |>.register .object ⟨0⟩

/-- The class, marked as nullable, derives from the root through its base; with and without the mark
it derives from itself. -/
theorem derivesFrom_orders_threeDeep :
    (threeDeep.derivesFrom .quiet (.nullable (.plain ⟨2⟩)) (.plain ⟨1⟩) = .ok true ∧
      threeDeep.derivesFrom .quiet (.plain ⟨1⟩) (.plain ⟨0⟩) = .ok true ∧
      threeDeep.derivesFrom .quiet (.nullable (.plain ⟨2⟩)) (.plain ⟨0⟩) = .ok true) ∧
    threeDeep.derivesFrom .quiet (.nullable (.plain ⟨2⟩)) (.plain ⟨2⟩) = .ok true ∧
    threeDeep.derivesFrom .quiet (.plain ⟨2⟩) (.nullable (.plain ⟨2⟩)) = .ok true ∧
    threeDeep.normalize (.nullable (.plain ⟨2⟩)) = threeDeep.normalize (.plain ⟨2⟩) := by
  obtain ⟨-, htrans, hantisymm, -⟩ := derivesFrom_orders threeDeep .quiet
  have hbase : threeDeep.derivesFrom .quiet (.nullable (.plain ⟨2⟩)) (.plain ⟨1⟩) = .ok true := by
    decide +kernel
  have hroot : threeDeep.derivesFrom .quiet (.plain ⟨1⟩) (.plain ⟨0⟩) = .ok true := by
    decide +kernel
  have hmarked : threeDeep.derivesFrom .quiet (.nullable (.plain ⟨2⟩)) (.plain ⟨2⟩) = .ok true := by
    decide +kernel
  have hplain : threeDeep.derivesFrom .quiet (.plain ⟨2⟩) (.nullable (.plain ⟨2⟩)) = .ok true := by
    decide +kernel
  exact ⟨⟨hbase, hroot, htrans _ _ _ hbase hroot⟩, hmarked, hplain, hantisymm _ _ hmarked hplain⟩

end Ambit.Store
