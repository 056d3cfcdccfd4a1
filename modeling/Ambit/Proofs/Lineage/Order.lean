/-
The order in which supertypes are found.

The search goes depth first, so a type that is found before another one need not be more derived.
Of two types that are found one after the other, the first leads to the second, or the search has
parted: some type comes directly from two types, the earlier one leads to the first, and a later one
to the second.  While a type is found, each of those found before leads to it or is done, so that
everything one step away from it was found before as well.

Main definitions:

* `Ambit.Store.Parts` — two types are reached from different types of a list, in this order;
* `Ambit.Store.Forks` — **the ways to two types part at a type on the way to them**.

Main results:

* `Ambit.Store.Gathers.reaches_or_forks` — a type leads to one that is found later, or the ways to
  them part;
* `Ambit.Store.Gathers.reaches_or_done` — a type leads to one that is found later, or it is done;
* `Ambit.Store.Gathers.exists_cycle_of_return` — where a type leads to its own definition again, a
  type leads to itself.
-/

import Ambit.Proofs.Lineage.Reachability

set_option relaxedAutoImplicit false
set_option autoImplicit false

namespace Ambit.Store

open Relation (ReflTransGen TransGen)

/-- Two types are reached from different types of a list, the first one from an earlier one. -/
def Parts (s : Store) (ts : List TypeRef) (u v : TypeRef) : Prop :=
  ∃ xs x ys, ts = xs ++ x :: ys ∧ ReflTransGen s.Leads x u ∧ ∃ y ∈ ys, ReflTransGen s.Leads y v

/-- The ways from a type to two others part: some type on the way comes directly from two types, and
an earlier one of them leads to the first, a later one to the second. -/
def Forks (s : Store) (t u v : TypeRef) : Prop :=
  ∃ w, ReflTransGen s.Leads t w ∧ s.Parts (s.supers w) u v

variable {s : Store} {path : List SymbolId} {found ts all before after : List TypeRef}
  {result : Answer (List TypeRef)} {start t u v : TypeRef}

theorem Parts.cons (h : s.Parts ts u v) (t : TypeRef) : s.Parts (t :: ts) u v := by
  obtain ⟨xs, x, ys, rfl, hx, hy⟩ := h
  exact ⟨t :: xs, x, ys, rfl, hx, hy⟩

theorem not_parts_singleton : ¬ s.Parts [t] u v := by
  rintro ⟨xs, x, ys, heq, -, y, hy, -⟩
  cases xs with
  | nil =>
      cases heq
      cases hy
  | cons z xs =>
      obtain ⟨-, hnil⟩ := List.cons.inj heq
      simp at hnil

theorem notMem_before (hnodup : all.Nodup) (hall : all = before ++ v :: after) : v ∉ before := by
  rw [hall, List.nodup_middle, List.nodup_cons] at hnodup
  exact fun hmem => hnodup.1 (List.mem_append_left _ hmem)

namespace Gathers

/-- What is found with a type, before the search goes on behind it, is reached from it. -/
theorem reached_of_above {more : List TypeRef}
    (above : s.Gathers (t.head?.toList ++ path) (found ++ [t]) (s.supers t) (.ok more))
    (hu : u ∈ more) (hu' : u ∉ found) : ReflTransGen s.Leads t u := by
  rcases above.sound rfl u hu with hmem | ⟨x, hx, hreach⟩
  · rcases List.mem_append.1 hmem with hmem | hmem
    · exact absurd hmem hu'
    · rw [List.mem_singleton.1 hmem]
  · exact .head hx hreach

/-- **A type leads to one that is found later, or the ways to them part.** -/
theorem reaches_or_forks (h : s.Gathers path found ts result) (hr : result = .ok all)
    (hnodup : all.Nodup) (hall : all = before ++ u :: after) (hfound : found <+: before)
    (hv : v ∈ after) :
    ReflTransGen s.Leads u v ∨ s.Parts ts u v ∨ ∃ t ∈ ts, s.Forks t u v := by
  induction h generalizing all before after with
  | done =>
      cases hr
      have hle := hfound.length_le
      rw [hall, List.length_append, List.length_cons] at hle
      omega
  | cycle => cases hr
  | known _ _ _ ih =>
      rcases ih hr hnodup hall hfound hv with hreach | hparts | ⟨t, ht, hforks⟩
      · exact Or.inl hreach
      · exact Or.inr (Or.inl (hparts.cons _))
      · exact Or.inr (Or.inr ⟨t, List.mem_cons_of_mem _ ht, hforks⟩)
  | broken => cases hr
  | @fresh path found t ts more result _ _ habove hlater ihabove ihlater =>
      have hle := hlater.found_le hr
      have hvall : v ∈ all := by simp [hall, hv]
      obtain ⟨-, hcons, hdisjoint⟩ := List.nodup_append.1 (hall ▸ hnodup)
      have hv' : v ∉ before := fun hmem => hdisjoint v hmem v (List.mem_cons_of_mem _ hv) rfl
      -- when `u` is found with `t` and `v` behind it, the ways part at `t` and a later type
      have hpart : u ∈ more → v ∉ more → s.Parts (t :: ts) u v := by
        intro hu hvmore
        rcases hlater.sound hr v hvall with hmem | hy
        · exact absurd hmem hvmore
        · have hufound : u ∉ found := fun hmem => notMem_before hnodup hall (hfound.subset hmem)
          exact ⟨[], t, ts, rfl, habove.reached_of_above hu hufound, hy⟩
      rcases found_cases (habove.found_le rfl) hle hall hfound with
        hmore | ⟨rfl, rfl⟩ | ⟨hbefore, rest, hrest⟩
      · rcases ihlater hr hnodup hall hmore hv with hreach | hparts | ⟨t', ht', hforks⟩
        · exact Or.inl hreach
        · exact Or.inr (Or.inl (hparts.cons t))
        · exact Or.inr (Or.inr ⟨t', List.mem_cons_of_mem _ ht', hforks⟩)
      · by_cases hvmore : v ∈ more
        · exact Or.inl (habove.reached_of_above hvmore hv')
        · have hu : u ∈ more := (habove.found_le rfl).subset (by simp)
          exact Or.inr (Or.inl (hpart hu hvmore))
      · by_cases hvmore : v ∈ more
        · have hvrest : v ∈ rest := by
            rw [hrest] at hvmore
            rcases List.mem_append.1 hvmore with hmem | hmem
            · exact absurd hmem hv'
            · rcases List.mem_cons.1 hmem with rfl | hmem
              · exact absurd hv (List.nodup_cons.1 hcons).1
              · exact hmem
          have hnodup' : more.Nodup := hle.sublist.nodup hnodup
          rcases ihabove rfl hnodup' hrest hbefore hvrest with
            hreach | hparts | ⟨x, hx, w, hw, hparts⟩
          · exact Or.inl hreach
          · exact Or.inr (Or.inr ⟨t, List.mem_cons_self .., t, .refl, hparts⟩)
          · exact Or.inr (Or.inr ⟨t, List.mem_cons_self .., w, .head hx hw, hparts⟩)
        · have hu : u ∈ more := by simp [hrest]
          exact Or.inr (Or.inl (hpart hu hvmore))

/-- **A type leads to one that is found later, or it is done**: what is one step away from it was
found before that one, too. -/
theorem reaches_or_done (h : s.Gathers path found ts result) (hr : result = .ok all)
    (hnodup : all.Nodup) (hall : all = before ++ v :: after) (hfound : found <+: before)
    (hu : u ∈ before) (hu' : u ∉ found) :
    ReflTransGen s.Leads u v ∨ ∀ w, s.Leads u w → w ∈ before := by
  induction h generalizing all before after with
  | done =>
      cases hr
      have hle := hfound.length_le
      rw [hall, List.length_append, List.length_cons] at hle
      omega
  | cycle => cases hr
  | known _ _ _ ih => exact ih hr hnodup hall hfound hu hu'
  | broken => cases hr
  | @fresh path found t ts more result _ _ habove hlater ihabove ihlater =>
      have hle := hlater.found_le hr
      rcases found_cases (habove.found_le rfl) hle hall hfound with
        hmore | ⟨rfl, -⟩ | ⟨hbefore, rest, hrest⟩
      · by_cases humore : u ∈ more
        · -- `u` is `t` or was found above it, and what is above `t` is done
          refine Or.inr fun w hw => hmore.subset ?_
          by_cases hut : u = t
          · exact habove.visited rfl w (hut ▸ hw)
          · exact habove.closed rfl u humore (by simp [hu', hut]) w hw
        · exact ihlater hr hnodup hall hmore hu humore
      · exact absurd hu hu'
      · by_cases hut : u = t
        · have hv : v ∈ more := by simp [hrest]
          have hv' : v ∉ found := fun hmem => notMem_before hnodup hall (hfound.subset hmem)
          exact Or.inl (hut ▸ habove.reached_of_above hv hv')
        · exact ihabove rfl (hle.sublist.nodup hnodup) hrest hbefore hu (by simp [hu', hut])

/-- Where a type leads to its own definition again, at a type that is not found before it, some type
leads to itself. -/
theorem exists_cycle_of_return (h : s.Gathers [] [] [start] (.ok all))
    (hall : all = before ++ t :: after) (hhead : t.head?.isSome) (hu : u.head? = t.head?)
    (hu' : u ∉ before) (hreach : TransGen s.Leads t u) : ∃ v ∈ all, TransGen s.Leads v v := by
  have hnodup : all.Nodup := h.nodup rfl List.nodup_nil
  -- the way back passes through a type that was found before `t`
  obtain ⟨c, hc, htc, hcu⟩ : ∃ c ∈ before, ReflTransGen s.Leads t c ∧ ReflTransGen s.Leads c u := by
    by_contra hnone
    refine h.no_return rfl hall List.nil_prefix hhead hu (transGen_and hreach ?_)
    exact fun c htc hcu hc => hnone ⟨c, hc, htc.to_reflTransGen, hcu⟩
  -- from there on all types were found before `t`, unless one of them leads to `t`
  induction hcu using ReflTransGen.head_induction_on with
  | refl => exact absurd hc hu'
  | @head c d hstep _ ih =>
      rcases h.reaches_or_done rfl hnodup hall List.nil_prefix hc (by simp) with hct | hdone
      · refine ⟨c, by simp [hall, hc], ?_⟩
        rcases ReflTransGen.cases_head hct with rfl | ⟨e, hce, het⟩
        · exact absurd hc (notMem_before hnodup hall)
        · exact .head' hce (het.trans htc)
      · exact ih (hdone d hstep) (htc.tail hstep)

end Gathers

end Ambit.Store
