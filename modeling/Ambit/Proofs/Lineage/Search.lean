/-
The search for supertypes, without a bound on its steps.

The search goes from a type to its direct supertypes in normal form, and from these on, depth first.
It is written down here as a relation between what is to be visited and what comes of it, so that a
derivation is a search that comes to an end.  Two lists are carried: the definitions on the path
that leads to the types to be visited, and the types found so far.  A type whose definition is on
the path is a cycle, and a type that was found before is passed over.

Passing over types that were found before loses nothing, because their supertypes are found as
well, and it hides no cycle through a definition: of the types on a cycle one is found first, all
others are found before it is done, and so the last of them meets the first on its own path.  Types
without a definition are never on the path, so a cycle that is entered at such a type is passed
over.

Main definitions:

* `Ambit.Store.supers`, `Ambit.Store.Leads` — the types one step away, and one step;
* `Ambit.Store.Gathers` — **the search**.

Main results:

* `Ambit.Store.Gathers.sound`, `Ambit.Store.Gathers.closed` — what is found is reached, and what is
  one step away from it is found;
* `Ambit.Store.Gathers.no_return` — a type with a definition does not lead to its definition again
  through types that are found after it;
* `Ambit.Store.Gathers.repeats` — when the search fails, a walk meets a definition twice.
-/

import Ambit.Lineage
import Mathlib.Data.List.Chain
import Mathlib.Data.List.Infix
import Mathlib.Data.List.Nodup
import Mathlib.Logic.Relation

set_option relaxedAutoImplicit false
set_option autoImplicit false

namespace Ambit

/-- The definition of the type, if it has one, is not on the path. -/
def TypeRef.OffPath (path : List SymbolId) (t : TypeRef) : Prop := ∀ d, t.head? = some d → d ∉ path

namespace Store

/-- The direct supertypes of a type, in normal form. -/
def supers (s : Store) (t : TypeRef) : List TypeRef := (s.directSupertypes t).map s.normalize

/-- One step from a type to a direct supertype in normal form. -/
def Leads (s : Store) (t u : TypeRef) : Prop := u ∈ s.supers t

/-- **The search for supertypes**: visiting the types of a list, with the definitions `path` on the
path to them and the types `found` found before, ends with a result. -/
inductive Gathers (s : Store) :
    List SymbolId → List TypeRef → List TypeRef → Answer (List TypeRef) → Prop where
  /-- There is nothing left to visit. -/
  | done {path found} : Gathers s path found [] (.ok found)
  /-- The definition of the type is on the path. -/
  | cycle {path found t ts d} (hd : t.head? = some d) (hpath : d ∈ path) :
      Gathers s path found (t :: ts) (.error (s.inheritanceFault d))
  /-- The type was found before. -/
  | known {path found t ts result} (hpath : t.OffPath path) (hfound : t ∈ found)
      (later : Gathers s path found ts result) : Gathers s path found (t :: ts) result
  /-- The type is found, and visiting its supertypes fails. -/
  | broken {path found t ts fault} (hpath : t.OffPath path) (hfound : t ∉ found)
      (above : Gathers s (t.head?.toList ++ path) (found ++ [t]) (s.supers t) (.error fault)) :
      Gathers s path found (t :: ts) (.error fault)
  /-- The type is found, then its supertypes, and then the rest is visited. -/
  | fresh {path found t ts more result} (hpath : t.OffPath path) (hfound : t ∉ found)
      (above : Gathers s (t.head?.toList ++ path) (found ++ [t]) (s.supers t) (.ok more))
      (later : Gathers s path more ts result) : Gathers s path found (t :: ts) result

/-- Where a type of the result was found, when `t` was found after the types `found`, and then
`more` after `t`: behind all of `more`, or as `t` itself, or in `more` behind `t`. -/
theorem found_cases {found more all before after : List TypeRef} {t v : TypeRef}
    (hmore : found ++ [t] <+: more) (hle : more <+: all) (hall : all = before ++ v :: after)
    (hfound : found <+: before) :
    more <+: before ∨ (before = found ∧ v = t) ∨
      (found ++ [t] <+: before ∧ ∃ rest, more = before ++ v :: rest) := by
  have hv : before ++ [v] <+: all := ⟨after, by rw [hall, List.append_assoc]; rfl⟩
  by_cases hbefore : more <+: before
  · exact Or.inl hbefore
  · have hv' : before ++ [v] <+: more := by
      rcases List.prefix_or_prefix_of_prefix hle hv with hle | hle
      · rcases List.prefix_concat_iff.1 hle with heq | hle
        · rw [heq]
        · exact absurd hle hbefore
      · exact hle
    have ⟨rest, hrest⟩ := hv'
    rw [List.append_assoc] at hrest
    by_cases ht : found ++ [t] <+: before
    · exact Or.inr (Or.inr ⟨ht, rest, hrest.symm⟩)
    · have heq : found ++ [t] = before ++ [v] := by
        rcases List.prefix_or_prefix_of_prefix hmore hv' with hle | hle
        · exact (List.prefix_concat_iff.1 hle).resolve_right ht
        · refine (hle.eq_of_length_le ?_).symm
          have hlength := hfound.length_le
          rw [List.length_append, List.length_append]
          simpa using hlength
      obtain ⟨rfl, hvt⟩ := List.append_inj' heq rfl
      exact Or.inr (Or.inl ⟨rfl, (List.cons.inj hvt).1.symm⟩)

namespace Gathers

variable {s : Store} {path : List SymbolId} {found ts : List TypeRef}
  {result : Answer (List TypeRef)} {all : List TypeRef}

/-! ### What is found -/

theorem found_le (h : s.Gathers path found ts result) (hr : result = .ok all) : found <+: all := by
  induction h generalizing all with
  | done =>
      cases hr
      exact List.prefix_refl _
  | cycle => cases hr
  | known _ _ _ ih => exact ih hr
  | broken => cases hr
  | fresh _ _ _ _ ihabove ihlater =>
      exact ((List.prefix_append _ _).trans (ihabove rfl)).trans (ihlater hr)

theorem nodup (h : s.Gathers path found ts result) (hr : result = .ok all)
    (hfound : found.Nodup) : all.Nodup := by
  induction h generalizing all with
  | done =>
      cases hr
      exact hfound
  | cycle => cases hr
  | known _ _ _ ih => exact ih hr hfound
  | broken => cases hr
  | fresh _ ht _ _ ihabove ihlater =>
      refine ihlater hr (ihabove rfl ?_)
      exact List.nodup_append_comm.1 (List.nodup_cons.2 ⟨ht, hfound⟩)

/-- Every type to be visited is found. -/
theorem visited (h : s.Gathers path found ts result) (hr : result = .ok all) :
    ∀ t ∈ ts, t ∈ all := by
  induction h generalizing all with
  | done => simp
  | cycle => cases hr
  | known _ ht hlater ih => exact List.forall_mem_cons.2 ⟨(hlater.found_le hr).subset ht, ih hr⟩
  | broken => cases hr
  | fresh _ _ habove hlater _ ihlater =>
      refine List.forall_mem_cons.2 ⟨?_, ihlater hr⟩
      exact (hlater.found_le hr).subset ((habove.found_le rfl).subset (by simp))

/-- Every type that is found is reached from one to be visited. -/
theorem sound (h : s.Gathers path found ts result) (hr : result = .ok all) :
    ∀ u ∈ all, u ∈ found ∨ ∃ t ∈ ts, Relation.ReflTransGen s.Leads t u := by
  induction h generalizing all with
  | done =>
      cases hr
      exact fun u hu => Or.inl hu
  | cycle => cases hr
  | known _ _ _ ih =>
      intro u hu
      rcases ih hr u hu with hu | ⟨t, ht, hreach⟩
      · exact Or.inl hu
      · exact Or.inr ⟨t, List.mem_cons_of_mem _ ht, hreach⟩
  | broken => cases hr
  | @fresh path found t ts more result _ _ _ _ ihabove ihlater =>
      intro u hu
      rcases ihlater hr u hu with hu | ⟨t', ht', hreach⟩
      · rcases ihabove rfl u hu with hu | ⟨t', ht', hreach⟩
        · rcases List.mem_append.1 hu with hu | hu
          · exact Or.inl hu
          · obtain rfl := List.mem_singleton.1 hu
            exact Or.inr ⟨u, List.mem_cons_self .., .refl⟩
        · exact Or.inr ⟨t, List.mem_cons_self .., .head ht' hreach⟩
      · exact Or.inr ⟨t', List.mem_cons_of_mem _ ht', hreach⟩

/-- What is one step away from a type that is found now is found. -/
theorem closed (h : s.Gathers path found ts result) (hr : result = .ok all) :
    ∀ u ∈ all, u ∉ found → ∀ v, s.Leads u v → v ∈ all := by
  induction h generalizing all with
  | done =>
      cases hr
      exact fun u hu hu' => absurd hu hu'
  | cycle => cases hr
  | known _ _ _ ih => exact ih hr
  | broken => cases hr
  | @fresh path found t ts more result _ _ habove hlater ihabove ihlater =>
      intro u hu hu' v hv
      -- `u` is `t` itself, or it is found above `t`, or it is found later
      by_cases humore : u ∈ more
      · refine (hlater.found_le hr).subset ?_
        by_cases hut : u = t
        · exact habove.visited rfl v (hut ▸ hv)
        · exact ihabove rfl u humore (by simp [hu', hut]) v hv
      · exact ihlater hr u hu humore v hv

/-! ### Cycles -/

/-- No type to be visited has a definition on the path, and no type that is found now leads to one
that has. -/
theorem offPath (h : s.Gathers path found ts result) (hr : result = .ok all) :
    (∀ t ∈ ts, t.OffPath path) ∧
      ∀ u ∈ all, u ∉ found → ∀ v, s.Leads u v → v.OffPath path := by
  induction h generalizing all with
  | done =>
      cases hr
      exact ⟨by simp, fun u hu hu' => absurd hu hu'⟩
  | cycle => cases hr
  | known hpath _ _ ih => exact ⟨List.forall_mem_cons.2 ⟨hpath, (ih hr).1⟩, (ih hr).2⟩
  | broken => cases hr
  | @fresh path found t ts more result hpath _ _ _ ihabove ihlater =>
      refine ⟨List.forall_mem_cons.2 ⟨hpath, (ihlater hr).1⟩, ?_⟩
      intro u hu hu' v hv d hd hmem
      by_cases humore : u ∈ more
      · have hmem' : d ∈ t.head?.toList ++ path := List.mem_append_right _ hmem
        by_cases hut : u = t
        · exact (ihabove rfl).1 v (hut ▸ hv) d hd hmem'
        · exact (ihabove rfl).2 u humore (by simp [hu', hut]) v hv d hd hmem'
      · exact (ihlater hr).2 u hu humore v hv d hd hmem

/-- A type with a definition that is found and whose supertypes are then visited does not lead to
its definition again through types that were not found before. -/
theorem no_return_of_above {t u : TypeRef} {more : List TypeRef}
    (above : s.Gathers (t.head?.toList ++ path) (found ++ [t]) (s.supers t) (.ok more))
    (ht : t ∉ found) (hhead : t.head?.isSome) (hu : u.head? = t.head?) :
    ¬ Relation.TransGen (fun a b => s.Leads a b ∧ b ∉ found) t u := by
  obtain ⟨d, hd⟩ := Option.isSome_iff_exists.1 hhead
  -- whatever is reached from `t` past the types found before is found above `t`, and so does not
  -- lead to the definition of `t`, which is on the path there
  have hstep : ∀ v, v ∈ more → v ∉ found → ∀ w, s.Leads v w → w ∈ more ∧ w.head? ≠ t.head? := by
    intro v hv hv' w hw
    have hoff : w.OffPath (t.head?.toList ++ path) ∧ w ∈ more := by
      by_cases hvt : v = t
      · exact ⟨(above.offPath rfl).1 w (hvt ▸ hw), above.visited rfl w (hvt ▸ hw)⟩
      · have hv'' : v ∉ found ++ [t] := by simp [hv', hvt]
        exact ⟨(above.offPath rfl).2 v hv hv'' w hw, above.closed rfl v hv hv'' w hw⟩
    refine ⟨hoff.2, fun hwt => ?_⟩
    exact hoff.1 d (hwt.trans hd) (by simp [hd])
  intro hreturn
  have hmore : t ∈ more := (above.found_le rfl).subset (by simp)
  obtain ⟨last, hreach, hlast, -⟩ := Relation.TransGen.tail'_iff.1 hreturn
  -- the last type before the return is still above `t`, and from there no step leads to it
  have hlast' : last ∈ more ∧ last ∉ found := by
    clear hlast
    induction hreach with
    | refl => exact ⟨hmore, ht⟩
    | tail _ hbc ih => exact ⟨(hstep _ ih.1 ih.2 _ hbc.1).1, hbc.2⟩
  exact (hstep last hlast'.1 hlast'.2 u hlast).2 hu

/-- **A type with a definition does not lead to its definition again through types that are found
after it.** -/
theorem no_return (h : s.Gathers path found ts result) (hr : result = .ok all)
    {before after : List TypeRef} {v w : TypeRef} (hall : all = before ++ v :: after)
    (hfound : found <+: before) (hhead : v.head?.isSome) (hw : w.head? = v.head?) :
    ¬ Relation.TransGen (fun a b => s.Leads a b ∧ b ∉ before) v w := by
  induction h generalizing all before after with
  | done =>
      cases hr
      have hle := hfound.length_le
      rw [hall, List.length_append, List.length_cons] at hle
      omega
  | cycle => cases hr
  | known _ _ _ ih => exact ih hr hall hfound
  | broken => cases hr
  | @fresh path found t ts more result _ ht habove hlater ihabove ihlater =>
      rcases found_cases (habove.found_le rfl) (hlater.found_le hr) hall hfound with
        hmore | ⟨rfl, rfl⟩ | ⟨hle, rest, hrest⟩
      · exact ihlater hr hall hmore
      · exact habove.no_return_of_above ht hhead hw
      · exact ihabove rfl hrest hle

/-! ### Failure -/

/-- **When the search fails, a walk meets a definition twice**, counting the ones on the path. -/
theorem repeats (h : s.Gathers path found ts result) {fault : Fault} (hr : result = .error fault) :
    ∃ d, fault = s.inheritanceFault d ∧ ∃ walk : List TypeRef,
      (∃ t ∈ ts, walk.head? = some t) ∧ walk.IsChain s.Leads ∧
        2 ≤ (path ++ walk.filterMap TypeRef.head?).count d := by
  induction h generalizing fault with
  | done => cases hr
  | @cycle path found t ts d hd hpath =>
      cases hr
      refine ⟨d, rfl, [t], ⟨t, by simp, rfl⟩, List.isChain_singleton _, ?_⟩
      have hpos := List.count_pos_iff.2 hpath
      rw [List.filterMap_cons_some hd, List.count_append, List.count_cons_self]
      omega
  | known _ _ _ ih =>
      obtain ⟨d, hd, walk, ⟨t, ht, hwalk⟩, hchain, hcount⟩ := ih hr
      exact ⟨d, hd, walk, ⟨t, List.mem_cons_of_mem _ ht, hwalk⟩, hchain, hcount⟩
  | @broken path found t ts fault _ _ _ ih =>
      obtain ⟨d, hd, walk, ⟨u, hu, hwalk⟩, hchain, hcount⟩ := ih hr
      refine ⟨d, hd, t :: walk, ⟨t, by simp, rfl⟩, ?_, ?_⟩
      · refine List.isChain_cons.2 ⟨?_, hchain⟩
        intro u' hu'
        rw [hwalk] at hu'
        cases hu'
        exact hu
      · -- the definition of `t` moves from the path to the head of the walk
        rw [List.append_assoc, List.count_append] at hcount
        rw [List.filterMap_cons, List.count_append]
        rw [List.count_append] at hcount
        cases hhead : t.head? with
        | none => simpa [hhead] using hcount
        | some e =>
            rw [hhead, Option.toList_some, List.count_singleton] at hcount
            simp only [List.count_cons]
            omega
  | fresh _ _ _ _ _ ihlater =>
      obtain ⟨d, hd, walk, ⟨t, ht, hwalk⟩, hchain, hcount⟩ := ihlater hr
      exact ⟨d, hd, walk, ⟨t, List.mem_cons_of_mem _ ht, hwalk⟩, hchain, hcount⟩

end Gathers

end Store

end Ambit
