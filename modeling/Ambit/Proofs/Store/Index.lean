/-
What an index lists, and what is read from it.

An index keeps a list of members under each key, and nothing in a list keeps it from having a member
twice.  What keeps it from that is how facts are replaced: a member is struck out where the old fact
belonged before it is filed where the new one belongs, and an identity has one fact only.  As long
as that is done for every fact, an index lists under a key exactly the identities whose facts belong
to the key, each once, in whatever order they were filed.  What is read from such an index are then
exactly the facts that belong to the key, each once, in the order of their identities, and two such
indexes of one table cannot be told apart by reading.

Main definitions:

* `Ambit.Index.move` — moving a member from one key to another;
* `Ambit.Index.Lists` — **an index lists what a table holds**, each identity once.

Main results:

* `Ambit.pairwise_lt_sortOn` — elements with different keys are sorted strictly;
* `Ambit.Index.under_move` — the list of a key after a move;
* `Ambit.Index.Lists.not_mem_struck` — a fact that is to be replaced leaves no entry behind;
* `Ambit.Index.Lists.insert` — **moving a fact that is replaced keeps an index true**;
* `Ambit.Index.Lists.mem_read`, `Ambit.Index.Lists.pairwise_read` — a true index leads to the facts
  that belong to a key, each once and in order;
* `Ambit.Index.Lists.read_eq` — the order in which members were filed cannot be read.
-/

import Ambit.Store.Index
import Mathlib.Data.List.Sort

set_option relaxedAutoImplicit false
set_option autoImplicit false

namespace Ambit

/-! ### Sorting by a key -/

section Sorting

variable {ι α β : Type} [Ord ι]

theorem placeOn_eq_orderedInsert (key : α → ι) (a : α) (bs : List α) :
    placeOn key a bs = bs.orderedInsert (fun a b => (compare (key a) (key b)).isLE) a := by
  induction bs with
  | nil => rfl
  | cons b bs ih => rw [placeOn, ih, List.orderedInsert_cons]

theorem sortOn_eq_insertionSort (key : α → ι) (as : List α) :
    sortOn key as = as.insertionSort fun a b => (compare (key a) (key b)).isLE := by
  induction as with
  | nil => rfl
  | cons a as ih =>
      rw [List.insertionSort_cons, ← ih]
      exact placeOn_eq_orderedInsert key a (sortOn key as)

theorem perm_sortOn (key : α → ι) (as : List α) : (sortOn key as).Perm as := by
  rw [sortOn_eq_insertionSort]
  exact List.perm_insertionSort _ as

/-- Elements can be changed before or after they are sorted, if their keys stay. -/
theorem map_sortOn {key : α → ι} {key' : β → ι} {f : α → β} (h : ∀ a, key' (f a) = key a)
    (as : List α) : (sortOn key as).map f = sortOn key' (as.map f) := by
  rw [sortOn_eq_insertionSort, sortOn_eq_insertionSort]
  refine List.map_insertionSort _ _ f as fun a _ b _ => ?_
  rw [h, h]

variable [Std.TransOrd ι]

theorem pairwise_sortOn (key : α → ι) (as : List α) :
    (sortOn key as).Pairwise fun a b => (compare (key a) (key b)).isLE := by
  have htotal : Std.Total fun a b : α => (compare (key a) (key b)).isLE = true := by
    refine ⟨fun a b => ?_⟩
    have hswap : compare (key a) (key b) = (compare (key b) (key a)).swap :=
      Std.OrientedCmp.eq_swap
    rw [hswap]
    cases compare (key b) (key a) <;> simp
  have htrans : IsTrans α fun a b => (compare (key a) (key b)).isLE = true :=
    ⟨fun _ _ _ => Std.TransCmp.isLE_trans⟩
  rw [sortOn_eq_insertionSort]
  exact List.pairwise_insertionSort _ as

/-- Two lists that are sorted strictly and have the same members are the same. -/
theorem eq_of_pairwise_lt {key : α → ι} {as bs : List α}
    (has : as.Pairwise fun a b => compare (key a) (key b) = .lt)
    (hbs : bs.Pairwise fun a b => compare (key a) (key b) = .lt) (h : ∀ a, a ∈ as ↔ a ∈ bs) :
    as = bs := by
  have hirrefl : Std.Irrefl fun a b : α => compare (key a) (key b) = .lt := by
    refine ⟨fun a ha => ?_⟩
    have hself : compare (key a) (key a) = .eq := Std.ReflCmp.compare_self
    rw [hself] at ha
    cases ha
  have hantisymm : Std.Antisymm fun a b : α => compare (key a) (key b) = .lt := by
    refine ⟨fun a b hab hba => ?_⟩
    have hgt : compare (key b) (key a) = .gt := Std.OrientedCmp.gt_of_lt hab
    rw [hgt] at hba
    cases hba
  exact has.eq_of_mem_iff hbs h

variable [Std.LawfulEqOrd ι]

/-- **Elements with different keys are sorted strictly.** -/
theorem pairwise_lt_sortOn {key : α → ι} {as : List α} (h : (as.map key).Nodup) :
    (sortOn key as).Pairwise fun a b => compare (key a) (key b) = .lt := by
  have hne : (sortOn key as).Pairwise fun a b => key a ≠ key b :=
    List.pairwise_map.1 (((perm_sortOn key as).map key).nodup_iff.2 h)
  refine ((pairwise_sortOn key as).and hne).imp ?_
  rintro a b ⟨hle, hne⟩
  cases hcompare : compare (key a) (key b) with
  | lt => rfl
  | eq => exact absurd (Std.LawfulEqOrd.eq_of_compare hcompare) hne
  | gt => simp [hcompare] at hle

end Sorting

/-! ### Moving a member -/

namespace Index

section Moving

variable {κ ι : Type} [Ord κ] [Std.TransOrd κ] [DecidableEq ι]

/-- The index with a member moved from one key to another. -/
def move (ix : Index κ ι) (old new : Option κ) (i : ι) : Index κ ι :=
  let rest :=
    match old with
    | none => ix
    | some k => ix.withdraw k i
  match new with
  | none => rest
  | some k => rest.file k i

/-- A move strikes the member out under the old key and adds it at the end under the new one, also
if the two are the same. -/
theorem under_move [Std.LawfulEqOrd κ] [DecidableEq κ] (ix : Index κ ι) (old new : Option κ)
    (i : ι) (k : κ) :
    (ix.move old new i).under k =
      (if old = some k then (ix.under k).filter (· ≠ i) else ix.under k) ++
        if new = some k then [i] else [] := by
  cases old <;> cases new <;>
    simp only [move, under_file, under_withdraw, Option.some.injEq, reduceCtorEq, if_false,
      List.append_nil]

end Moving

/-! ### Indexes that list what a table holds -/

variable {κ ι α : Type} [Ord κ] [Ord ι] [Std.TransOrd κ] [Std.TransOrd ι]

/-- **An index lists what a table holds**: under each key the identities whose facts belong to the
key, each once. -/
structure Lists (ix : Index κ ι) (table : Std.ExtTreeMap ι α) (key : α → Option κ) : Prop where
  mem_under : ∀ k i, i ∈ ix.under k ↔ ∃ a, table[i]? = some a ∧ key a = some k
  nodup_under : ∀ k, (ix.under k).Nodup

theorem lists_empty (key : α → Option κ) : Lists (∅ : Index κ ι) ∅ key where
  mem_under := by simp
  nodup_under := by simp

section Insertion

variable [DecidableEq κ] [DecidableEq ι] [Std.LawfulEqOrd κ] [Std.LawfulEqOrd ι]
  {ix : Index κ ι} {table : Std.ExtTreeMap ι α} {key : α → Option κ}

omit [Std.LawfulEqOrd κ] [Std.LawfulEqOrd ι] in
/-- An identity is listed only where its fact belongs, so that striking it out there leaves no entry
of it under any key. -/
theorem Lists.not_mem_struck (h : ix.Lists table key) (i : ι) (k : κ) :
    i ∉ if table[i]?.bind key = some k then (ix.under k).filter (· ≠ i) else ix.under k := by
  intro hi
  split at hi
  · simp at hi
  · rename_i hold
    exact hold (Option.bind_eq_some_iff.2 ((h.mem_under k i).1 hi))

/-- **Moving a fact that is replaced keeps an index true.** -/
theorem Lists.insert (h : ix.Lists table key) (i : ι) (a : α) :
    (ix.move (table[i]?.bind key) (key a) i).Lists (table.insert i a) key := by
  constructor
  · intro k j
    rw [under_move, List.mem_append, Std.ExtTreeMap.getElem?_insert]
    by_cases hij : i = j
    · subst hij
      rw [if_pos Std.ReflCmp.compare_self]
      constructor
      · rintro (hi | hi)
        · exact absurd hi (h.not_mem_struck i k)
        · split at hi
          · rename_i hnew
            exact ⟨a, rfl, hnew⟩
          · cases hi
      · rintro ⟨b, hb, hkey⟩
        cases hb
        rw [if_pos hkey]
        exact Or.inr (List.mem_singleton_self i)
    · -- the entries of other identities stay
      rw [if_neg (mt Std.LawfulEqOrd.eq_of_compare hij), ← h.mem_under k j]
      split <;> split <;> simp [Ne.symm hij]
  · intro k
    rw [under_move]
    refine List.nodup_append.2 ⟨?_, ?_, ?_⟩
    · split
      · exact (h.nodup_under k).filter _
      · exact h.nodup_under k
    · split <;> simp
    · rintro j hj b hb rfl
      split at hb
      · rw [List.mem_singleton.1 hb] at hj
        exact h.not_mem_struck i k hj
      · cases hb

end Insertion

/-! ### Reading an index -/

/-- Facts can be changed before or after they are read, if their identities stay. -/
theorem map_read {β : Type} {idOf : α → ι} {idOf' : β → ι} {f : α → β}
    (h : ∀ a, idOf' (f a) = idOf a) (ix : Index κ ι) (table : Std.ExtTreeMap ι α) (k : κ) :
    (ix.read table idOf k).map f =
      sortOn idOf' ((ix.under k).filterMap fun i => (table[i]?).map f) := by
  rw [read, map_sortOn h, List.map_filterMap]

section Reading

variable {ix : Index κ ι} {table : Std.ExtTreeMap ι α} {key : α → Option κ} {idOf : α → ι}
  (hid : ∀ i a, table[i]? = some a → idOf a = i)
include hid

/-- **An index leads to the facts that belong to a key.** -/
theorem Lists.mem_read (h : ix.Lists table key) {k : κ} {a : α} :
    a ∈ ix.read table idOf k ↔ table[idOf a]? = some a ∧ key a = some k := by
  rw [read, (perm_sortOn _ _).mem_iff, List.mem_filterMap]
  constructor
  · rintro ⟨i, hi, ha⟩
    obtain rfl := hid i a ha
    obtain ⟨b, hb, hkey⟩ := (h.mem_under k (idOf a)).1 hi
    rw [ha] at hb
    cases hb
    exact ⟨ha, hkey⟩
  · rintro ⟨ha, hkey⟩
    exact ⟨idOf a, (h.mem_under k (idOf a)).2 ⟨a, ha, hkey⟩, ha⟩

/-- Every member of a key leads to a fact, so that the facts have the identities that are listed. -/
theorem Lists.map_filterMap (h : ix.Lists table key) (k : κ) :
    ((ix.under k).filterMap (table[·]?)).map idOf = ix.under k := by
  have hlisted : ∀ i ∈ ix.under k, (table[i]?).map idOf = some i := by
    intro i hi
    obtain ⟨a, ha, -⟩ := (h.mem_under k i).1 hi
    rw [ha, Option.map_some, hid i a ha]
  rw [List.map_filterMap, List.filterMap_congr hlisted, List.filterMap_some]

variable [Std.LawfulEqOrd ι]

/-- **An index leads to facts in the order of their identities, each once.** -/
theorem Lists.pairwise_read (h : ix.Lists table key) (k : κ) :
    (ix.read table idOf k).Pairwise fun a b => compare (idOf a) (idOf b) = .lt := by
  refine pairwise_lt_sortOn ?_
  rw [h.map_filterMap hid]
  exact h.nodup_under k

/-- Two indexes of one table lead to the same facts, in whatever order they list them. -/
theorem Lists.read_eq {ix' : Index κ ι} (h : ix.Lists table key) (h' : ix'.Lists table key) :
    ix'.read table idOf = ix.read table idOf := by
  funext k
  refine eq_of_pairwise_lt (h'.pairwise_read hid k) (h.pairwise_read hid k) fun a => ?_
  rw [h'.mem_read hid, h.mem_read hid]

end Reading

end Index

end Ambit
