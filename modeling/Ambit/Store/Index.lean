/-
Indexes: lists of members filed under keys.

An index answers which members belong to a key without going through a whole table.  Under each key
it keeps a list of members in the order in which they were filed: filing a member adds it at the
end, also if it is there already, and withdrawing one strikes all its entries out of one list.  That
a list has no member twice is therefore up to those who file.  The facts to which the members of a
key lead are put in the order of their own identities when they are read.

Main definitions:

* `Ambit.Index` — the type;
* `Ambit.Index.under` — the members of a key;
* `Ambit.Index.file`, `Ambit.Index.withdraw` — filing a member under a key, and striking it out;
* `Ambit.Index.read` — **the facts that belong to a key**.

Main results:

* `Ambit.Index.under_file`, `Ambit.Index.under_withdraw` — the list of a key after a change.
-/

import Std.Data.ExtTreeMap

set_option relaxedAutoImplicit false
set_option autoImplicit false

namespace Ambit

variable {κ ι α : Type} [Ord κ]

/-! ### Sorting by a key -/

/-- An element put in front of the first one whose key is not smaller than its own. -/
def placeOn [Ord ι] (key : α → ι) (a : α) : List α → List α
  | [] => [a]
  | b :: bs => if (compare (key a) (key b)).isLE then a :: b :: bs else b :: placeOn key a bs

/-- A list in the order of keys; elements with the same key stay in the order in which they are. -/
def sortOn [Ord ι] (key : α → ι) (as : List α) : List α := as.foldr (placeOn key) []

/-! ### Indexes -/

/-- Lists of members filed under keys. -/
abbrev Index (κ ι : Type) [Ord κ] := Std.ExtTreeMap κ (List ι)

namespace Index

variable [Std.TransOrd κ]

/-- The members filed under a key, in the order in which they were filed. -/
def under (ix : Index κ ι) (k : κ) : List ι := ix.getD k []

/-- The index with a member filed under a key, after those that are there. -/
def file (ix : Index κ ι) (k : κ) (i : ι) : Index κ ι := ix.insert k (ix.under k ++ [i])

/-- The index with all entries of a member struck out under a key. -/
def withdraw [DecidableEq ι] (ix : Index κ ι) (k : κ) (i : ι) : Index κ ι :=
  ix.modify k fun members => members.filter (· ≠ i)

/-- **The facts that belong to a key**, as a table has them, in the order of their identities. -/
def read [Ord ι] [Std.TransOrd ι] (ix : Index κ ι) (table : Std.ExtTreeMap ι α) (idOf : α → ι)
    (k : κ) : List α :=
  sortOn idOf ((ix.under k).filterMap (table[·]?))

@[simp] theorem under_empty (k : κ) : under (∅ : Index κ ι) k = [] := by
  simp [under]

variable [Std.LawfulEqOrd κ] [DecidableEq κ]

theorem under_file (ix : Index κ ι) (k k' : κ) (i : ι) :
    (ix.file k i).under k' = ix.under k' ++ if k = k' then [i] else [] := by
  rw [under, file, Std.ExtTreeMap.getD_insert]
  simp only [Std.LawfulEqCmp.compare_eq_iff_eq, under]
  split
  · rename_i heq
    rw [heq]
  · rw [List.append_nil]

theorem under_withdraw [DecidableEq ι] (ix : Index κ ι) (k k' : κ) (i : ι) :
    (ix.withdraw k i).under k' =
      if k = k' then (ix.under k').filter (· ≠ i) else ix.under k' := by
  rw [under, withdraw, Std.ExtTreeMap.getD_modify]
  simp only [Std.LawfulEqCmp.compare_eq_iff_eq, under]
  split
  · rename_i heq
    rw [heq, Std.ExtTreeMap.getD_eq_getD_getElem?]
    -- under a key that is not there, there is nothing to strike out
    cases ix[k']? with
    | none => rfl
    | some members => rfl
  · rfl

end Index

end Ambit
