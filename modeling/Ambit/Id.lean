/-
Identities of symbols and scopes.

A symbol and a scope are named by numbers of 32 bits, kept apart by their types.  Both are ordered
by their numbers, and tables keyed by them are read in that order.  The greatest scope number names
no scope of a program: it stands for the place outside every scope.

Main definitions:

* `Ambit.SymbolId`, `Ambit.ScopeId` — the two kinds of identities;
* `Ambit.ScopeId.outside` — the place outside every scope;
* `Ambit.SymbolTable`, `Ambit.ScopeTable` — tables keyed by identities.
-/

import Std.Data.ExtTreeMap

set_option relaxedAutoImplicit false
set_option autoImplicit false

namespace Ambit

/-- The identity of a symbol. -/
structure SymbolId where
  val : UInt32
deriving DecidableEq, Repr

/-- The identity of a scope. -/
structure ScopeId where
  val : UInt32
deriving DecidableEq, Repr

namespace SymbolId

instance : Ord SymbolId := ⟨compareOn SymbolId.val⟩

instance : Std.TransOrd SymbolId := inferInstanceAs (Std.TransCmp (compareOn SymbolId.val))

instance : Std.LawfulEqOrd SymbolId where
  eq_of_compare {a b} h := by
    have hval : a.val = b.val := Std.LawfulEqOrd.eq_of_compare h
    cases a
    cases b
    exact congrArg SymbolId.mk hval

def render (id : SymbolId) : String := s!"sym_{id.val}"

theorem compare_eq (a b : SymbolId) : compare a b = compare a.val b.val := rfl

theorem compare_eq_lt {a b : SymbolId} : compare a b = .lt ↔ a.val < b.val := by
  rw [compare_eq, Std.compare_eq_lt]

end SymbolId

namespace ScopeId

instance : Ord ScopeId := ⟨compareOn ScopeId.val⟩

instance : Std.TransOrd ScopeId := inferInstanceAs (Std.TransCmp (compareOn ScopeId.val))

instance : Std.LawfulEqOrd ScopeId where
  eq_of_compare {a b} h := by
    have hval : a.val = b.val := Std.LawfulEqOrd.eq_of_compare h
    cases a
    cases b
    exact congrArg ScopeId.mk hval

/-- The place outside every scope. -/
def outside : ScopeId := ⟨4294967295⟩

def render (id : ScopeId) : String :=
  if id = outside then "scope_root" else s!"scope_{id.val}"

theorem compare_eq (a b : ScopeId) : compare a b = compare a.val b.val := rfl

theorem compare_eq_lt {a b : ScopeId} : compare a b = .lt ↔ a.val < b.val := by
  rw [compare_eq, Std.compare_eq_lt]

end ScopeId

/-- A table keyed by symbols, read in the order of their numbers. -/
abbrev SymbolTable (α : Type) := Std.ExtTreeMap SymbolId α

/-- A table keyed by scopes, read in the order of their numbers. -/
abbrev ScopeTable (α : Type) := Std.ExtTreeMap ScopeId α

end Ambit
