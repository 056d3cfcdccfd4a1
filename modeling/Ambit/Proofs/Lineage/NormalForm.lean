/-
Normal forms of types, and the questions that do not see the spelling of a type.

A type can be marked as nullable any number of times.  Its normal form has no mark, except when no
wrapper is registered: then a value type keeps its marks, all of them.  Whether a marked type is a
value type is asked again at every mark, of the normal form under it, so how often a type is
wrapped depends on the declaration of the wrapper; but whatever that is, a normal form is its own
normal form.  The questions about a type take it in its normal form first, so they have the same
answer for a type and for its normal form.

Main definitions:

* `Ambit.Store.IsNormal` — **the normal forms**, said without normalizing.

Main results:

* `Ambit.Store.isNormal_normalize` — normalizing gives a normal form;
* `Ambit.Store.normalize_eq_self_iff` — the normal forms are what normalizing leaves as it is;
* `Ambit.Store.normalize_normalize` — a normal form is its own normal form;
* `Ambit.Store.answers_see_normalForm` — **the questions about a type see its normal form only**.
-/

import Ambit.Extension
import Ambit.Member

set_option relaxedAutoImplicit false
set_option autoImplicit false

namespace Ambit.Store

variable {s : Store} {t : TypeRef}

/-! ### Normal forms -/

/-- **The normal forms**: a type without a mark, and a value type in normal form under a mark when
there is no wrapper for it. -/
def IsNormal (s : Store) : TypeRef → Prop
  | .nullable t =>
      s.IsNormal t ∧ s.isValueType t = true ∧ s.wellKnown[WellKnown.nullable]? = none
  | _ => True

theorem isNormal_wrap (h : s.IsNormal t) : s.IsNormal (s.wrap t) := by
  rw [wrap]
  split
  · split
    · trivial
    · rename_i hvalue _ hwrapper
      exact ⟨h, hvalue, hwrapper⟩
  · exact h

/-- **Normalizing gives a normal form.** -/
theorem isNormal_normalize (s : Store) (t : TypeRef) : s.IsNormal (s.normalize t) := by
  induction t using TypeRef.induction with
  | nullable t ih => exact isNormal_wrap ih
  | named | param | array | unresolved => trivial

/-- Normalizing leaves a normal form as it is. -/
theorem IsNormal.normalize_eq (h : s.IsNormal t) : s.normalize t = t := by
  induction t using TypeRef.induction with
  | nullable t ih =>
      obtain ⟨hnormal, hvalue, hwrapper⟩ := h
      rw [normalize, ih hnormal, wrap, if_pos hvalue, hwrapper]
  | named | param | array | unresolved => rfl

/-- **The normal forms are what normalizing leaves as it is.** -/
theorem normalize_eq_self_iff : s.normalize t = t ↔ s.IsNormal t :=
  ⟨fun h => h ▸ isNormal_normalize s t, IsNormal.normalize_eq⟩

/-- **A normal form is its own normal form.** -/
theorem normalize_normalize (t : TypeRef) : s.normalize (s.normalize t) = s.normalize t :=
  (isNormal_normalize s t).normalize_eq

/-- A value type gets wrapped when it is marked as nullable. -/
theorem normalize_nullable_of_isValueType {wrapper : SymbolId}
    (hwrapper : s.wellKnown[WellKnown.nullable]? = some wrapper)
    (hvalue : s.isValueType (s.normalize t) = true) :
    s.normalize (.nullable t) = .named wrapper [s.normalize t] := by
  rw [normalize, wrap, if_pos hvalue, hwrapper]

/-! ### Questions about a type -/

theorem underlying?_normalize (t : TypeRef) : s.underlying? (s.normalize t) = s.underlying? t := by
  rw [underlying?, underlying?, normalize_normalize]

theorem directSupertypes_normalize (t : TypeRef) :
    s.directSupertypes (s.normalize t) = s.directSupertypes t := by
  rw [directSupertypes, directSupertypes, normalize_normalize]

theorem supertypes_normalize (signal : Signal) (t : TypeRef) :
    s.supertypes signal (s.normalize t) = s.supertypes signal t := by
  rw [supertypes, supertypes, normalize_normalize]

theorem typeMembers_normalize (signal : Signal) (t : TypeRef) :
    s.typeMembers signal (s.normalize t) = s.typeMembers signal t := by
  rw [typeMembers, typeMembers, normalize_normalize]

theorem reduce_normalize (signal : Signal) (method : SymbolId) (receiver : TypeRef) :
    s.reduce signal method (s.normalize receiver) = s.reduce signal method receiver := by
  rw [reduce, reduce, normalize_normalize]

/-- **The questions about a type see its normal form only.**  In every store the types that are left
as they are are the normal forms, normalizing gives one of them, and what a type wraps, its direct
supertypes, its supertypes, its members and the types of the parameters of a method that is called
on it are the same for the type and for its normal form. -/
theorem answers_see_normalForm (s : Store) (signal : Signal) (method : SymbolId) (t : TypeRef) :
    (s.normalize t = t ↔ s.IsNormal t) ∧
    s.normalize (s.normalize t) = s.normalize t ∧
    s.underlying? (s.normalize t) = s.underlying? t ∧
    s.directSupertypes (s.normalize t) = s.directSupertypes t ∧
    s.supertypes signal (s.normalize t) = s.supertypes signal t ∧
    s.typeMembers signal (s.normalize t) = s.typeMembers signal t ∧
    s.reduce signal method (s.normalize t) = s.reduce signal method t :=
  ⟨normalize_eq_self_iff, normalize_normalize t, underlying?_normalize t,
    directSupertypes_normalize t, supertypes_normalize signal t, typeMembers_normalize signal t,
    reduce_normalize signal method t⟩

end Ambit.Store
