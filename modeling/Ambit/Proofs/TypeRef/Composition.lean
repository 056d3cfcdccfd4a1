/-
One substitution after another is a substitution.

Doing two substitutions one after the other takes every parameter that the first one binds to its
type, with the second one done in it, and every other parameter to what the second one gives.  So
the two have a composite, which can be tabulated, and which does to every type what they do.  A
substitution that binds none of the parameters of a type leaves the type as it is; the empty one is
the case that is cheap to notice.

Main definitions:

* `Ambit.Substitution.andThen` — **the composite** of two substitutions.

Main results:

* `Ambit.Substitution.getElem?_andThen` — what the composite gives for a parameter;
* `Ambit.TypeRef.substitute_eq_self` — a type that mentions no bound parameter;
* `Ambit.TypeRef.substitute_composes` — **substitution composes**.
-/

import Ambit.Proofs.TypeRef.Fit

set_option relaxedAutoImplicit false
set_option autoImplicit false

namespace Ambit

namespace Substitution

/-- **The composite**: the first substitution, and after it the second one.  What the first one
binds comes before what the second one binds. -/
def andThen (σ τ : Substitution) : Substitution :=
  τ ∪ σ.map fun _ t => t.substitute τ

/-- A parameter of the first substitution is given its type, with the second one done in it; any
other is given what the second one gives. -/
theorem getElem?_andThen (σ τ : Substitution) (p : SymbolId) :
    (σ.andThen τ)[p]? = ((σ[p]?).map (TypeRef.substitute τ)).or τ[p]? := by
  rw [andThen, Std.ExtTreeMap.getElem?_union, Std.ExtTreeMap.getElem?_map]

theorem image_andThen (σ τ : Substitution) (p : SymbolId) :
    (σ.andThen τ).image p = (σ.image p).substitute τ := by
  rw [image, getElem?_andThen, image]
  cases σ[p]? with
  | some t => rfl
  | none => exact (TypeRef.substitute_param τ p).symm

end Substitution

namespace TypeRef

variable {σ : Substitution} {t : TypeRef}

/-- **A type that mentions no bound parameter** is left as it is. -/
theorem substitute_eq_self (h : ∀ p, σ.Binds p → ¬ t.Mentions p) : t.substitute σ = t := by
  refine (substitute_congr fun p hp => ?_).trans (substitute_empty t)
  have hbinds : ¬ σ.Binds p := fun hbinds => h p hbinds hp
  rw [Substitution.image_eq_of_not_binds hbinds,
    Substitution.image_eq_of_not_binds (Substitution.not_binds_empty p)]

/-- **Substitution composes.**  The composite binds each parameter of the first substitution to its
type with the second one done in it, and each other parameter as the second one does; it does to
every type what the two do one after the other.  And a substitution does nothing to a type that
mentions none of the parameters it binds. -/
theorem substitute_composes (t : TypeRef) (σ τ : Substitution) :
    (∀ (p : SymbolId) (u : TypeRef), σ[p]? = some u →
      (σ.andThen τ)[p]? = some (u.substitute τ)) ∧
    (∀ p, ¬ σ.Binds p → (σ.andThen τ)[p]? = τ[p]?) ∧
    (t.substitute σ).substitute τ = t.substitute (σ.andThen τ) ∧
    ((∀ p, σ.Binds p → ¬ t.Mentions p) → t.substitute σ = t) := by
  refine ⟨fun p u hu => ?_, fun p hp => ?_, ?_, substitute_eq_self⟩
  · rw [Substitution.getElem?_andThen, hu, Option.map_some, Option.some_or]
  · rw [Substitution.getElem?_andThen, Substitution.getElem?_eq_none_of_not_binds hp,
      Option.map_none, Option.none_or]
  · exact substitute_substitute fun p _ => (Substitution.image_andThen σ τ p).symm

end TypeRef

end Ambit
