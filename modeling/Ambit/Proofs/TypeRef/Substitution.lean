/-
Substitution for the parameters that a type mentions.

A substitution acts on a type through the parameters that the type mentions, so two substitutions
that agree on these parameters do the same, and one substitution after another is a third one as
soon as it is so for each of these parameters.  A definition applied to arguments gives a
substitution for its own parameters; a further substitution reaches its arguments only.

Main definitions:

* `Ambit.TypeRef.Mentions` — a parameter that a type mentions;
* `Ambit.Substitution.image` — the type that a substitution gives for a parameter.

Main results:

* `Ambit.TypeRef.mentionsAny_iff` — mentioning one of some parameters;
* `Ambit.TypeRef.substitute_substitute` — **one substitution after another**;
* `Ambit.TypeRef.substitute_congr` — only what is given for the mentioned parameters counts;
* `Ambit.Substitution.getElem?_ofPairs_map` — changing the arguments changes the types that are
  given;
* `Ambit.Substitution.exists_getElem?_ofPairs` — every parameter with an argument is given a type.
-/

import Ambit.TypeRef
import Mathlib.Data.List.Basic

set_option relaxedAutoImplicit false
set_option autoImplicit false

namespace Ambit

/-- The type that a substitution gives for a parameter; one that is not bound stays itself. -/
def Substitution.image (σ : Substitution) (p : SymbolId) : TypeRef := (σ[p]?).getD (.param p)

namespace TypeRef

/-! ### The parameters of a type -/

/-- A type mentions a parameter. -/
def Mentions (t : TypeRef) (p : SymbolId) : Prop := t.mentionsAny [p] = true

instance (t : TypeRef) (p : SymbolId) : Decidable (t.Mentions p) :=
  inferInstanceAs (Decidable (_ = true))

theorem mentions_named {d : SymbolId} {args : List TypeRef} {p : SymbolId} :
    (named d args).Mentions p ↔ ∃ t ∈ args, t.Mentions p := by
  rw [Mentions, mentionsAny, anyMentions_eq_any, List.any_eq_true]
  rfl

theorem mentions_param (p : SymbolId) : (param p).Mentions p := by
  simp [Mentions, mentionsAny]

theorem mentions_param_iff {p q : SymbolId} : (param p).Mentions q ↔ p = q := by
  simp [Mentions, mentionsAny]

theorem mentions_nullable {t : TypeRef} {p : SymbolId} :
    (nullable t).Mentions p ↔ t.Mentions p := Iff.rfl

theorem mentions_array {t : TypeRef} {rank : UInt32} {p : SymbolId} :
    (array t rank).Mentions p ↔ t.Mentions p := Iff.rfl

theorem not_mentions_unresolved {p : SymbolId} : ¬ unresolved.Mentions p := by
  simp [Mentions, mentionsAny]

/-- Mentioning one of some parameters is mentioning a parameter that is among them. -/
theorem mentionsAny_iff {params : List SymbolId} {t : TypeRef} :
    t.mentionsAny params = true ↔ ∃ p ∈ params, t.Mentions p := by
  induction t using induction with
  | named d args ih =>
      rw [mentionsAny, anyMentions_eq_any, List.any_eq_true]
      simp only [mentions_named]
      constructor
      · rintro ⟨t, ht, hmentions⟩
        obtain ⟨p, hp, hmentions⟩ := (ih t ht).1 hmentions
        exact ⟨p, hp, t, ht, hmentions⟩
      · rintro ⟨p, hp, t, ht, hmentions⟩
        exact ⟨t, ht, (ih t ht).2 ⟨p, hp, hmentions⟩⟩
  | param p => simp [mentionsAny, mentions_param_iff]
  | nullable t ih => exact ih
  | array t rank ih => exact ih
  | unresolved => simp [mentionsAny, not_mentions_unresolved]

/-! ### One substitution after another -/

/-- **One substitution after another** is a third one, if it is so for every parameter that the type
mentions. -/
theorem substitute_substitute {σ τ υ : Substitution} {t : TypeRef}
    (h : ∀ p, t.Mentions p → (σ.image p).substitute τ = υ.image p) :
    (t.substitute σ).substitute τ = t.substitute υ := by
  induction t using induction with
  | named d args ih =>
      simp only [substitute_named, List.map_map]
      refine congrArg (named d) (List.map_congr_left fun t ht => ih t ht fun p hp => ?_)
      exact h p (mentions_named.2 ⟨t, ht, hp⟩)
  | param p =>
      rw [substitute_param, substitute_param]
      exact h p (mentions_param p)
  | nullable t ih =>
      rw [substitute_nullable, substitute_nullable, substitute_nullable,
        ih fun p hp => h p (mentions_nullable.2 hp)]
  | array t rank ih =>
      rw [substitute_array, substitute_array, substitute_array,
        ih fun p hp => h p (mentions_array.2 hp)]
  | unresolved => rw [substitute_unresolved, substitute_unresolved, substitute_unresolved]

/-- Substitutions that give the same types for the parameters that a type mentions do the same. -/
theorem substitute_congr {σ τ : Substitution} {t : TypeRef}
    (h : ∀ p, t.Mentions p → σ.image p = τ.image p) : t.substitute σ = t.substitute τ := by
  rw [← substitute_empty (t.substitute σ)]
  refine substitute_substitute fun p hp => ?_
  rw [substitute_empty, h p hp]

end TypeRef

/-! ### The substitution of arguments for parameters -/

namespace Substitution

theorem getElem?_insert_eq (σ : Substitution) (p q : SymbolId) (t : TypeRef) :
    (σ.insert p t)[q]? = if p = q then some t else σ[q]? := by
  rw [Std.ExtTreeMap.getElem?_insert]
  exact if_congr Std.LawfulEqCmp.compare_eq_iff_eq rfl rfl

/-- Binding parameters to changed types changes what a parameter is given, if it was so before. -/
theorem getElem?_foldl_insert_map (f : TypeRef → TypeRef) (pairs : List (SymbolId × TypeRef))
    {σ τ : Substitution} {p : SymbolId} (h : τ[p]? = (σ[p]?).map f) :
    ((pairs.map (Prod.map id f)).foldl (fun υ (q, t) => υ.insert q t) τ)[p]? =
      ((pairs.foldl (fun υ (q, t) => υ.insert q t) σ)[p]?).map f := by
  induction pairs generalizing σ τ with
  | nil => exact h
  | cons pair pairs ih =>
      refine ih ?_
      simp only [Prod.map_fst, Prod.map_snd, id_eq, getElem?_insert_eq]
      split
      · rfl
      · exact h

/-- **Changing the arguments changes the types that are given.** -/
theorem getElem?_ofPairs_map (f : TypeRef → TypeRef) (params : List SymbolId)
    (args : List TypeRef) (p : SymbolId) :
    (ofPairs params (args.map f))[p]? = ((ofPairs params args)[p]?).map f := by
  rw [ofPairs, ofPairs, List.zip_map_right]
  exact getElem?_foldl_insert_map f _ rfl

theorem exists_getElem?_foldl_insert {pairs : List (SymbolId × TypeRef)} {σ : Substitution}
    {p : SymbolId} (h : (∃ t, σ[p]? = some t) ∨ p ∈ pairs.map Prod.fst) :
    ∃ t, (pairs.foldl (fun υ (q, t) => υ.insert q t) σ)[p]? = some t := by
  induction pairs generalizing σ with
  | nil => simpa using h
  | cons pair pairs ih =>
      refine ih ?_
      simp only [getElem?_insert_eq]
      by_cases hp : pair.1 = p
      · exact Or.inl ⟨pair.2, if_pos hp⟩
      · rw [List.map_cons, List.mem_cons] at h
        simp only [if_neg hp]
        exact h.imp_right fun hmem => hmem.resolve_left (Ne.symm hp)

/-- **Every parameter with an argument is given a type.** -/
theorem exists_getElem?_ofPairs {params : List SymbolId} {args : List TypeRef} {p : SymbolId}
    (hlength : args.length = params.length) (hp : p ∈ params) :
    ∃ t, (ofPairs params args)[p]? = some t := by
  refine exists_getElem?_foldl_insert (Or.inr ?_)
  rw [List.map_fst_zip (Nat.le_of_eq hlength.symm)]
  exact hp

end Substitution

end Ambit
