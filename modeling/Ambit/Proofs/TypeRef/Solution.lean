/-
A type fits a pattern whenever there is a solution.

A solution of a pattern and a type gives types for open parameters only, keeps the types that were
given before, and makes the pattern the type.  Fitting finds one whenever there is one, since each
of its steps asks for no more than every solution has to grant: an open parameter that the pattern
meets becomes what a solution makes of it, and a parameter that is not open stays itself.  What is
found may still bind more than a given solution does, namely a parameter to itself, which a solution
can also leave out; so the two are compared by what they make of a parameter, and not by what they
bind.

Main definitions:

* `Ambit.Substitution.Extends` — a substitution that keeps what another one gives;
* `Ambit.Substitution.Follows` — a substitution that makes of parameters what another one makes of
  them;
* `Ambit.TypeRef.Solves` — **a solution** of a pattern and a type.

Main results:

* `Ambit.TypeRef.exists_fit?_of_follows` — **fitting is complete**, and every solution follows what
  is found;
* `Ambit.TypeRef.fit?_sound_and_complete` — a type fits a pattern exactly when there is a solution,
  and what is found is one that binds no more than it has to.
-/

import Ambit.Proofs.TypeRef.Fit

set_option relaxedAutoImplicit false
set_option autoImplicit false

namespace Ambit

namespace Substitution

/-- The substitution keeps what another one gives. -/
def Extends (τ σ : Substitution) : Prop :=
  ∀ (p : SymbolId) (u : TypeRef), σ[p]? = some u → τ[p]? = some u

/-- The substitution makes of every parameter that another one binds what that one makes of it.  It
need not bind the parameter, if the other one binds it to itself. -/
def Follows (τ σ : Substitution) : Prop :=
  ∀ (p : SymbolId) (u : TypeRef), σ[p]? = some u → τ.image p = u

variable {σ τ : Substitution}

theorem Extends.follows (h : τ.Extends σ) : τ.Follows σ := by
  intro p u hu
  rw [image, h p u hu, Option.getD_some]

theorem Follows.insert (h : τ.Follows σ) (p : SymbolId) :
    τ.Follows (σ.insert p (τ.image p)) := by
  intro q u hu
  rw [getElem?_insert_eq] at hu
  split at hu
  · rename_i hpq
    rw [← hpq]
    exact Option.some.inj hu
  · exact h q u hu

end Substitution

namespace TypeRef

/-- **A solution**: it gives types for open parameters only, keeps the types `σ` given before, and
makes the pattern the type. -/
structure Solves (params : List SymbolId) (pattern t : TypeRef) (σ τ : Substitution) : Prop where
  within : τ.Within params
  keeps : τ.Extends σ
  image : pattern.substitute τ = t

variable {params : List SymbolId} {pattern : TypeRef} {patterns : List TypeRef}
  {σ τ : Substitution}

/-! ### Fitting finds a solution -/

theorem exists_fitParam?_of_follows (h : τ.Follows σ) (p : SymbolId) :
    ∃ ρ, fitParam? p (τ.image p) σ = some ρ ∧ τ.Follows ρ := by
  rw [fitParam?]
  split
  · rename_i bound hbound
    exact ⟨σ, if_pos (h p bound hbound).symm, h⟩
  · exact ⟨_, rfl, h.insert p⟩

/-- **Fitting is complete** for lists of patterns, if it is for each of them. -/
theorem exists_fitAll?_of_forall
    (hfit : ∀ pattern ∈ patterns, ∀ σ, τ.Follows σ →
      ∃ ρ, fit? params pattern (pattern.substitute τ) σ = some ρ ∧ τ.Follows ρ)
    (h : τ.Follows σ) :
    ∃ ρ, fitAll? params patterns (patterns.map (substitute τ)) σ = some ρ ∧ τ.Follows ρ := by
  induction patterns generalizing σ with
  | nil => exact ⟨σ, by rw [List.map_nil, fitAll?], h⟩
  | cons pattern patterns ih =>
      obtain ⟨ρ, hρ, hfollows⟩ := hfit pattern (List.mem_cons_self ..) σ h
      obtain ⟨υ, hυ, hfollows⟩ :=
        ih (fun pattern hpattern => hfit pattern (List.mem_cons_of_mem _ hpattern)) hfollows
      refine ⟨υ, ?_, hfollows⟩
      rw [List.map_cons, fitAll?, hρ, Option.bind_some, hυ]

/-- **Fitting is complete**: what a substitution for open parameters makes of a pattern fits the
pattern, and the substitution follows what is found. -/
theorem exists_fit?_of_follows (hwithin : τ.Within params) (h : τ.Follows σ) :
    ∃ ρ, fit? params pattern (pattern.substitute τ) σ = some ρ ∧ τ.Follows ρ := by
  induction pattern using induction generalizing σ with
  | named d patterns ih =>
      rw [substitute_named, fit?, if_pos rfl]
      exact exists_fitAll?_of_forall (fun pattern hpattern σ => ih pattern hpattern) h
  | param p =>
      have himage : (param p).substitute τ = τ.image p := substitute_param τ p
      rw [himage, fit?]
      split
      · exact exists_fitParam?_of_follows h p
      · -- a parameter that is not open fits itself only, and a solution leaves it as it is
        rename_i hp
        rw [List.contains_iff_mem] at hp
        exact ⟨σ, if_pos (hwithin.image_eq hp), h⟩
  | nullable pattern ih =>
      rw [substitute_nullable, fit?]
      exact ih h
  | array pattern rank ih =>
      rw [substitute_array, fit?, if_pos rfl]
      exact ih h
  | unresolved => exact ⟨σ, by rw [substitute_unresolved, fit?], h⟩

/-! ### Fitting and solutions -/

/-- What fitting finds is a solution. -/
theorem Fits.solves {t : TypeRef} (h : Fits params pattern t σ τ) (hσ : σ.Within params) :
    Solves params pattern t σ τ where
  within := h.within hσ
  keeps := h.kept
  image := h.image

/-- **A type fits a pattern exactly when there is a solution.**  What is found is a solution, and it
binds beyond the types given before exactly the open parameters that the pattern mentions. -/
theorem fit?_sound_and_complete (pattern t : TypeRef) (hσ : σ.Within params) :
    ((fit? params pattern t σ).isSome = true ↔ ∃ τ, Solves params pattern t σ τ) ∧
    ∀ τ, fit? params pattern t σ = some τ →
      τ.Extends σ ∧ (∀ p, τ.Binds p ↔ σ.Binds p ∨ (p ∈ params ∧ pattern.Mentions p)) ∧
        pattern.substitute τ = t := by
  refine ⟨⟨fun h => ?_, ?_⟩, fun τ h => ?_⟩
  · obtain ⟨τ, hτ⟩ := Option.isSome_iff_exists.1 h
    exact ⟨τ, (fits_of_fit? hσ hτ).solves hσ⟩
  · rintro ⟨τ, hwithin, hkeeps, rfl⟩
    obtain ⟨ρ, hρ, -⟩ := exists_fit?_of_follows hwithin hkeeps.follows
    rw [hρ, Option.isSome_some]
  · obtain ⟨hkept, hbinds, himage⟩ := fits_of_fit? hσ h
    exact ⟨hkept, hbinds, himage⟩

/-- An open parameter that comes twice, one that has its type already, and one that is not open:
only the first one is added. -/
theorem fit?_sound_and_complete_repeated :
    (Substitution.ofPairs [⟨4⟩] [.plain ⟨1⟩]).Within [⟨3⟩, ⟨4⟩] ∧
      ∃ τ, fit? [⟨3⟩, ⟨4⟩]
          (.named ⟨0⟩ [.param ⟨3⟩, .array (.nullable (.param ⟨3⟩)) 1, .param ⟨4⟩, .param ⟨5⟩])
          (.named ⟨0⟩ [.param ⟨3⟩, .array (.nullable (.param ⟨3⟩)) 1, .plain ⟨1⟩, .param ⟨5⟩])
          (Substitution.ofPairs [⟨4⟩] [.plain ⟨1⟩]) = some τ ∧
        τ.Binds ⟨3⟩ ∧ ¬ τ.Binds ⟨5⟩ := by
  have hwithin : (Substitution.ofPairs [⟨4⟩] [.plain ⟨1⟩]).Within [⟨3⟩, ⟨4⟩] := by
    rintro p ⟨u, hu⟩
    simp only [Substitution.ofPairs, List.zip_cons_cons, List.zip_nil_left, List.foldl_cons,
      List.foldl_nil, Substitution.getElem?_insert_eq] at hu
    split at hu
    · rename_i hp
      exact hp ▸ List.mem_cons_of_mem _ (List.mem_singleton_self _)
    · simp at hu
  obtain ⟨hsolved, hfound⟩ := fit?_sound_and_complete
    (.named ⟨0⟩ [.param ⟨3⟩, .array (.nullable (.param ⟨3⟩)) 1, .param ⟨4⟩, .param ⟨5⟩])
    (.named ⟨0⟩ [.param ⟨3⟩, .array (.nullable (.param ⟨3⟩)) 1, .plain ⟨1⟩, .param ⟨5⟩]) hwithin
  -- the types given before are a solution already: the parameter that is left stays itself
  obtain ⟨τ, hτ⟩ := Option.isSome_iff_exists.1
    (hsolved.2 ⟨_, hwithin, fun _ _ hu => hu, by decide +kernel⟩)
  obtain ⟨-, hbinds, -⟩ := hfound τ hτ
  refine ⟨hwithin, τ, hτ, (hbinds _).2 (.inr ⟨by decide, by decide⟩), fun h => ?_⟩
  rcases (hbinds _).1 h with h | h
  · exact absurd (hwithin _ h) (by decide)
  · exact absurd h.1 (by decide)

end TypeRef

end Ambit
