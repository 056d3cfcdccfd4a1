/-
A type that fits a pattern is the pattern after substitution.

Fitting goes through a pattern from left to right and gives types for the open parameters that it
meets.  What was given before is kept, nothing is given but for the open parameters of the pattern,
and the pattern becomes the type.  A part of the pattern that fits does not change any more, since
all open parameters in it have their types by then, and the parameters that are not open never get
one.

Main definitions:

* `Ambit.Substitution.Binds` — a substitution gives a type for a parameter;
* `Ambit.Substitution.Within` — a substitution for some of the given parameters;
* `Ambit.TypeRef.Fits` — what becomes of the types given so far when a type fits a pattern.

Main results:

* `Ambit.TypeRef.Fits.cons` — a pattern after another one;
* `Ambit.TypeRef.fits_of_fit?`, `Ambit.TypeRef.fits_of_fitAll?` — **fitting is sound**.
-/

import Ambit.Proofs.TypeRef.Substitution
import Ambit.TypeRef.Fit

set_option relaxedAutoImplicit false
set_option autoImplicit false

namespace Ambit

/-- The substitution gives a type for a parameter. -/
def Substitution.Binds (σ : Substitution) (p : SymbolId) : Prop := ∃ t, σ[p]? = some t

theorem Substitution.getElem?_eq_none_of_not_binds {σ : Substitution} {p : SymbolId}
    (h : ¬ σ.Binds p) : σ[p]? = none :=
  Option.eq_none_iff_forall_ne_some.2 fun t ht => h ⟨t, ht⟩

theorem Substitution.image_eq_of_not_binds {σ : Substitution} {p : SymbolId} (h : ¬ σ.Binds p) :
    σ.image p = .param p := by
  rw [image, getElem?_eq_none_of_not_binds h, Option.getD_none]

theorem Substitution.not_binds_empty (p : SymbolId) : ¬ (∅ : Substitution).Binds p := by
  rintro ⟨t, ht⟩
  simp at ht

/-- The substitution gives types for some of the parameters, and for no other. -/
def Substitution.Within (σ : Substitution) (params : List SymbolId) : Prop :=
  ∀ p, σ.Binds p → p ∈ params

theorem Substitution.Within.image_eq {σ : Substitution} {params : List SymbolId} {p : SymbolId}
    (h : σ.Within params) (hp : p ∉ params) : σ.image p = .param p :=
  image_eq_of_not_binds fun hbinds => hp (h p hbinds)

theorem Substitution.within_empty (params : List SymbolId) : (∅ : Substitution).Within params :=
  fun p hp => absurd hp (not_binds_empty p)

namespace TypeRef

/-- A type fits a pattern whose parameters `params` are open: the types `σ` given before become `τ`.
They are kept, exactly the open parameters of the pattern are added to them, and the pattern becomes
the type. -/
structure Fits (params : List SymbolId) (pattern t : TypeRef) (σ τ : Substitution) : Prop where
  kept : ∀ (p : SymbolId) (u : TypeRef), σ[p]? = some u → τ[p]? = some u
  binds_iff : ∀ p, τ.Binds p ↔ σ.Binds p ∨ (p ∈ params ∧ pattern.Mentions p)
  image : pattern.substitute τ = t

variable {params : List SymbolId} {pattern t : TypeRef} {patterns ts : List TypeRef}
  {σ ρ τ : Substitution} {p d : SymbolId}

namespace Fits

/-- When nothing is to be given, nothing changes. -/
theorem same (hmentions : ∀ p ∈ params, pattern.Mentions p → σ.Binds p)
    (himage : pattern.substitute σ = t) : Fits params pattern t σ σ where
  kept _ _ h := h
  binds_iff p := ⟨Or.inl, fun h => h.elim id fun h => hmentions p h.1 h.2⟩
  image := himage

theorem within (h : Fits params pattern t σ τ) (hσ : σ.Within params) : τ.Within params :=
  fun p hp => ((h.binds_iff p).1 hp).elim (hσ p) And.left

/-- What is given later does not change a pattern that fits. -/
theorem substitute_eq (h : Fits params pattern t σ ρ) {pattern' t' : TypeRef}
    (h' : Fits params pattern' t' ρ τ) : pattern.substitute τ = t := by
  rw [← h.image]
  refine substitute_congr fun p hp => ?_
  rw [Substitution.image, Substitution.image]
  by_cases hbinds : ρ.Binds p
  · obtain ⟨u, hu⟩ := hbinds
    rw [hu, h'.kept p u hu]
  · -- a parameter of the pattern without a type is not open, so it never gets one
    have hp' : p ∉ params := fun hmem => hbinds ((h.binds_iff p).2 (Or.inr ⟨hmem, hp⟩))
    have hbinds' : ¬ τ.Binds p := fun hτ =>
      ((h'.binds_iff p).1 hτ).elim hbinds fun hmem => hp' hmem.1
    rw [Substitution.getElem?_eq_none_of_not_binds hbinds,
      Substitution.getElem?_eq_none_of_not_binds hbinds']

/-- **A pattern after another one.** -/
theorem cons (h : Fits params pattern t σ ρ)
    (h' : Fits params (.named d patterns) (.named d ts) ρ τ) :
    Fits params (.named d (pattern :: patterns)) (.named d (t :: ts)) σ τ where
  kept p u hu := h'.kept p u (h.kept p u hu)
  binds_iff p := by
    have hmentions : (named d (pattern :: patterns)).Mentions p ↔
        pattern.Mentions p ∨ (named d patterns).Mentions p := by
      simp only [mentions_named, List.exists_mem_cons_iff]
    rw [h'.binds_iff, h.binds_iff, hmentions, or_assoc, and_or_left]
  image := by
    have htail := h'.image
    rw [substitute_named, named.injEq] at htail
    rw [substitute_named, List.map_cons, h.substitute_eq h', htail.2]

end Fits

/-- An open parameter fits every type that it was not given another type before. -/
theorem fits_of_fitParam? (hp : p ∈ params) (h : fitParam? p t σ = some τ) :
    Fits params (.param p) t σ τ := by
  rw [fitParam?] at h
  split at h
  · rename_i bound hbound
    split at h
    · cases h
      rename_i heq
      refine .same (fun q _ hq => ?_) ?_
      · rw [← mentions_param_iff.1 hq]
        exact ⟨bound, hbound⟩
      · rw [substitute_param, hbound, Option.getD_some, heq]
    · cases h
  · rename_i hnone
    cases h
    refine ⟨fun q u hu => ?_, fun q => ?_, ?_⟩
    · rw [Substitution.getElem?_insert_eq, if_neg, hu]
      rintro rfl
      rw [hnone] at hu
      cases hu
    · rw [Substitution.Binds, Substitution.getElem?_insert_eq, mentions_param_iff]
      by_cases hq : p = q
      · simp [← hq, hp]
      · simp [hq, Substitution.Binds]
    · rw [substitute_param, Substitution.getElem?_insert_eq, if_pos rfl, Option.getD_some]

/-- **Fitting is sound** for lists of patterns, if it is for each of them. -/
theorem fits_of_fitAll?_of_forall
    (hfit : ∀ pattern ∈ patterns, ∀ t σ τ, σ.Within params →
      fit? params pattern t σ = some τ → Fits params pattern t σ τ)
    (hσ : σ.Within params) (h : fitAll? params patterns ts σ = some τ) :
    Fits params (.named d patterns) (.named d ts) σ τ := by
  induction patterns generalizing ts σ with
  | nil =>
      cases ts with
      | nil =>
          rw [fitAll?] at h
          cases h
          exact .same (fun p _ hp => by simp [mentions_named] at hp) (substitute_named _ _ _)
      | cons t ts => simp [fitAll?] at h
  | cons pattern patterns ih =>
      cases ts with
      | nil => simp [fitAll?] at h
      | cons t ts =>
          rw [fitAll?] at h
          obtain ⟨ρ, hρ, hτ⟩ := Option.bind_eq_some_iff.1 h
          have hhead := hfit pattern (List.mem_cons_self ..) t σ ρ hσ hρ
          refine hhead.cons (ih (fun pattern hpattern => ?_) (hhead.within hσ) hτ)
          exact hfit pattern (List.mem_cons_of_mem _ hpattern)

/-- **Fitting is sound**: what is given for the open parameters is kept and makes the pattern the
type, and no other parameter is given a type. -/
theorem fits_of_fit? (hσ : σ.Within params) (h : fit? params pattern t σ = some τ) :
    Fits params pattern t σ τ := by
  induction pattern using induction generalizing t σ τ with
  | named d patterns ih =>
      cases t with
      | named e ts =>
          rw [fit?] at h
          split at h
          · rename_i hd
            exact hd ▸ fits_of_fitAll?_of_forall (fun pattern hp t σ τ => ih pattern hp) hσ h
          · cases h
      | _ => simp [fit?] at h
  | param p =>
      rw [fit?] at h
      split at h
      · rename_i hp
        exact fits_of_fitParam? (List.contains_iff_mem.1 hp) h
      · rename_i hp
        split at h
        · cases h
          rename_i ht
          rw [List.contains_iff_mem] at hp
          refine .same (fun q hq hmentions => ?_) ?_
          · exact absurd (mentions_param_iff.1 hmentions ▸ hq) hp
          · rw [ht, substitute_param]
            exact hσ.image_eq hp
        · cases h
  | nullable pattern ih =>
      cases t with
      | nullable t =>
          rw [fit?] at h
          obtain ⟨hkept, hbinds, himage⟩ := ih hσ h
          exact ⟨hkept, hbinds, by rw [substitute_nullable, himage]⟩
      | _ => simp [fit?] at h
  | array pattern rank ih =>
      cases t with
      | array t rank' =>
          rw [fit?] at h
          split at h
          · rename_i hrank
            obtain ⟨hkept, hbinds, himage⟩ := ih hσ h
            exact ⟨hkept, hbinds, by rw [substitute_array, himage, hrank]⟩
          · cases h
      | _ => simp [fit?] at h
  | unresolved =>
      cases t with
      | unresolved =>
          rw [fit?] at h
          cases h
          exact .same (fun p _ hp => absurd hp not_mentions_unresolved)
            (substitute_unresolved σ)
      | _ => simp [fit?] at h

/-- Fitting is sound for lists of patterns: the patterns become the types. -/
theorem fits_of_fitAll? (d : SymbolId) (hσ : σ.Within params)
    (h : fitAll? params patterns ts σ = some τ) :
    Fits params (.named d patterns) (.named d ts) σ τ :=
  fits_of_fitAll?_of_forall (fun _ _ _ _ _ => fits_of_fit?) hσ h

end TypeRef

end Ambit
