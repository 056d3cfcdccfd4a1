/-
Calling an extension method on a receiver.

A reduction goes through two stages.  The type of the receiver parameter is bound to the receiver,
in a way that depends on the shape of the type; then the types that this gives for the parameters of
the method are held against their constraints.  Whatever the shape is, the type becomes a supertype
of the receiver under what is given, exactly the parameters of the method that it mentions are
given, and all constraints are met.  An open nullable type is bound to what the receiver wraps, and
becomes the receiver again only if that is a value type in normal form.

Main definitions:

* `Ambit.Store.WrapsValue` — a type that wraps a value type in normal form, if it wraps anything;
* `Ambit.Store.Suits` — a substitution that makes a pattern a supertype of a receiver;
* `Ambit.Store.accept` — what is given, if it meets the constraints.

Main results:

* `Ambit.Store.bindReceiver_sound` — what binding the receiver gives;
* `Ambit.Store.meetConstraints_eq_true_iff` — when all constraints are met;
* `Ambit.Store.reduce_sound` — **reductions are sound**.
-/

import Ambit.Extension
import Ambit.Proofs.Lineage.Derivation
import Ambit.Proofs.TypeRef.Fit

set_option relaxedAutoImplicit false
set_option autoImplicit false

namespace Ambit.Store

variable {s : Store} {signal : Signal} {params : List SymbolId} {pattern receiver t : TypeRef}
  {σ : Substitution} {method : SymbolId}

/-! ### What a type wraps -/

theorem underlying?_eq_some_iff :
    s.underlying? t = some receiver ↔ ∃ wrapper, s.wellKnown[WellKnown.nullable]? = some wrapper ∧
      s.normalize t = .named wrapper [receiver] := by
  rw [underlying?]
  split
  · rename_i d inner hnormal
    rw [hnormal, isWellKnown]
    split
    · rename_i hd
      rw [beq_iff_eq] at hd
      simp [hd]
    · rename_i hd
      rw [beq_iff_eq] at hd
      simp only [reduceCtorEq, TypeRef.named.injEq, false_iff, not_exists, not_and]
      rintro wrapper hwrapper rfl
      exact absurd hwrapper hd
  · rename_i hother
    simp only [reduceCtorEq, false_iff, not_exists, not_and]
    intro wrapper _ hnormal
    exact hother wrapper receiver hnormal

/-- If a type is an instance of the wrapper, then what it wraps is a value type in normal form. -/
def WrapsValue (s : Store) (t : TypeRef) : Prop :=
  ∀ inner, s.underlying? t = some inner → s.normalize inner = inner ∧ s.isValueType inner = true

theorem wrapsValue_nullable (h : s.isValueType (s.normalize t) = true) :
    s.WrapsValue (.nullable t) := by
  intro inner hinner
  obtain ⟨wrapper, hwrapper, hnormal⟩ := underlying?_eq_some_iff.1 hinner
  rw [normalize_nullable_of_isValueType hwrapper h] at hnormal
  cases hnormal
  exact ⟨normalize_normalize t, h⟩

/-- What a type wraps is wrapped again by the mark, if it is a value type in normal form. -/
theorem WrapsValue.normalize_nullable (h : s.WrapsValue t) {inner : TypeRef}
    (hinner : s.underlying? t = some inner) :
    s.normalize (.nullable inner) = s.normalize t := by
  obtain ⟨hnormal, hvalue⟩ := h inner hinner
  obtain ⟨wrapper, hwrapper, ht⟩ := underlying?_eq_some_iff.1 hinner
  rw [← hnormal] at hvalue
  rw [normalize_nullable_of_isValueType hwrapper hvalue, hnormal, ht]

/-! ### Binding the receiver -/

/-- A pattern without open parameters has to be a supertype as it is. -/
theorem bindReceiver_of_closed (h : pattern.mentionsAny params = false) :
    s.bindReceiver signal params pattern receiver = do
      return if ← s.derivesFrom signal receiver pattern then some ∅ else none := by
  unfold bindReceiver
  rw [h]
  rfl

theorem bindReceiver_nullable (h : pattern.mentionsAny params = true) :
    s.bindReceiver signal params (.nullable pattern) receiver =
      .ok ((s.underlying? receiver).bind fun t => TypeRef.fit? params pattern t ∅) := by
  have hopen : (TypeRef.nullable pattern).mentionsAny params = true := h
  unfold bindReceiver
  rw [hopen]
  rfl

/-- A supertype with a definition is that definition, applied to its arguments. -/
theorem supertypeWith?_eq_some {d : SymbolId} {found : TypeRef}
    (h : s.supertypeWith? signal t d = .ok (some found)) :
    found = .named d found.args ∧ ∀ all, s.supertypes signal t = .ok all → found ∈ all := by
  obtain ⟨all, hall, hfind⟩ := Answer.bind_eq_ok.1 h
  replace hfind := Except.ok.inj hfind
  constructor
  · have hdefinition := List.find?_some hfind
    cases found with
    | named e args =>
        simp only [TypeRef.definition?, beq_iff_eq, Option.some.injEq] at hdefinition
        rw [hdefinition]
        rfl
    | _ => simp [TypeRef.definition?] at hdefinition
  · intro all' hall'
    rw [hall] at hall'
    cases hall'
    exact List.mem_of_find?_eq_some hfind

theorem normalize_mem_supertypes {all : List TypeRef} (h : s.supertypes signal t = .ok all) :
    s.normalize t ∈ all :=
  (mem_supertypes_iff h).2 .refl

/-- A substitution suits a pattern and a receiver: it gives types for exactly the open parameters of
the pattern, and under it the pattern becomes a supertype of the receiver. -/
def Suits (s : Store) (signal : Signal) (params : List SymbolId) (pattern receiver : TypeRef)
    (σ : Substitution) : Prop :=
  (∀ p, σ.Binds p ↔ p ∈ params ∧ pattern.Mentions p) ∧
    ∀ all, s.supertypes signal receiver = .ok all → s.normalize (pattern.substitute σ) ∈ all

/-- What makes a type fit the pattern, with nothing given before, suits a receiver if the pattern
becomes a supertype of it. -/
theorem suits_of_fits (h : TypeRef.Fits params pattern t ∅ σ)
    (hsupertype : ∀ all, s.supertypes signal receiver = .ok all →
      s.normalize (pattern.substitute σ) ∈ all) :
    s.Suits signal params pattern receiver σ := by
  refine ⟨fun p => ?_, hsupertype⟩
  rw [h.binds_iff]
  exact or_iff_right (Substitution.not_binds_empty p)

theorem suits_of_fit? (h : TypeRef.fit? params pattern receiver ∅ = some σ) :
    s.Suits signal params pattern receiver σ := by
  have hfits := TypeRef.fits_of_fit? (Substitution.within_empty params) h
  refine suits_of_fits hfits fun all hall => ?_
  rw [hfits.image]
  exact normalize_mem_supertypes hall

/-- **What binding the receiver gives**: types for the open parameters of the pattern, under which
the pattern becomes a supertype of the receiver. -/
theorem bindReceiver_sound (hwraps : s.WrapsValue receiver)
    (h : s.bindReceiver signal params pattern receiver = .ok (some σ)) :
    s.Suits signal params pattern receiver σ := by
  cases hopen : pattern.mentionsAny params with
  | false =>
      rw [bindReceiver_of_closed hopen] at h
      obtain ⟨derives, hderives, h⟩ := Answer.bind_eq_ok.1 h
      cases derives with
      | false => cases h
      | true =>
          cases h
          refine ⟨fun p => iff_of_false (Substitution.not_binds_empty p) fun hp => ?_, ?_⟩
          · exact Bool.eq_false_iff.1 hopen (TypeRef.mentionsAny_iff.2 ⟨p, hp⟩)
          · intro all hall
            rw [TypeRef.substitute_empty, mem_supertypes_iff hall]
            exact (derivesFrom_iff_reaches.1 hderives).2.2
  | true =>
      have hnone := Substitution.within_empty params
      cases pattern with
      | nullable inner =>
          have hinner : inner.mentionsAny params = true := hopen
          rw [bindReceiver_nullable hinner] at h
          obtain ⟨wrapped, hwrapped, hfit⟩ := Option.bind_eq_some_iff.1 (Except.ok.inj h)
          obtain ⟨hkept, hbinds, himage⟩ := TypeRef.fits_of_fit? hnone hfit
          have hfits : TypeRef.Fits params (.nullable inner) (.nullable wrapped) ∅ σ :=
            ⟨hkept, hbinds, by rw [TypeRef.substitute_nullable, himage]⟩
          refine suits_of_fits hfits fun all hall => ?_
          rw [hfits.image, hwraps.normalize_nullable hwrapped]
          exact normalize_mem_supertypes hall
      | named d args =>
          unfold bindReceiver at h
          rw [hopen] at h
          obtain ⟨found?, hfound, h⟩ := Answer.bind_eq_ok.1 h
          cases found? with
          | none => cases h
          | some found =>
              have hfits := TypeRef.fits_of_fitAll? d hnone (Except.ok.inj h)
              obtain ⟨hdefinition, hmem⟩ := supertypeWith?_eq_some hfound
              refine suits_of_fits hfits fun all hall => ?_
              rw [hfits.image, normalize, ← hdefinition]
              · exact hmem all hall
              · simp
      | param p =>
          unfold bindReceiver at h
          rw [hopen] at h
          exact suits_of_fit? (Except.ok.inj h)
      | array element rank =>
          unfold bindReceiver at h
          rw [hopen] at h
          exact suits_of_fit? (Except.ok.inj h)
      | unresolved => cases hopen

/-! ### Constraints -/

/-- **All constraints are met** when each parameter that is given a type meets its own. -/
theorem meetConstraints_eq_true_iff :
    s.meetConstraints signal σ params = .ok true ↔
      ∀ p ∈ params, ∀ t, σ[p]? = some t → s.satisfies signal t p σ = .ok true := by
  induction params with
  | nil => simp [meetConstraints]
  | cons p params ih =>
      rw [meetConstraints, List.forall_mem_cons, ← ih]
      cases hp : σ[p]? with
      | none => simp
      | some t =>
          simp only [Answer.bind_eq_ok, Option.some.injEq, forall_eq']
          constructor
          · rintro ⟨satisfied, hsatisfied, h⟩
            cases satisfied with
            | false => cases h
            | true => exact ⟨hsatisfied, h⟩
          · rintro ⟨hsatisfied, h⟩
            exact ⟨true, hsatisfied, h⟩

/-- What is given for the parameters of a method, if it meets their constraints. -/
def accept (s : Store) (signal : Signal) (params : List SymbolId) :
    Option Substitution → Answer (Option Substitution)
  | none => .ok none
  | some given => do
      return if ← s.meetConstraints signal given params then some given else none

theorem accept_eq_some_iff {given : Option Substitution} :
    s.accept signal params given = .ok (some σ) ↔
      given = some σ ∧ s.meetConstraints signal σ params = .ok true := by
  cases given with
  | none => simp [accept]
  | some given =>
      simp only [accept, Answer.bind_eq_ok, Option.some.injEq]
      constructor
      · rintro ⟨met, hmet, h⟩
        cases met with
        | false => cases h
        | true =>
            cases h
            exact ⟨rfl, hmet⟩
      · rintro ⟨rfl, hmet⟩
        exact ⟨true, hmet, rfl⟩

/-- A reduction binds the receiver in its normal form and then looks at the constraints. -/
theorem reduce_eq {parameter : Parameter}
    (hparameter : (s.signatures[method]?).bind Signature.receiver? = some parameter) :
    s.reduce signal method receiver =
      if (s.normalize receiver).isUnresolved then .ok none
      else s.bindReceiver signal (s.typeParamsOf method) parameter.type (s.normalize receiver) >>=
        s.accept signal (s.typeParamsOf method) := by
  rw [reduce, hparameter]
  dsimp only
  split
  · rfl
  · refine congrArg (Bind.bind _) (funext fun given => ?_)
    cases given <;> rfl

/-! ### Soundness -/

/-- **Reductions are sound.**  The types of a reduction are given for exactly the type parameters of
the method that the type of its receiver parameter mentions.  Under them that type becomes a
supertype of the receiver, and each of them satisfies the constraints of its parameter. -/
theorem reduce_sound (h : s.reduce signal method receiver = .ok (some σ))
    (hwraps : s.WrapsValue receiver) :
    ∃ parameter, (s.signatures[method]?).bind Signature.receiver? = some parameter ∧
      (∀ p, σ.Binds p ↔ p ∈ s.typeParamsOf method ∧ parameter.type.Mentions p) ∧
      (∀ all, s.supertypes signal receiver = .ok all →
        s.normalize (parameter.type.substitute σ) ∈ all) ∧
      ∀ (p : SymbolId) (t : TypeRef), σ[p]? = some t → s.satisfies signal t p σ = .ok true := by
  cases hparameter : (s.signatures[method]?).bind Signature.receiver? with
  | none =>
      rw [reduce, hparameter] at h
      cases h
  | some parameter =>
      rw [reduce_eq hparameter] at h
      split at h
      · cases h
      · obtain ⟨given, hgiven, haccept⟩ := Answer.bind_eq_ok.1 h
        obtain ⟨rfl, hmet⟩ := accept_eq_some_iff.1 haccept
        have hwraps' : s.WrapsValue (s.normalize receiver) := by
          intro inner hinner
          rw [underlying?_normalize] at hinner
          exact hwraps inner hinner
        obtain ⟨hbinds, hsupertype⟩ := bindReceiver_sound hwraps' hgiven
        refine ⟨parameter, rfl, hbinds, fun all hall => ?_, fun p t hp => ?_⟩
        · rw [← supertypes_normalize] at hall
          exact hsupertype all hall
        · exact meetConstraints_eq_true_iff.1 hmet p ((hbinds p).1 ⟨t, hp⟩).1 t hp

/-- A value type that implements an interface for itself, one that does not, and an extension method
on nullable types whose parameter has to be of the first sort. -/
def selfBounded : Store :=
  empty.insertType { id := ⟨0⟩, kind := .structType }
    |>.insertType { id := ⟨1⟩, kind := .interfaceType }
    |>.insertType { id := ⟨2⟩, kind := .structType, interfaces := [.named ⟨1⟩ [.plain ⟨2⟩]] }
    |>.insertType { id := ⟨5⟩, kind := .structType, interfaces := [.named ⟨1⟩ [.plain ⟨2⟩]] }
    |>.insertTypeParam { id := ⟨4⟩, owner := ⟨3⟩, ordinal := 0, valueType := true,
                         constraints := [.named ⟨1⟩ [.param ⟨4⟩]] }
    |>.insertSignature { id := ⟨3⟩, params := [{ name := "self", type := .nullable (.param ⟨4⟩),
                                                 kind := .receiver }] }
    |>.register .nullable ⟨0⟩

/-- The parameter of the method is the value type. -/
def selfBoundedGiven : Substitution := .ofPairs [⟨4⟩] [.plain ⟨2⟩]

/-- On the nullable value type the method has the value type for its parameter: the type of its
receiver parameter becomes the instance of the wrapper, and the constraint is met in its closed
form.  The other value type fits the parameter too, but implements the interface for the wrong type;
it does not meet the constraint, and there is no reduction. -/
theorem reduce_sound_selfBounded :
    selfBounded.reduce .quiet ⟨3⟩ (.nullable (.plain ⟨2⟩)) = .ok (some selfBoundedGiven) ∧
      selfBounded.WrapsValue (.nullable (.plain ⟨2⟩)) ∧
      selfBounded.supertypes .quiet (.nullable (.plain ⟨2⟩)) = .ok [.named ⟨0⟩ [.plain ⟨2⟩]] ∧
      selfBounded.normalize ((TypeRef.nullable (.param ⟨4⟩)).substitute selfBoundedGiven) ∈
        [TypeRef.named ⟨0⟩ [.plain ⟨2⟩]] ∧
      selfBounded.satisfies .quiet (.plain ⟨2⟩) ⟨4⟩ selfBoundedGiven = .ok true ∧
      (∃ σ, selfBounded.bindReceiver .quiet [⟨4⟩] (.nullable (.param ⟨4⟩))
          (.named ⟨0⟩ [.plain ⟨5⟩]) = .ok (some σ) ∧
        selfBounded.satisfies .quiet (.plain ⟨5⟩) ⟨4⟩ σ = .ok false) ∧
      selfBounded.reduce .quiet ⟨3⟩ (.nullable (.plain ⟨5⟩)) = .ok none := by
  have hreduce : selfBounded.reduce .quiet ⟨3⟩ (.nullable (.plain ⟨2⟩)) =
      .ok (some selfBoundedGiven) := by decide +kernel
  have hwraps : selfBounded.WrapsValue (.nullable (.plain ⟨2⟩)) := wrapsValue_nullable rfl
  have hsupertypes : selfBounded.supertypes .quiet (.nullable (.plain ⟨2⟩)) =
      .ok [.named ⟨0⟩ [.plain ⟨2⟩]] := by decide +kernel
  obtain ⟨parameter, hparameter, -, hmem, hsatisfies⟩ := reduce_sound hreduce hwraps
  cases hparameter
  exact ⟨hreduce, hwraps, hsupertypes, hmem _ hsupertypes, hsatisfies ⟨4⟩ (.plain ⟨2⟩) rfl,
    ⟨.ofPairs [⟨4⟩] [.plain ⟨5⟩], by decide +kernel, by decide +kernel⟩, by decide +kernel⟩

end Ambit.Store
