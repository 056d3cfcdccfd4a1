/-
Instances of generic types inherit instances of what the generic types inherit.

A declaration names its base and its interfaces in terms of its own type parameters.  If every
definition is applied to as many arguments as it has parameters, then the arguments of a type take
the place of all parameters that its declaration mentions, and nothing else in the supertypes can be
touched by a substitution.  So substituting in a type and going to its supertypes can be done in
either order, for one step and hence for all of them.  Substituting may make different supertypes
equal, and then one search finds fewer types than the other; what is found is the same.

Main definitions:

* `Ambit.Store.Saturated` — a definition applied to as many arguments as it has parameters;
* `Ambit.Store.Regular` — a store whose declarations name such types, over their own parameters.

Main results:

* `Ambit.Store.Regular.directSupertypes_substitute` — **one step**;
* `Ambit.Store.Regular.reaches_substitute_iff` — any number of steps;
* `Ambit.Store.Regular.supertypes_of_instance` — **the supertypes of an instance are the instances
  of the supertypes**.
-/

import Ambit.Proofs.Answer
import Ambit.Proofs.Lineage.Reachability
import Ambit.Proofs.TypeRef.Substitution

set_option relaxedAutoImplicit false
set_option autoImplicit false

namespace Ambit.Store

variable {s : Store} {t u : TypeRef} {σ : Substitution}

/-! ### Saturated types -/

/-- A definition that is applied to as many arguments as it has type parameters. -/
def Saturated (s : Store) (t : TypeRef) : Prop :=
  ∃ d args, t = .named d args ∧ args.length = (s.typeParamsOf d).length

theorem Saturated.normalize_eq (h : s.Saturated t) : s.normalize t = t := by
  obtain ⟨d, args, rfl, -⟩ := h
  rfl

/-- An instance of a saturated type is saturated. -/
theorem Saturated.substitute (h : s.Saturated t) (σ : Substitution) :
    s.Saturated (t.substitute σ) := by
  obtain ⟨d, args, rfl, hargs⟩ := h
  refine ⟨d, args.map (TypeRef.substitute σ), TypeRef.substitute_named σ d args, ?_⟩
  rw [List.length_map]
  exact hargs

/-! ### Regular stores -/

/-- A store whose declarations name saturated types over their own type parameters, and whose roots
have no type parameters. -/
structure Regular (s : Store) : Prop where
  saturated : ∀ (d : SymbolId) (decl : TypeDecl), s.types[d]? = some decl →
    ∀ t ∈ decl.base.toList ++ decl.interfaces, s.Saturated t
  closed : ∀ (d : SymbolId) (decl : TypeDecl), s.types[d]? = some decl →
    ∀ t ∈ decl.base.toList ++ decl.interfaces, ∀ p, t.Mentions p → p ∈ s.typeParamsOf d
  root : ∀ kind ∈ [WellKnown.object, .valueType, .enum], ∀ root,
    s.wellKnown[kind]? = some root → s.typeParamsOf root = []

namespace Regular

theorem exists_root_of_impliedBase? {decl : TypeDecl} {root : SymbolId}
    (h : s.impliedBase? decl = some root) :
    ∃ kind ∈ [WellKnown.object, .valueType, .enum], s.wellKnown[kind]? = some root := by
  obtain ⟨hroot, -⟩ := Option.filter_eq_some_iff.1 h
  obtain ⟨kind, hkind, hregistered⟩ := Option.bind_eq_some_iff.1 hroot
  refine ⟨kind, ?_, hregistered⟩
  cases hdecl : decl.kind <;> rw [hdecl] at hkind <;> cases hkind <;> simp

/-- What a type inherits, before its arguments are put in, is saturated and mentions the parameters
of the declaration at most. -/
theorem of_mem_inherited (h : s.Regular) {d : SymbolId} {decl : TypeDecl}
    (hdecl : s.types[d]? = some decl)
    (ht : t ∈ (s.declaredBase? decl).toList ++ decl.interfaces) :
    s.Saturated t ∧ ∀ p, t.Mentions p → p ∈ s.typeParamsOf d := by
  rw [declaredBase?] at ht
  cases hbase : decl.base with
  | some base =>
      rw [hbase] at ht
      have ht' : t ∈ decl.base.toList ++ decl.interfaces := by
        rw [hbase]
        exact ht
      exact ⟨h.saturated d decl hdecl t ht', h.closed d decl hdecl t ht'⟩
  | none =>
      rw [hbase] at ht
      rcases List.mem_append.1 ht with ht | ht
      · obtain ⟨root, hroot, rfl⟩ := Option.map_eq_some_iff.1 (Option.mem_toList.1 ht)
        obtain ⟨kind, hkind, hregistered⟩ := exists_root_of_impliedBase? hroot
        refine ⟨⟨root, [], rfl, by rw [h.root kind hkind root hregistered]; rfl⟩, ?_⟩
        intro p hp
        obtain ⟨_, harg, -⟩ := TypeRef.mentions_named.1 hp
        cases harg
      · have ht' : t ∈ decl.base.toList ++ decl.interfaces := List.mem_append_right _ ht
        exact ⟨h.saturated d decl hdecl t ht', h.closed d decl hdecl t ht'⟩

/-! ### One step -/

/-- Putting in arguments and then substituting is putting in the arguments after substitution, for a
type that mentions the parameters at most. -/
theorem substitute_instantiation {d : SymbolId} {args : List TypeRef}
    (hargs : args.length = (s.typeParamsOf d).length)
    (ht : ∀ p, t.Mentions p → p ∈ s.typeParamsOf d) (σ : Substitution) :
    (t.substitute (s.instantiation (.named d args))).substitute σ =
      t.substitute (s.instantiation (.named d (args.map (TypeRef.substitute σ)))) := by
  refine TypeRef.substitute_substitute fun p hp => ?_
  obtain ⟨u, hu⟩ := Substitution.exists_getElem?_ofPairs hargs (ht p hp)
  simp only [Substitution.image, instantiation, Substitution.getElem?_ofPairs_map, hu,
    Option.map_some, Option.getD_some]

/-- **One step**: the direct supertypes of an instance are the instances of the direct
supertypes. -/
theorem directSupertypes_substitute (h : s.Regular) (ht : s.Saturated t) (σ : Substitution) :
    s.directSupertypes (t.substitute σ) = (s.directSupertypes t).map (TypeRef.substitute σ) := by
  obtain ⟨d, args, rfl, hargs⟩ := ht
  rw [TypeRef.substitute_named]
  simp only [directSupertypes, normalize, supertypesOfNormal]
  cases hdecl : s.types[d]? with
  | none => rfl
  | some decl =>
      dsimp only
      rw [List.map_map]
      refine List.map_congr_left fun t ht => ?_
      exact (substitute_instantiation hargs (h.of_mem_inherited hdecl ht).2 σ).symm

theorem saturated_of_mem_directSupertypes (h : s.Regular) (ht : s.Saturated t)
    (hu : u ∈ s.directSupertypes t) : s.Saturated u := by
  obtain ⟨d, args, rfl, -⟩ := ht
  simp only [directSupertypes, normalize, supertypesOfNormal] at hu
  cases hdecl : s.types[d]? with
  | none =>
      rw [hdecl] at hu
      cases hu
  | some decl =>
      rw [hdecl] at hu
      obtain ⟨v, hv, rfl⟩ := List.mem_map.1 hu
      exact (h.of_mem_inherited hdecl hv).1.substitute _

theorem leads_iff (h : s.Regular) (ht : s.Saturated t) :
    s.Leads t u ↔ u ∈ s.directSupertypes t := by
  rw [Leads, supers, List.map_congr_left (g := id), List.map_id]
  intro v hv
  exact (h.saturated_of_mem_directSupertypes ht hv).normalize_eq

theorem saturated_of_leads (h : s.Regular) (ht : s.Saturated t) (hu : s.Leads t u) :
    s.Saturated u :=
  h.saturated_of_mem_directSupertypes ht ((h.leads_iff ht).1 hu)

theorem leads_substitute_iff (h : s.Regular) (ht : s.Saturated t) :
    s.Leads (t.substitute σ) u ↔ ∃ v, s.Leads t v ∧ v.substitute σ = u := by
  rw [h.leads_iff (ht.substitute σ), h.directSupertypes_substitute ht, List.mem_map]
  simp only [h.leads_iff ht]

/-! ### Any number of steps -/

theorem saturated_of_reaches (h : s.Regular) (ht : s.Saturated t)
    (hu : Relation.ReflTransGen s.Leads t u) : s.Saturated u := by
  induction hu with
  | refl => exact ht
  | tail _ hstep ih => exact h.saturated_of_leads ih hstep

/-- **Any number of steps**: an instance reaches the instances of what the type reaches. -/
theorem reaches_substitute_iff (h : s.Regular) (ht : s.Saturated t) :
    Relation.ReflTransGen s.Leads (t.substitute σ) u ↔
      ∃ v, Relation.ReflTransGen s.Leads t v ∧ v.substitute σ = u := by
  constructor
  · intro hu
    induction hu with
    | refl => exact ⟨t, .refl, rfl⟩
    | tail _ hstep ih =>
        obtain ⟨v, hv, rfl⟩ := ih
        obtain ⟨w, hw, rfl⟩ := (h.leads_substitute_iff (h.saturated_of_reaches ht hv)).1 hstep
        exact ⟨w, hv.tail hw, rfl⟩
  · rintro ⟨v, hv, rfl⟩
    induction hv with
    | refl => exact .refl
    | tail hv hstep ih =>
        exact ih.tail ((h.leads_substitute_iff (h.saturated_of_reaches ht hv)).2 ⟨_, hstep, rfl⟩)

end Regular

/-! ### All supertypes -/

/-- **The supertypes of an instance are the instances of the supertypes**, for the direct supertypes
in their order, and for all supertypes when both searches succeed. -/
theorem Regular.supertypes_of_instance (h : s.Regular) (signal : Signal) (d : SymbolId)
    (args : List TypeRef) (hargs : args.length = (s.typeParamsOf d).length) (σ : Substitution) :
    s.directSupertypes ((TypeRef.named d args).substitute σ) =
        (s.directSupertypes (.named d args)).map (TypeRef.substitute σ) ∧
      ∀ all all', s.supertypes signal (.named d args) = .ok all →
        s.supertypes signal ((TypeRef.named d args).substitute σ) = .ok all' →
        ∀ u, u ∈ all' ↔ u ∈ all.map (TypeRef.substitute σ) := by
  have ht : s.Saturated (.named d args) := ⟨d, args, rfl, hargs⟩
  refine ⟨h.directSupertypes_substitute ht σ, fun all all' hall hall' u => ?_⟩
  rw [mem_supertypes_iff hall', (ht.substitute σ).normalize_eq, h.reaches_substitute_iff ht,
    List.mem_map]
  simp only [mem_supertypes_iff hall, ht.normalize_eq]

/-- A generic class that implements a generic interface twice: for its parameter, and for the arrays
of one type. -/
def twofold : Store :=
  empty.insertType { id := ⟨0⟩, kind := .classType }
    |>.insertType { id := ⟨1⟩, kind := .interfaceType }
    |>.insertTypeParam { id := ⟨2⟩, owner := ⟨1⟩, ordinal := 0 }
    |>.insertType {
      id := ⟨3⟩
      kind := .classType
      interfaces := [.named ⟨1⟩ [.param ⟨4⟩], .named ⟨1⟩ [.array (.plain ⟨0⟩) 1]] }
    |>.insertTypeParam { id := ⟨4⟩, owner := ⟨3⟩, ordinal := 0 }
    |>.register .object ⟨0⟩

theorem typeParamsOf_twofold :
    twofold.typeParamsOf ⟨0⟩ = [] ∧ twofold.typeParamsOf ⟨1⟩ = [⟨2⟩] ∧
      twofold.typeParamsOf ⟨3⟩ = [⟨4⟩] := by
  decide +kernel

theorem inherited_twofold {d : SymbolId} {decl : TypeDecl} {t : TypeRef}
    (hdecl : twofold.types[d]? = some decl) (ht : t ∈ decl.base.toList ++ decl.interfaces) :
    d = ⟨3⟩ ∧ (t = .named ⟨1⟩ [.param ⟨4⟩] ∨ t = .named ⟨1⟩ [.array (.plain ⟨0⟩) 1]) := by
  have hmem := Std.ExtTreeMap.mem_toList_iff_getElem?_eq_some.2 hdecl
  have htypes : twofold.types.toList =
      [(⟨0⟩, { id := ⟨0⟩, kind := .classType }), (⟨1⟩, { id := ⟨1⟩, kind := .interfaceType }),
        (⟨3⟩, { id := ⟨3⟩, kind := .classType, interfaces :=
          [.named ⟨1⟩ [.param ⟨4⟩], .named ⟨1⟩ [.array (.plain ⟨0⟩) 1]] })] := rfl
  rw [htypes] at hmem
  simp only [List.mem_cons, Prod.mk.injEq, List.not_mem_nil, or_false] at hmem
  rcases hmem with ⟨rfl, rfl⟩ | ⟨rfl, rfl⟩ | ⟨rfl, rfl⟩
  · simp at ht
  · simp at ht
  · exact ⟨rfl, by simpa using ht⟩

theorem regular_twofold : twofold.Regular where
  saturated d decl hdecl t ht := by
    obtain ⟨-, rfl | rfl⟩ := inherited_twofold hdecl ht
    · exact ⟨⟨1⟩, _, rfl, by rw [typeParamsOf_twofold.2.1]; rfl⟩
    · exact ⟨⟨1⟩, _, rfl, by rw [typeParamsOf_twofold.2.1]; rfl⟩
  closed d decl hdecl t ht p hp := by
    obtain ⟨rfl, ht⟩ := inherited_twofold hdecl ht
    rw [typeParamsOf_twofold.2.2]
    rcases ht with rfl | rfl
    · simp [TypeRef.Mentions, TypeRef.mentionsAny] at hp
      simp [hp]
    · simp [TypeRef.Mentions, TypeRef.mentionsAny, TypeRef.plain] at hp
  root kind hkind root hroot := by
    have hmem := Std.ExtTreeMap.mem_toList_iff_getElem?_eq_some.2 hroot
    have hknown : twofold.wellKnown.toList = [(.object, ⟨0⟩)] := rfl
    rw [hknown] at hmem
    simp only [List.mem_singleton, Prod.mk.injEq] at hmem
    rw [hmem.2]
    exact typeParamsOf_twofold.1

/-- The class over an open parameter. -/
def twofoldOpen : TypeRef := .named ⟨3⟩ [.param ⟨6⟩]

/-- The type for the parameter that makes the two interfaces one. -/
def twofoldGiven : Substitution := .ofPairs [⟨6⟩] [.array (.plain ⟨0⟩) 1]

/-- Four supertypes become three, and these are what the instance has. -/
theorem supertypes_of_instance_twofold :
    twofold.supertypes .quiet twofoldOpen =
        .ok [twofoldOpen, .plain ⟨0⟩, .named ⟨1⟩ [.param ⟨6⟩],
          .named ⟨1⟩ [.array (.plain ⟨0⟩) 1]] ∧
      twofold.supertypes .quiet (twofoldOpen.substitute twofoldGiven) =
        .ok [twofoldOpen.substitute twofoldGiven, .plain ⟨0⟩,
          .named ⟨1⟩ [.array (.plain ⟨0⟩) 1]] ∧
      ∀ u, u ∈ [twofoldOpen.substitute twofoldGiven, .plain ⟨0⟩,
          .named ⟨1⟩ [.array (.plain ⟨0⟩) 1]] ↔
        u ∈ [twofoldOpen, .plain ⟨0⟩, .named ⟨1⟩ [.param ⟨6⟩],
          .named ⟨1⟩ [.array (.plain ⟨0⟩) 1]].map (TypeRef.substitute twofoldGiven) := by
  have hopen : twofold.supertypes .quiet twofoldOpen =
      .ok [twofoldOpen, .plain ⟨0⟩, .named ⟨1⟩ [.param ⟨6⟩],
        .named ⟨1⟩ [.array (.plain ⟨0⟩) 1]] := by decide +kernel
  have hgiven : twofold.supertypes .quiet (twofoldOpen.substitute twofoldGiven) =
      .ok [twofoldOpen.substitute twofoldGiven, .plain ⟨0⟩,
        .named ⟨1⟩ [.array (.plain ⟨0⟩) 1]] := by decide +kernel
  refine ⟨hopen, hgiven, ?_⟩
  have hlength : [TypeRef.param ⟨6⟩].length = (twofold.typeParamsOf ⟨3⟩).length := by
    rw [typeParamsOf_twofold.2.2]
    rfl
  exact (regular_twofold.supertypes_of_instance .quiet ⟨3⟩ _ hlength twofoldGiven).2 _ _ hopen
    hgiven

end Ambit.Store
