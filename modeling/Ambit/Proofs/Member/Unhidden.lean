/-
The members of a type are the unhidden ones.

A type has members of its supertypes: of those with a definition, and of interfaces only if it is an
interface or a type parameter.  An interface also has the members of the root of all types.  What
these types expose is listed in their order, and in each type by the numbers of the symbols.

Main definitions:

* `Ambit.Store.consideredTypes` — the types whose members a type has, in the order of hiding;
* `Ambit.Store.ListedBefore` — the order of members.

Main results:

* `Ambit.Store.Indexed.pairwise_listedBefore` — they are listed type by type, and by their numbers;
* `Ambit.Store.mem_typeMembers_iff_exposes` — **the members of a type, exactly**.
-/

import Ambit.Proofs.Lineage.Reachability
import Ambit.Proofs.Member

set_option relaxedAutoImplicit false
set_option autoImplicit false

namespace Ambit.Store

/-- Whether a type in normal form has the members of another one: this has a definition, and it is
no interface unless the type is an interface or a type parameter. -/
def considers (s : Store) (t u : TypeRef) : Bool :=
  u.definition?.isSome && (s.isInterface t || t.isParam || !s.isInterface u)

/-- The types whose members a type in normal form has, when its supertypes are given.  For an
interface the root of all types comes last. -/
def consideredTypes (s : Store) (t : TypeRef) (supertypes : List TypeRef) : List TypeRef :=
  let root := if s.isInterface t then (s.plainWellKnown? .object).toList else []
  (supertypes ++ root).filter (s.considers t)

/-- The order of members: type by type, and in a type by their numbers. -/
def ListedBefore (types : List TypeRef) (a b : Member) : Prop :=
  types.idxOf a.declaring < types.idxOf b.declaring ∨
    a.declaring = b.declaring ∧ a.symbol.Precedes b.symbol

variable {s : Store} {hidden : Hiding} {inherited : Bool} {types : List TypeRef} {t u : TypeRef}
  {symbol : Symbol} {m : Member}

/-! ### Order -/

theorem declaring_ne_of_mem (h : m ∈ s.unhiddenMembers
    (s.hide hidden ((s.namedMembers u).filter fun m => !s.isHidden hidden m)) inherited types) :
    m.declaring ≠ u := by
  rintro rfl
  obtain ⟨-, hmem, hvisible⟩ := mem_unhiddenMembers h
  exact (isHidden_hide_filter_eq_false_iff.1 hvisible).2 m.symbol hmem (.refl s _)

theorem ListedBefore.cons {a b : Member} (ha : a.declaring ≠ u) (hb : b.declaring ≠ u)
    (h : ListedBefore types a b) : ListedBefore (u :: types) a b := by
  rcases h with h | h
  · refine Or.inl ?_
    rw [List.idxOf_cons_ne _ ha.symm, List.idxOf_cons_ne _ hb.symm]
    omega
  · exact Or.inr h

/-- The members that are gathered are listed type by type, and in a type by their numbers. -/
theorem Indexed.pairwise_listedBefore (hs : s.Indexed) :
    (s.unhiddenMembers hidden inherited types).Pairwise (ListedBefore types) := by
  induction types generalizing hidden inherited with
  | nil => exact .nil
  | cons u types ih =>
      refine List.pairwise_append.2 ⟨?_, ?_, ?_⟩
      · refine List.pairwise_map.2 (List.Pairwise.imp ?_ ((hs.pairwise_namedMembers u).filter _))
        exact fun hab => Or.inr ⟨rfl, hab⟩
      · refine ih.imp_of_mem fun ha hb hab => ?_
        exact hab.cons (declaring_ne_of_mem ha) (declaring_ne_of_mem hb)
      · intro a ha b hb
        obtain ⟨symbol, -, rfl⟩ := List.mem_map.1 ha
        refine Or.inl ?_
        rw [List.idxOf_cons_self, List.idxOf_cons_ne _ (declaring_ne_of_mem hb).symm]
        omega

/-! ### The types that are considered -/

theorem unhiddenMembers_filter {admits : TypeRef → Bool}
    (h : ∀ u, admits u = false → s.namedMembers u = []) :
    s.unhiddenMembers hidden true (types.filter admits) = s.unhiddenMembers hidden true types := by
  induction types generalizing hidden with
  | nil => rfl
  | cons u types ih =>
      cases hadmits : admits u with
      | true => rw [List.filter_cons_of_pos hadmits, unhiddenMembers, unhiddenMembers, ih]
      | false =>
          have hnone : s.hide hidden [] = hidden := by simp [hide]
          rw [List.filter_cons_of_neg (by simp [hadmits]), unhiddenMembers, h u hadmits, ih]
          simp [hnone]

theorem inherited_of_mem (h : m ∈ s.unhiddenMembers hidden true types) : m.inherited = true := by
  induction types generalizing hidden with
  | nil => cases h
  | cons u types ih =>
      rcases mem_unhiddenMembers_cons.1 h with ⟨-, hflag, -⟩ | h
      · exact hflag
      · exact ih h

theorem inherited_eq_of_mem (h : m ∈ s.unhiddenMembers hidden false (u :: types)) :
    m.inherited = decide (m.declaring ≠ u) := by
  rcases mem_unhiddenMembers_cons.1 h with ⟨ht, hflag, -⟩ | h
  · rw [hflag]
    exact (decide_eq_false fun hne => hne ht).symm
  · rw [inherited_of_mem h]
    exact (decide_eq_true (declaring_ne_of_mem h)).symm

theorem namedMembers_eq_nil (h : u.definition?.isSome = false) : s.namedMembers u = [] := by
  cases u with
  | named d args => cases h
  | param _ | nullable _ | array _ _ | unresolved => rfl

variable {signal : Signal} {type : TypeRef} {supertypes : List TypeRef}

/-- The types that members are gathered from start with the type itself, and those of them that
have a definition are the considered ones. -/
theorem memberTypes_eq_ok (h : s.supertypes signal type = .ok supertypes) :
    ∃ rest, s.memberTypes signal (s.normalize type) = .ok (s.normalize type :: rest) ∧
      s.consideredTypes (s.normalize type) supertypes =
        (s.normalize type :: rest).filter fun u => u.definition?.isSome := by
  obtain ⟨others, rfl⟩ : ∃ others, supertypes = s.normalize type :: others :=
    ⟨_, (List.cons_head?_tail (gathers_of_supertypes h).head?_eq).symm⟩
  have hmember : s.memberTypes signal (s.normalize type) = .ok
      (if s.isInterface (s.normalize type) then
        s.normalize type :: others ++ (s.plainWellKnown? .object).toList
      else if (s.normalize type).isParam then s.normalize type :: others
      else (s.normalize type :: others).filter fun u => !s.isInterface u) := by
    rw [memberTypes, supertypes_normalize, h]
    exact (apply_ite _ _ _ _).trans (congrArg _ (apply_ite _ _ _ _)) |>.symm
  rw [hmember, consideredTypes]
  generalize s.normalize type = t
  have hconsiders : s.considers t = fun u =>
      u.definition?.isSome && (s.isInterface t || t.isParam || !s.isInterface u) := rfl
  cases hinterface : s.isInterface t with
  | true => exact ⟨_, rfl, by simp [hconsiders, hinterface]⟩
  | false =>
      cases hparam : t.isParam with
      | true => exact ⟨_, rfl, by simp [hconsiders, hparam]⟩
      | false =>
          refine ⟨others.filter fun u => !s.isInterface u, ?_, ?_⟩
          · simp [hinterface]
          · simp [hconsiders, hinterface, hparam, List.filter_cons, List.filter_filter]

/-- The members of a type that could be resolved are the unhidden ones of the considered types, and
they are inherited unless the type declares them itself. -/
theorem typeMembers_eq_unhiddenMembers (hresolved : (s.normalize type).isUnresolved = false)
    (h : s.supertypes signal type = .ok supertypes) :
    ∃ flag, s.typeMembers signal type =
        .ok (s.unhiddenMembers {} flag (s.consideredTypes (s.normalize type) supertypes)) ∧
      ∀ m ∈ s.unhiddenMembers {} flag (s.consideredTypes (s.normalize type) supertypes),
        m.inherited = decide (m.declaring ≠ s.normalize type) := by
  obtain ⟨rest, hmember, hconsidered⟩ := memberTypes_eq_ok h
  have hmembers : s.typeMembers signal type =
      .ok (s.unhiddenMembers {} false (s.normalize type :: rest)) := by
    rw [typeMembers, if_neg (by simp [hresolved]), hmember]
    rfl
  have hrest : ∀ hidden, s.unhiddenMembers hidden true (rest.filter fun u => u.definition?.isSome) =
      s.unhiddenMembers hidden true rest :=
    fun hidden => unhiddenMembers_filter fun u hu => namedMembers_eq_nil hu
  obtain ⟨flag, heq⟩ : ∃ flag, s.unhiddenMembers {} flag
      (s.consideredTypes (s.normalize type) supertypes) =
        s.unhiddenMembers {} false (s.normalize type :: rest) := by
    rw [hconsidered]
    -- the type itself is considered unless it has no definition, and then it has no members
    cases hnamed : (s.normalize type).definition?.isSome with
    | true =>
        rw [List.filter_cons, if_pos hnamed]
        exact ⟨false, by rw [unhiddenMembers, unhiddenMembers, hrest]⟩
    | false =>
        rw [List.filter_cons, if_neg (by simp [hnamed])]
        refine ⟨true, ?_⟩
        rw [hrest, unhiddenMembers, namedMembers_eq_nil hnamed]
        rfl
  rw [hmembers]
  exact ⟨flag, by rw [heq], fun m hm => inherited_eq_of_mem (heq ▸ hm)⟩

/-- A symbol is among the members of a type exactly when a considered type exposes it. -/
theorem exists_mem_typeMembers_iff {ms : List Member}
    (hresolved : (s.normalize type).isUnresolved = false)
    (h : s.supertypes signal type = .ok supertypes) (hms : s.typeMembers signal type = .ok ms) :
    (∃ m ∈ ms, m.symbol = symbol) ↔
      ∃ t, s.Exposes (s.consideredTypes (s.normalize type) supertypes) t symbol := by
  obtain ⟨flag, hmembers, -⟩ := typeMembers_eq_unhiddenMembers hresolved h
  rw [hms] at hmembers
  cases hmembers
  constructor
  · rintro ⟨m, hm, rfl⟩
    exact ⟨m.declaring, (mem_unhiddenMembers_iff.1 ⟨m.inherited, hm⟩).2⟩
  · rintro ⟨t, ht⟩
    obtain ⟨flag', hm⟩ := mem_unhiddenMembers_iff.2 ⟨isHidden_empty, ht⟩
    exact ⟨_, hm, rfl⟩

/-- **The members of a type, exactly.**  They are found if the supertypes are.  They are the members
that the considered types expose, listed type by type and by their numbers, and none is listed
twice. -/
theorem mem_typeMembers_iff_exposes (hs : s.Built) (signal : Signal) (type : TypeRef)
    (hresolved : (s.normalize type).isUnresolved = false) :
    (∀ fault, s.typeMembers signal type = .error fault ↔
      s.supertypes signal type = .error fault) ∧
    ∀ supertypes, s.supertypes signal type = .ok supertypes →
      ∃ ms, s.typeMembers signal type = .ok ms ∧
        (∀ m, m ∈ ms ↔
          s.Exposes (s.consideredTypes (s.normalize type) supertypes) m.declaring m.symbol ∧
            m.inherited = decide (m.declaring ≠ s.normalize type)) ∧
        ms.Pairwise (ListedBefore (s.consideredTypes (s.normalize type) supertypes)) ∧
        ms.Pairwise fun a b => a.symbol.id ≠ b.symbol.id := by
  constructor
  · intro fault
    cases h : s.supertypes signal type with
    | error fault' =>
        have hmembers : s.typeMembers signal type = .error fault' := by
          rw [typeMembers, if_neg (by simp [hresolved]), memberTypes, supertypes_normalize, h]
          rfl
        rw [hmembers, Except.error.injEq, Except.error.injEq]
    | ok supertypes =>
        obtain ⟨flag, hmembers, -⟩ := typeMembers_eq_unhiddenMembers hresolved h
        rw [hmembers]
        simp
  · intro supertypes h
    obtain ⟨flag, hmembers, hinherited⟩ := typeMembers_eq_unhiddenMembers hresolved h
    refine ⟨_, hmembers, fun m => ⟨fun hm => ⟨?_, hinherited m hm⟩, ?_⟩,
      hs.indexed.pairwise_listedBefore, hs.indexed.pairwise_unhiddenMembers⟩
    · exact (mem_unhiddenMembers_iff.1 ⟨m.inherited, hm⟩).2
    · rintro ⟨hexposed, hflag⟩
      obtain ⟨flag', hm⟩ := mem_unhiddenMembers_iff.2 ⟨isHidden_empty, hexposed⟩
      obtain rfl : flag' = m.inherited := (hinherited _ hm).trans hflag.symm
      exact hm

/-- An interface with a property, which comes from another interface twice. -/
def twiceDerived : Store :=
  empty.insertScope { id := ⟨0⟩, kind := .type, span := ⟨0, 9⟩, owner := some ⟨0⟩ }
    |>.insertScope { id := ⟨1⟩, kind := .type, span := ⟨10, 19⟩, owner := some ⟨1⟩ }
    |>.insertType { id := ⟨0⟩, kind := .interfaceType,
                    interfaces := [.named ⟨1⟩ [.plain ⟨2⟩], .named ⟨1⟩ [.plain ⟨3⟩]] }
    |>.insertType { id := ⟨1⟩, kind := .interfaceType }
    |>.insertSymbol { id := ⟨4⟩, kind := .property, name := "Item", scope := ⟨0⟩ }
    |>.insertSymbol { id := ⟨5⟩, kind := .method, name := "Item", scope := ⟨1⟩ }
    |>.insertSymbol { id := ⟨6⟩, kind := .property, name := "Count", scope := ⟨1⟩ }

/-- The method is hidden by the property, and the other member is exposed once only. -/
theorem mem_typeMembers_iff_exposes_twiceDerived :
    twiceDerived.supertypes .quiet (.plain ⟨0⟩) =
        .ok [.plain ⟨0⟩, .named ⟨1⟩ [.plain ⟨2⟩], .named ⟨1⟩ [.plain ⟨3⟩]] ∧
      twiceDerived.typeMembers .quiet (.plain ⟨0⟩) = .ok
        [⟨{ id := ⟨4⟩, kind := .property, name := "Item", scope := ⟨0⟩ }, .plain ⟨0⟩, false⟩,
          ⟨{ id := ⟨6⟩, kind := .property, name := "Count", scope := ⟨1⟩ },
            .named ⟨1⟩ [.plain ⟨2⟩], true⟩] ∧
      ∀ t, twiceDerived.Exposes
          [.plain ⟨0⟩, .named ⟨1⟩ [.plain ⟨2⟩], .named ⟨1⟩ [.plain ⟨3⟩]] t
          { id := ⟨6⟩, kind := .property, name := "Count", scope := ⟨1⟩ } →
        t = .named ⟨1⟩ [.plain ⟨2⟩] := by
  have hbuilt : twiceDerived.Built :=
    .insertSymbol _ (.insertSymbol _ (.insertSymbol _ (.insertType _ (.insertType _
      (.insertScope _ (.insertScope _ .empty))))))
  have hsupertypes : twiceDerived.supertypes .quiet (.plain ⟨0⟩) =
      .ok [.plain ⟨0⟩, .named ⟨1⟩ [.plain ⟨2⟩], .named ⟨1⟩ [.plain ⟨3⟩]] := by decide +kernel
  have hconsidered : twiceDerived.consideredTypes (twiceDerived.normalize (.plain ⟨0⟩))
      [.plain ⟨0⟩, .named ⟨1⟩ [.plain ⟨2⟩], .named ⟨1⟩ [.plain ⟨3⟩]] =
        [.plain ⟨0⟩, .named ⟨1⟩ [.plain ⟨2⟩], .named ⟨1⟩ [.plain ⟨3⟩]] := by decide +kernel
  obtain ⟨ms, hms, hiff, -, -⟩ :=
    (mem_typeMembers_iff_exposes hbuilt .quiet (.plain ⟨0⟩) rfl).2 _ hsupertypes
  rw [hconsidered] at hiff
  have hmembers : twiceDerived.typeMembers .quiet (.plain ⟨0⟩) = .ok
      [⟨{ id := ⟨4⟩, kind := .property, name := "Item", scope := ⟨0⟩ }, .plain ⟨0⟩, false⟩,
        ⟨{ id := ⟨6⟩, kind := .property, name := "Count", scope := ⟨1⟩ },
          .named ⟨1⟩ [.plain ⟨2⟩], true⟩] := by decide +kernel
  refine ⟨hsupertypes, hmembers, fun t ht => ?_⟩
  obtain rfl := Except.ok.inj (hms.symm.trans hmembers)
  have hlisted :=
    (hiff ⟨_, t, decide (t ≠ twiceDerived.normalize (.plain ⟨0⟩))⟩).2 ⟨ht, rfl⟩
  simp only [List.mem_cons, List.not_mem_nil, or_false, Member.mk.injEq, Symbol.mk.injEq] at hlisted
  rcases hlisted with ⟨⟨hid, -⟩, -⟩ | ⟨-, heq, -⟩
  · exact absurd hid (by decide)
  · exact heq

end Ambit.Store
