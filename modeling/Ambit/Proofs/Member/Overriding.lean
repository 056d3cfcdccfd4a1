/-
Derived members and base members.

Hiding follows the order in which the supertypes are found.  This order goes depth first, so it is
not always the order of derivation: where a type comes from two others, what the first of them comes
from is found before the second one, even if the second one is derived from it.  Then the member of
the base hides the one of the derived type.  It takes such a fork for this to happen, and a class
that is derived from one class and otherwise from interfaces has none between its classes.

Main definitions:

* `Ambit.Store.SameSlot` — two members of which each would hide the other;
* `Ambit.Store.ListsBaseOnly` — the member of a base is listed, the one of a derived type is not;
* `Ambit.Store.SingleBase` — types that come from interfaces, apart from one base.

Main results:

* `Ambit.Store.forks_or_cycle_of_exposes` — when a base is searched before a derived type;
* `Ambit.Store.listsBaseOnly_only_at_forks` — **when a base hides a derived type**;
* `Ambit.Store.typeMembers_diamond` — interfaces in which it does.
-/

import Ambit.Proofs.Lineage.Order
import Ambit.Proofs.Member.Unhidden
import Ambit.Proofs.Store.Identity

set_option relaxedAutoImplicit false
set_option autoImplicit false

namespace Ambit.Store

open Relation (ReflTransGen TransGen)

/-- Two members of one name, either both no methods, or methods with as many parameters. -/
def SameSlot (s : Store) (a b : Symbol) : Prop :=
  a.name = b.name ∧
    (a.kind ≠ .method ∧ b.kind ≠ .method ∨
      a.kind = .method ∧ b.kind = .method ∧ s.methodKey a = s.methodKey b)

/-- The member `b` of a base is listed, and the member `a` of a derived type is not. -/
def ListsBaseOnly (members : List Member) (a b : Symbol) : Prop :=
  (∃ m ∈ members, m.symbol = b) ∧ ¬ ∃ m ∈ members, m.symbol = a

/-- The direct supertypes of these types are interfaces, apart from the first one of each type that
is no interface itself. -/
structure SingleBase (s : Store) (types : List TypeRef) : Prop where
  behind : ∀ w ∈ types, ∀ u ∈ (s.supers w).tail, s.isInterface u = true
  above : ∀ w ∈ types, s.isInterface w = true → ∀ u ∈ s.supers w, s.isInterface u = true

variable {s : Store} {types all : List TypeRef} {t u derived base : TypeRef} {a b c : Symbol}

/-! ### Members that hide each other -/

theorem Hides.trans (hab : s.Hides a b) (hbc : s.Hides b c) : s.Hides a c := by
  refine ⟨hab.1.trans hbc.1, fun hmethod => ?_⟩
  obtain ⟨hb, hkey⟩ := hab.2 hmethod
  obtain ⟨hc, hkey'⟩ := hbc.2 hb
  exact ⟨hc, hkey.trans hkey'⟩

theorem SameSlot.symm (h : s.SameSlot a b) : s.SameSlot b a := by
  rcases h with ⟨hname, ⟨ha, hb⟩ | ⟨ha, hb, hkey⟩⟩
  · exact ⟨hname.symm, Or.inl ⟨hb, ha⟩⟩
  · exact ⟨hname.symm, Or.inr ⟨hb, ha, hkey.symm⟩⟩

theorem SameSlot.hides (h : s.SameSlot a b) : s.Hides a b := by
  rcases h with ⟨hname, ⟨ha, -⟩ | ⟨-, hb, hkey⟩⟩
  · exact ⟨hname, fun hmethod => absurd hmethod ha⟩
  · exact ⟨hname, fun _ => ⟨hb, hkey⟩⟩

theorem eq_of_exposes (hslot : s.SameSlot a b) (hb : s.Exposes types t b)
    (ha : s.Exposes types u a) : t = u := by
  induction types with
  | nil =>
      obtain ⟨before, after, heq, -⟩ := hb
      simp at heq
  | cons v types ih =>
      rcases exposes_cons.1 hb with ⟨rfl, hb⟩ | ⟨hbase, hb⟩
      · rcases exposes_cons.1 ha with ⟨rfl, -⟩ | ⟨hderived, -⟩
        · rfl
        · exact absurd hslot.symm.hides (hderived b hb)
      · rcases exposes_cons.1 ha with ⟨rfl, ha⟩ | ⟨-, ha⟩
        · exact absurd hslot.hides (hbase a ha)
        · exact ih hb ha

/-- Of two members that hide each other, only the one is exposed exactly when a type exposes it that
does not declare the other. -/
theorem exposes_and_not_iff (hslot : s.SameSlot a b) :
    ((∃ t, s.Exposes types t b) ∧ ¬ ∃ t, s.Exposes types t a) ↔
      ∃ t, s.Exposes types t b ∧ a ∉ s.namedMembers t := by
  constructor
  · rintro ⟨⟨t, before, after, heq, hb, hbefore⟩, hnot⟩
    refine ⟨t, ⟨before, after, heq, hb, hbefore⟩, fun ha => hnot ?_⟩
    exact ⟨t, before, after, heq, ha, fun u hu other hother hhides =>
      hbefore u hu other hother (hhides.trans hslot.hides)⟩
  · rintro ⟨t, hexposed, hat⟩
    refine ⟨⟨t, hexposed⟩, ?_⟩
    rintro ⟨u, ha⟩
    obtain rfl := eq_of_exposes hslot hexposed ha
    exact hat ha.mem

/-! ### The order of hiding -/

/-- If one of the admitted types of a list declares the member, the type that exposes it is in the
list, and no admitted type before it hides the member. -/
theorem Exposes.exists_split {admits : TypeRef → Bool} {more : List TypeRef}
    (h : s.Exposes (all.filter admits ++ more) t b) (hbase : base ∈ all.filter admits)
    (hb : b ∈ s.namedMembers base) :
    ∃ before after, all = before ++ t :: after ∧
      ∀ u ∈ before, admits u = true → ∀ other ∈ s.namedMembers u, ¬ s.Hides other b := by
  obtain ⟨before, after, heq, -, hbefore⟩ := h
  have hnot : base ∉ before := fun hmem => hbefore base hmem b hb (.refl s b)
  obtain ⟨rest, hrest⟩ : ∃ rest, all.filter admits = before ++ t :: rest := by
    rcases List.append_eq_append_iff.1 heq with ⟨front, rfl, -⟩ | ⟨rest, hrest, hcons⟩
    · exact absurd (List.mem_append_left _ hbase) hnot
    · cases rest with
      | nil =>
          rw [hrest, List.append_nil] at hbase
          exact absurd hbase hnot
      | cons v rest => exact ⟨rest, (List.cons.inj hcons).1 ▸ hrest⟩
  obtain ⟨early, late, rfl, hearly, hlate⟩ := List.filter_eq_append_iff.1 hrest
  obtain ⟨skipped, late, rfl, hskipped, -, -⟩ := List.filter_eq_cons_iff.1 hlate
  refine ⟨early ++ skipped, late, by simp, fun u hu hadmits => ?_⟩
  rcases List.mem_append.1 hu with hu | hu
  · exact hbefore u (hearly ▸ List.mem_filter.2 ⟨hu, hadmits⟩)
  · exact absurd hadmits (hskipped u hu)

theorem Built.head?_eq_of_mem (hs : s.Built) (ht : b ∈ s.namedMembers t)
    (hu : b ∈ s.namedMembers u) : t.head?.isSome ∧ u.head? = t.head? := by
  cases t with
  | named d args =>
      cases u with
      | named e args' =>
          have hd := liesIn_of_mem_membersOf (List.mem_filter.1 ht).1
          have he := liesIn_of_mem_membersOf (List.mem_filter.1 hu).1
          exact ⟨rfl, congrArg some (hs.eq_of_liesIn he hd)⟩
      | param _ | nullable _ | array _ _ | unresolved => cases hu
  | param _ | nullable _ | array _ _ | unresolved => cases ht

/-- **When a base is searched before a derived type**: the ways to them part, or some type leads to
itself. -/
theorem forks_or_cycle_of_exposes (hs : s.Built) {start : TypeRef} {more : List TypeRef}
    {admits : TypeRef → Bool} (h : s.Gathers [] [] [start] (.ok all))
    (hderived : derived ∈ all.filter admits) (ha : a ∈ s.namedMembers derived)
    (hbase : base ∈ all.filter admits) (hb : b ∈ s.namedMembers base) (hslot : s.SameSlot a b)
    (hreach : TransGen s.Leads derived base)
    (hexposed : s.Exposes (all.filter admits ++ more) t b) (hat : a ∉ s.namedMembers t) :
    s.Forks start t derived ∨ ∃ u ∈ all, TransGen s.Leads u u := by
  obtain ⟨before, after, hall, hbefore⟩ := hexposed.exists_split hbase hb
  obtain ⟨hderivedAll, hadmits⟩ := List.mem_filter.1 hderived
  -- the derived type is found behind the one that exposes the member of the base
  have hafter : derived ∈ after := by
    rw [hall] at hderivedAll
    rcases List.mem_append.1 hderivedAll with hmem | hmem
    · exact absurd hslot.hides (hbefore derived hmem hadmits a ha)
    · rcases List.mem_cons.1 hmem with rfl | hmem
      · exact absurd ha hat
      · exact hmem
  have hnodup : all.Nodup := h.nodup rfl List.nodup_nil
  rcases h.reaches_or_forks rfl hnodup hall List.nil_prefix hafter with hdown | hparts | ⟨v, hv, hf⟩
  · -- then the type that exposes the member leads back to its own definition
    right
    obtain ⟨hhead, heq⟩ := hs.head?_eq_of_mem hexposed.mem hb
    refine h.exists_cycle_of_return hall hhead heq (fun hmem => ?_) (hreach.trans_right hdown)
    exact hbefore base hmem (List.mem_filter.1 hbase).2 b hb (.refl s b)
  · exact absurd hparts not_parts_singleton
  · rw [List.mem_singleton.1 hv] at hf
    exact Or.inl hf

/-! ### Classes -/

theorem SingleBase.isInterface_of_reaches {start : TypeRef} (hsingle : s.SingleBase all)
    (h : s.Gathers [] [] [start] (.ok all)) (ht : t ∈ all) (hinterface : s.isInterface t = true)
    (hreach : ReflTransGen s.Leads t u) : s.isInterface u = true := by
  have hmem : ∀ v, ReflTransGen s.Leads t v → v ∈ all := fun v hv =>
    h.mem_iff.2 ((h.mem_iff.1 ht).trans hv)
  induction hreach with
  | refl => exact hinterface
  | tail hv hstep ih => exact hsingle.above _ (hmem _ hv) ih _ hstep

/-- With a single base each, the ways to two types can only part towards an interface. -/
theorem SingleBase.isInterface_of_forks {start : TypeRef} (hsingle : s.SingleBase all)
    (h : s.Gathers [] [] [start] (.ok all)) (hforks : s.Forks start t u) :
    s.isInterface u = true := by
  obtain ⟨w, hw, xs, x, ys, hsupers, -, y, hy, hreach⟩ := hforks
  have hwall : w ∈ all := h.mem_iff.2 hw
  have htail : y ∈ (s.supers w).tail := by
    rw [hsupers]
    cases xs with
    | nil => exact hy
    | cons z xs => exact List.mem_append_right _ (List.mem_cons_of_mem _ hy)
  have hyall : y ∈ all := h.closed rfl w hwall (by simp) y (List.mem_of_mem_tail htail)
  exact hsingle.isInterface_of_reaches h hyall (hsingle.behind w hwall y htail) hreach

/-! ### When a base hides a derived type -/

/-- **When a base hides a derived type.**  Let a supertype and a base of it declare members that
hide each other.  The one of the base is listed without the other exactly when a type exposes it
that does not declare the other.  This only happens where the ways to such a type and to the derived
one part, or where some type leads to itself; so it does not happen to a class whose supertypes have
a single base each. -/
theorem listsBaseOnly_only_at_forks (hs : s.Built) {signal : Signal} {type : TypeRef}
    {ms : List Member} (hresolved : (s.normalize type).isUnresolved = false)
    (hall : s.supertypes signal type = .ok all) (hms : s.typeMembers signal type = .ok ms)
    (hderived : derived ∈ all ∧ s.considers (s.normalize type) derived = true)
    (hbase : base ∈ all ∧ s.considers (s.normalize type) base = true)
    (hreach : TransGen s.Leads derived base)
    (ha : a ∈ s.namedMembers derived) (hb : b ∈ s.namedMembers base) (hslot : s.SameSlot a b) :
    (ListsBaseOnly ms a b ↔
      ∃ t, s.Exposes (s.consideredTypes (s.normalize type) all) t b ∧ a ∉ s.namedMembers t) ∧
    (ListsBaseOnly ms a b →
      (∃ t ∈ all, b ∈ s.namedMembers t ∧ s.Forks (s.normalize type) t derived) ∨
        ∃ u ∈ all, TransGen s.Leads u u) ∧
    (s.isInterface (s.normalize type) = false → (s.normalize type).isParam = false →
      s.SingleBase all → (∀ u ∈ all, ¬ TransGen s.Leads u u) → ¬ ListsBaseOnly ms a b) := by
  have hgathers := gathers_of_supertypes hall
  have hiff : ListsBaseOnly ms a b ↔
      ∃ t, s.Exposes (s.consideredTypes (s.normalize type) all) t b ∧ a ∉ s.namedMembers t := by
    rw [ListsBaseOnly, exists_mem_typeMembers_iff hresolved hall hms,
      exists_mem_typeMembers_iff hresolved hall hms]
    exact exposes_and_not_iff hslot
  have hforks : ListsBaseOnly ms a b →
      (∃ t ∈ all, b ∈ s.namedMembers t ∧ s.Forks (s.normalize type) t derived) ∨
        ∃ u ∈ all, TransGen s.Leads u u := by
    intro hlists
    obtain ⟨t, hexposed, hat⟩ := hiff.1 hlists
    rw [consideredTypes, List.filter_append] at hexposed
    have hderived' := List.mem_filter.2 hderived
    have hbase' := List.mem_filter.2 hbase
    obtain ⟨before, after, hsplit, -⟩ := hexposed.exists_split hbase' hb
    rcases forks_or_cycle_of_exposes hs hgathers hderived' ha hbase' hb hslot hreach hexposed hat
      with hforks | hcycle
    · exact Or.inl ⟨t, by simp [hsplit], hexposed.mem, hforks⟩
    · exact Or.inr hcycle
  refine ⟨hiff, hforks, fun hinterface hparam hsingle hacyclic hlists => ?_⟩
  rcases hforks hlists with ⟨t, -, -, hfork⟩ | ⟨u, hu, hcycle⟩
  · -- the derived type would be an interface, and a class has no members of those
    have hderivedInterface := hsingle.isInterface_of_forks hgathers hfork
    have hconsiders := hderived.2
    simp [considers, hinterface, hparam, hderivedInterface] at hconsiders
  · exact hacyclic u hu hcycle

/-- A method in the body of a type. -/
def runIn (id : SymbolId) (body : ScopeId) : Symbol :=
  { id, kind := .method, name := "Run", scope := body }

/-- A class and its base, each with a method. -/
def twoClasses : Store :=
  empty.insertScope { id := ⟨0⟩, kind := .type, span := ⟨0, 9⟩, owner := some ⟨0⟩ }
    |>.insertScope { id := ⟨1⟩, kind := .type, span := ⟨10, 19⟩, owner := some ⟨1⟩ }
    |>.insertType { id := ⟨0⟩, kind := .classType }
    |>.insertType { id := ⟨1⟩, kind := .classType, base := some (.plain ⟨0⟩) }
    |>.insertSymbol (runIn ⟨2⟩ ⟨0⟩)
    |>.insertSymbol (runIn ⟨3⟩ ⟨1⟩)

/-- The method of the class hides the one of its base. -/
theorem listsBaseOnly_only_at_forks_twoClasses :
    twoClasses.typeMembers .quiet (.plain ⟨1⟩) = .ok [⟨runIn ⟨3⟩ ⟨1⟩, .plain ⟨1⟩, false⟩] ∧
      ¬ ListsBaseOnly [⟨runIn ⟨3⟩ ⟨1⟩, .plain ⟨1⟩, false⟩] (runIn ⟨3⟩ ⟨1⟩) (runIn ⟨2⟩ ⟨0⟩) := by
  have hbuilt : twoClasses.Built :=
    .insertSymbol _ (.insertSymbol _ (.insertType _ (.insertType _
      (.insertScope _ (.insertScope _ .empty)))))
  have hall : twoClasses.supertypes .quiet (.plain ⟨1⟩) = .ok [.plain ⟨1⟩, .plain ⟨0⟩] := by
    decide +kernel
  have hms : twoClasses.typeMembers .quiet (.plain ⟨1⟩) =
      .ok [⟨runIn ⟨3⟩ ⟨1⟩, .plain ⟨1⟩, false⟩] := by decide +kernel
  have hleads : twoClasses.Leads (.plain ⟨1⟩) (.plain ⟨0⟩) := List.mem_singleton_self _
  have hderived : runIn ⟨3⟩ ⟨1⟩ ∈ twoClasses.namedMembers (.plain ⟨1⟩) := by decide +kernel
  have hbase : runIn ⟨2⟩ ⟨0⟩ ∈ twoClasses.namedMembers (.plain ⟨0⟩) := by decide +kernel
  have hslot : twoClasses.SameSlot (runIn ⟨3⟩ ⟨1⟩) (runIn ⟨2⟩ ⟨0⟩) :=
    ⟨rfl, Or.inr ⟨rfl, rfl, by decide +kernel⟩⟩
  have hsingle : twoClasses.SingleBase [.plain ⟨1⟩, .plain ⟨0⟩] :=
    ⟨by decide +kernel, by decide +kernel⟩
  -- without a root of all types there is no way back through an array
  have hacyclic : ∀ u ∈ [TypeRef.plain ⟨1⟩, .plain ⟨0⟩], ¬ TransGen twoClasses.Leads u u := by
    intro u hu hcycle
    obtain ⟨root, -, -, hroot, -⟩ :=
      ((gathers_of_supertypes hall).exists_cycle_iff rfl).1 ⟨u, hu, hcycle⟩
    cases hroot
  obtain ⟨-, -, hnever⟩ := listsBaseOnly_only_at_forks hbuilt rfl hall hms ⟨by simp, rfl⟩
    ⟨by simp, rfl⟩ (.single hleads) hderived hbase hslot
  exact ⟨hms, hnever rfl rfl hsingle hacyclic⟩

/-- An interface that comes from two others, both of which come from a fourth one.  The second of
them has a method like the fourth. -/
def diamond : Store :=
  empty.insertScope { id := ⟨0⟩, kind := .type, span := ⟨0, 9⟩, owner := some ⟨0⟩ }
    |>.insertScope { id := ⟨2⟩, kind := .type, span := ⟨10, 19⟩, owner := some ⟨2⟩ }
    |>.insertType { id := ⟨0⟩, kind := .interfaceType }
    |>.insertType { id := ⟨1⟩, kind := .interfaceType, interfaces := [.plain ⟨0⟩] }
    |>.insertType { id := ⟨2⟩, kind := .interfaceType, interfaces := [.plain ⟨0⟩] }
    |>.insertType { id := ⟨3⟩, kind := .interfaceType, interfaces := [.plain ⟨1⟩, .plain ⟨2⟩] }
    |>.insertSymbol (runIn ⟨4⟩ ⟨0⟩)
    |>.insertSymbol (runIn ⟨5⟩ ⟨2⟩)

/-- **A base that hides a derived interface.**  The base is found on the way through the first
interface, so its method is listed, and the one of the second interface is not. -/
theorem typeMembers_diamond :
    diamond.supertypes .quiet (.plain ⟨3⟩) =
        .ok [.plain ⟨3⟩, .plain ⟨1⟩, .plain ⟨0⟩, .plain ⟨2⟩] ∧
      diamond.Leads (.plain ⟨2⟩) (.plain ⟨0⟩) ∧
      runIn ⟨5⟩ ⟨2⟩ ∈ diamond.namedMembers (.plain ⟨2⟩) ∧
      runIn ⟨4⟩ ⟨0⟩ ∈ diamond.namedMembers (.plain ⟨0⟩) ∧
      diamond.SameSlot (runIn ⟨5⟩ ⟨2⟩) (runIn ⟨4⟩ ⟨0⟩) ∧
      diamond.typeMembers .quiet (.plain ⟨3⟩) = .ok [⟨runIn ⟨4⟩ ⟨0⟩, .plain ⟨0⟩, true⟩] ∧
      ListsBaseOnly [⟨runIn ⟨4⟩ ⟨0⟩, .plain ⟨0⟩, true⟩] (runIn ⟨5⟩ ⟨2⟩) (runIn ⟨4⟩ ⟨0⟩) := by
  have hslot : diamond.SameSlot (runIn ⟨5⟩ ⟨2⟩) (runIn ⟨4⟩ ⟨0⟩) :=
    ⟨rfl, Or.inr ⟨rfl, rfl, by decide +kernel⟩⟩
  have hlists : ListsBaseOnly [⟨runIn ⟨4⟩ ⟨0⟩, .plain ⟨0⟩, true⟩] (runIn ⟨5⟩ ⟨2⟩) (runIn ⟨4⟩ ⟨0⟩) :=
    ⟨⟨_, List.mem_singleton_self _, rfl⟩, by decide +kernel⟩
  refine ⟨by decide +kernel, List.mem_singleton_self _, by decide +kernel, by decide +kernel, hslot,
    by decide +kernel, hlists⟩

end Ambit.Store
