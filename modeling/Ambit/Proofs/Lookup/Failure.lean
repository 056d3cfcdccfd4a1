/-
Why a look-up has no answer.

A look-up asks many questions: for the scopes around the position, for the members of the types
whose bodies these are, for every symbol that is met, and whether it can be named from there.  In a
store that passes the check, the scopes around a scope are found, and the symbols of a scope are
there.  Two things remain.  A scope that is neither the body of a type nor a namespace also lists
the type parameters of its owner; the check asks whether a type parameter has an owner that is
there, and not whether it is there itself, and a look-up that meets one that is not has no answer.
And a body of a type can be owned by something else than a type, whose declared type may inherit
from itself.

Main definitions:

* `Ambit.Store.selfType`, `Ambit.Store.TypesClimb` — a type applied to its own parameters, and
  stores in which all types have supertypes;
* `Ambit.Store.Around`, `Ambit.Store.ListedAround`, `Ambit.Store.MiscastAround` — the scopes around
  a position, the type parameters that they list, and the types of owners that are no types.

Main results:

* `Ambit.Store.failsOnly_canAccess`, `Ambit.Store.failsOnly_groupsOf`,
  `Ambit.Store.failsOnly_entriesAlong` — the faults of the parts of a look-up;
* `Ambit.Store.Built.lookup_fails_only` — **why a look-up in a store that passes the check has no
  answer**;
* `Ambit.Store.lookup_fails_on_phantom` — a store that passes the check, and a look-up that has
  none.
-/

import Ambit.Proofs.Access
import Ambit.Proofs.Lineage.Bound
import Ambit.Proofs.Lookup.Walk
import Ambit.Proofs.Member
import Ambit.Proofs.Store.WellFormed

set_option relaxedAutoImplicit false
set_option autoImplicit false

namespace Ambit.Store

open Answer (FailsOnly)

variable {s : Store} {signal : Signal} {P : Fault → Prop}

/-! ### Members -/

theorem failsOnly_typeMembers {t : TypeRef} (h : FailsOnly P (s.supertypes signal t)) :
    FailsOnly P (s.typeMembers signal t) := by
  rw [typeMembers]
  split
  · exact .ok []
  · refine .bind ?_ fun types _ => .ok _
    rw [memberTypes, supertypes_normalize]
    refine h.bind fun types _ => ?_
    split
    · exact .ok _
    · split
      · exact .ok _
      · exact .ok _

/-! ### Access -/

theorem failsOnly_implements {t : TypeRef} (h : FailsOnly P (s.supertypes signal t))
    (definition : SymbolId) : FailsOnly P (s.implements signal t definition) :=
  (h.bind fun _ _ => .ok _).bind fun _ _ => .ok _

/-- Whether a type comes from a container is asked of the types around, one after the other. -/
theorem failsOnly_anyDerivesFrom {container : SymbolId} {types : List SymbolId}
    (h : ∀ type ∈ types, ∀ self, s.typeOf? type = some self →
      FailsOnly P (s.supertypes signal self)) :
    FailsOnly P (s.anyDerivesFrom signal container types) := by
  induction types with
  | nil => exact .ok false
  | cons type types ih =>
      obtain ⟨htype, htypes⟩ := List.forall_mem_cons.1 h
      rw [anyDerivesFrom]
      cases hself : s.typeOf? type with
      | none => exact ih htypes
      | some self =>
          refine (failsOnly_implements (htype self hself) container).bind fun derives _ => ?_
          split
          · exact .ok true
          · exact ih htypes

/-- **Access** has no answer only when the supertypes of a type around have none. -/
theorem failsOnly_canAccess {site : Site} {symbol : Symbol}
    (h : ∀ type ∈ site.types, ∀ self, s.typeOf? type = some self →
      FailsOnly P (s.supertypes signal self)) :
    FailsOnly P (s.canAccess signal site symbol) := by
  rcases canAccess_cases symbol with ⟨fixed, hfixed⟩ | ⟨container, -, hcontains | hprotected⟩
  · rw [hfixed]
    exact .ok fixed
  · rw [hcontains]
    exact .ok _
  · rw [hprotected, canAccessProtected]
    split
    · exact .ok true
    · exact failsOnly_anyDerivesFrom h

/-! ### Groups and entries -/

/-- **The groups of a scope** have no answer only when the scope is the body of something whose
supertypes have none. -/
theorem failsOnly_groupsOf {scope : Scope}
    (h : scope.kind = .type → ∀ self, scope.owner.bind s.typeOf? = some self →
      FailsOnly P (s.supertypes signal self)) :
    FailsOnly P (s.groupsOf signal scope) := by
  rw [groupsOf]
  split
  · rename_i hkind
    refine .bind ?_ fun members _ => .ok _
    rw [memberGroup]
    split
    · exact .ok _
    · rename_i self hself
      exact (failsOnly_typeMembers (h hkind self hself)).bind fun members _ => .ok _
  · exact .ok _
  · exact .ok _

variable {o : Outlook} {f : Footing} {bound : List String}

/-- An entry has no answer only when its symbol is not there, or access to it has none. -/
theorem failsOnly_entryOf {found : Finding}
    (hmissing : s.symbols[found.symbol]? = none → P (.breach (.missingListed found.symbol)))
    (haccess : ∀ symbol, FailsOnly P (s.canAccess o.signal o.site symbol)) :
    FailsOnly P (s.entryOf o f bound found) := by
  have hscoping : ∀ symbol, FailsOnly P (s.scopingVerdict o f symbol) := by
    intro symbol
    rw [scopingVerdict]
    split
    · exact .ok _
    · split
      · exact .ok _
      · split
        · refine (haccess symbol).bind fun reached _ => ?_
          split
          · exact .ok _
          · exact .ok _
        · exact .ok _
  rw [entryOf]
  split
  · rename_i hnone
    intro fault h
    cases h
    exact hmissing hnone
  · rename_i symbol hsymbol
    dsimp only
    split
    · exact .ok _
    · exact (hscoping symbol).bind fun verdict _ => .ok _

theorem failsOnly_entriesOf {groups : List (List Finding)}
    (hmissing : ∀ g ∈ groups, ∀ found ∈ g, s.symbols[found.symbol]? = none →
      P (.breach (.missingListed found.symbol)))
    (haccess : ∀ symbol, FailsOnly P (s.canAccess o.signal o.site symbol)) :
    FailsOnly P (s.entriesOf o f bound groups) := by
  induction groups generalizing bound with
  | nil => exact .ok _
  | cons group groups ih =>
      obtain ⟨hgroup, hgroups⟩ := List.forall_mem_cons.1 hmissing
      refine .bind (.mapM fun found hfound => ?_) fun entries _ => ?_
      · exact failsOnly_entryOf (hgroup found hfound) haccess
      · exact (ih hgroups).bind fun later _ => .ok _

/-- **The way outwards** has no answer only when a scope of it is not there, when its groups have
none, or when a symbol that it lists is not there. -/
theorem failsOnly_entriesAlong {chain : List ScopeId}
    (hscopes : ∀ id ∈ chain, id ∈ s.scopes)
    (hgroups : ∀ id ∈ chain, ∀ scope, s.scopes[id]? = some scope →
      FailsOnly P (s.groupsOf o.signal scope))
    (hmissing : ∀ id ∈ chain, ∀ found, s.Contributes o.signal id found →
      s.symbols[found.symbol]? = none → P (.breach (.missingListed found.symbol)))
    (haccess : ∀ symbol, FailsOnly P (s.canAccess o.signal o.site symbol)) :
    FailsOnly P (s.entriesAlong o f bound chain) := by
  induction chain generalizing f bound with
  | nil => exact .ok _
  | cons id chain ih =>
      obtain ⟨hscope, hscopes⟩ := List.forall_mem_cons.1 hscopes
      obtain ⟨hgroup, hgroups⟩ := List.forall_mem_cons.1 hgroups
      obtain ⟨hlisted, hmissing⟩ := List.forall_mem_cons.1 hmissing
      obtain ⟨scope, hscope⟩ :=
        Option.isSome_iff_exists.1 (Std.ExtTreeMap.mem_iff_isSome_getElem?.1 hscope)
      rw [entriesAlong, hscope]
      refine (hgroup scope hscope).bind fun groups hok => ?_
      refine .bind (failsOnly_entriesOf (fun g hg found hfound => ?_) haccess) fun entries _ => ?_
      · exact hlisted found ⟨scope, groups, hscope, hok, g, hg, hfound⟩
      · exact (ih hscopes hgroups hmissing).bind fun later _ => .ok _

/-! ### Symbols that are listed -/

/-- **What a scope lists is there**, except perhaps for type parameters of its owner. -/
theorem Indexed.stored_of_contributes (hs : s.Indexed) {id : ScopeId} {found : Finding}
    (h : s.Contributes signal id found) :
    (∃ symbol, s.symbols[found.symbol]? = some symbol) ∨
      ∃ scope owner, s.scopes[id]? = some scope ∧ scope.kind ≠ .type ∧ scope.kind ≠ .nameSpace ∧
        scope.owner = some owner ∧ found.symbol ∈ s.typeParamsOf owner := by
  rcases contributes_cases h with ⟨scope, symbol, hsymbol, rfl | rfl⟩ | ⟨t, ms, hms, m, hm, rfl⟩ |
    ⟨scope, owner, hscope, htype, hspace, howner, p, hp, rfl⟩
  · exact Or.inl ⟨symbol, hs.stored_of_mem_symbolsIn hsymbol⟩
  · exact Or.inl ⟨symbol, hs.stored_of_mem_symbolsIn hsymbol⟩
  · exact Or.inl ⟨m.symbol, hs.stored_of_mem_typeMembers hms hm⟩
  · exact Or.inr ⟨scope, owner, hscope, htype, hspace, howner, hp⟩

/-- A type parameter that a scope lists for its owner is met. -/
theorem contributes_of_mem_typeParamsOf (signal : Signal) {id : ScopeId} {scope : Scope}
    {owner p : SymbolId} (hscope : s.scopes[id]? = some scope) (htype : scope.kind ≠ .type)
    (hspace : scope.kind ≠ .nameSpace) (howner : scope.owner = some owner)
    (hp : p ∈ s.typeParamsOf owner) :
    ∃ found, found.symbol = p ∧ s.Contributes signal id found := by
  have hgroups : s.groupsOf signal scope = .ok [s.ownGroup scope] := by
    rw [groupsOf]
    split
    · contradiction
    · contradiction
    · rfl
  obtain ⟨found, hfound, hsymbol⟩ : ∃ found ∈ s.ownGroup scope, found.symbol = p := by
    rw [ownGroup]
    simp only [howner, List.mem_append]
    by_cases hdeclared : (s.declaredIn scope.id fun _ => true).any (·.symbol == p) = true
    · obtain ⟨found, hfound, hsymbol⟩ := List.any_eq_true.1 hdeclared
      exact ⟨found, Or.inl hfound, by simpa using hsymbol⟩
    · exact ⟨{ symbol := p }, Or.inr (List.mem_map.2 ⟨p, by simpa [hp] using hdeclared, rfl⟩), rfl⟩
  exact ⟨found, hsymbol, scope, _, hscope, hgroups, _, List.mem_singleton_self _, hfound⟩

/-! ### Look-ups in stores that pass the check -/

/-- A type applied to its own type parameters. -/
def selfType (s : Store) (type : SymbolId) : TypeRef :=
  .named type ((s.typeParamsOf type).map .param)

/-- A scope around a position. -/
def Around (s : Store) (position : UInt64) (scope : Scope) : Prop :=
  ∃ chain, s.ancestors (s.scopeAt position) = .ok chain ∧ ∃ id ∈ chain, s.scopes[id]? = some scope

/-- A type parameter that a scope around a position lists for its owner. -/
def ListedAround (s : Store) (position : UInt64) (p : SymbolId) : Prop :=
  ∃ scope owner, s.Around position scope ∧ scope.kind ≠ .type ∧ scope.kind ≠ .nameSpace ∧
    scope.owner = some owner ∧ p ∈ s.typeParamsOf owner

/-- The type of something that owns the body of a type around a position and is no type. -/
def MiscastAround (s : Store) (position : UInt64) (t : TypeRef) : Prop :=
  ∃ scope owner, s.Around position scope ∧ scope.kind = .type ∧ scope.owner = some owner ∧
    s.typeOf? owner = some t ∧ ∀ symbol, s.symbols[owner]? = some symbol → symbol.kind ≠ .type

theorem scopeAt_eq_outside_or (s : Store) (position : UInt64) :
    s.scopeAt position = .outside ∨
      ∃ scope ∈ s.scopes.values, s.scopeAt position = scope.id := by
  rw [scopeAt]
  split
  · rename_i scope hscope
    obtain ⟨shortest, -, hdeepest⟩ := Option.bind_eq_some_iff.1 hscope
    have hmem := (List.mem_filter.1 (List.maxOn?_mem hdeepest)).1
    exact Or.inr ⟨scope, (List.mem_filter.1 hmem).1, rfl⟩
  · exact Or.inl rfl

theorem exists_ancestors_of_check (h : s.check = .ok ()) (position : UInt64) :
    ∃ chain, s.ancestors (s.scopeAt position) = .ok chain := by
  rcases s.scopeAt_eq_outside_or position with hout | ⟨scope, hscope, hid⟩
  · rw [hout]
    exact ⟨[], rfl⟩
  · obtain ⟨chain, hchain, -⟩ := Answer.bind_eq_ok.1 ((check_eq_ok_iff.1 h).2.1 scope hscope)
    exact ⟨chain, by rw [hid]; exact hchain⟩

/-- A look-up fails as the way outwards does. -/
theorem failsOnly_lookup {options : Options} {position : UInt64} {chain : List ScopeId}
    (hchain : s.ancestors (s.scopeAt position) = .ok chain)
    (h : FailsOnly P (s.entriesAlong
      ⟨.quiet, options, position, ⟨chain.filterMap s.typeAround?⟩⟩ {} [] chain)) :
    FailsOnly P (s.lookup .quiet options position) := by
  rw [lookup]
  refine .bind (.ok ()) fun _ _ => ?_
  dsimp only
  split
  · exact .ok _
  · have hsite : s.siteAt (s.scopeAt position) = .ok ⟨chain.filterMap s.typeAround?⟩ :=
      Answer.bind_eq_ok.2 ⟨chain, hchain, rfl⟩
    rw [hsite, hchain]
    exact h.bind fun groups _ => .ok _

theorem exists_scope_of_typeAround? {id : ScopeId} {type : SymbolId}
    (h : s.typeAround? id = some type) :
    ∃ scope, s.scopes[id]? = some scope ∧ scope.kind = .type ∧ scope.owner = some type := by
  rw [typeAround?] at h
  cases hscope : s.scopes[id]? with
  | none =>
      rw [hscope] at h
      cases h
  | some scope =>
      rw [hscope] at h
      dsimp only at h
      split at h
      · rename_i hkind
        exact ⟨scope, rfl, hkind, h⟩
      · cases h

/-- A look-up that meets a type parameter that is not there has no answer. -/
theorem exists_fault_of_listedAround {options : Options} {position : UInt64} {p : SymbolId}
    (h : s.ListedAround position p) (hp : p ∉ s.symbols) :
    ∃ fault, s.lookup .quiet options position = .error fault := by
  obtain ⟨scope, owner, ⟨chain, hchain, id, hid, hscope⟩, htype, hspace, howner, hlisted⟩ := h
  cases hlookup : s.lookup .quiet options position with
  | error fault => exact ⟨fault, rfl⟩
  | ok view =>
      -- the type parameter is met, and everything that an answer has an entry for is there
      obtain ⟨-, chain', hchain', hgroups, -, -⟩ := lookup_eq_ok_iff.1 hlookup
      rw [hchain] at hchain'
      cases hchain'
      obtain ⟨found, rfl, hfound⟩ :=
        contributes_of_mem_typeParamsOf .quiet hscope htype hspace howner hlisted
      obtain ⟨e, he, rfl⟩ := exists_mem_of_contributes hgroups hid hfound
      obtain ⟨-, footing, names, hmade⟩ := contributes_of_mem hgroups he
      obtain ⟨-, symbol, hsymbol, -⟩ := entryOf_eq_ok_iff.1 hmade
      exact absurd (Std.ExtTreeMap.mem_iff_isSome_getElem?.2 (by rw [hsymbol]; rfl)) hp

/-- A look-up with an answer has asked each scope on the way for its groups. -/
theorem exists_groupsOf_of_mem {chain : List ScopeId} {out : List (ScopeId × List (List Entry))}
    (h : s.entriesAlong o f bound chain = .ok out) {id : ScopeId} (hid : id ∈ chain) {scope : Scope}
    (hscope : s.scopes[id]? = some scope) : ∃ groups, s.groupsOf o.signal scope = .ok groups := by
  induction chain generalizing f bound out with
  | nil => cases hid
  | cons id' chain ih =>
      obtain ⟨scope', groups, entries, later, hscope', hgroups, -, hlater, -⟩ :=
        entriesAlong_cons_eq_ok.1 h
      rcases List.mem_cons.1 hid with rfl | hid
      · rw [hscope] at hscope'
        cases hscope'
        exact ⟨groups, hgroups⟩
      · exact ih hlater hid

theorem exists_supertypes_of_typeMembers {t : TypeRef}
    (hknown : (s.normalize t).isUnresolved = false) {ms : List Member}
    (h : s.typeMembers signal t = .ok ms) : ∃ all, s.supertypes signal t = .ok all := by
  rw [typeMembers, if_neg (by rw [hknown]; simp)] at h
  obtain ⟨types, htypes, -⟩ := Answer.bind_eq_ok.1 h
  obtain ⟨all, hall, -⟩ := Answer.bind_eq_ok.1 htypes
  rw [supertypes_normalize] at hall
  exact ⟨all, hall⟩

/-- A look-up inside the body of something whose type has no supertypes has no answer, unless a part
of that type is not known. -/
theorem exists_fault_of_miscastAround {options : Options} {position : UInt64} {t : TypeRef}
    (h : s.MiscastAround position t) (hknown : (s.normalize t).isUnresolved = false)
    {fault : Fault} (hfault : s.supertypes .quiet t = .error fault) :
    ∃ fault, s.lookup .quiet options position = .error fault := by
  obtain ⟨scope, owner, ⟨chain, hchain, id, hid, hscope⟩, hkind, howner, htype, -⟩ := h
  cases hlookup : s.lookup .quiet options position with
  | error fault => exact ⟨fault, rfl⟩
  | ok view =>
      -- the groups of the body are found, so its members are, so the supertypes are
      obtain ⟨-, chain', hchain', hgroups, -, -⟩ := lookup_eq_ok_iff.1 hlookup
      rw [hchain] at hchain'
      cases hchain'
      obtain ⟨groups, hgroups⟩ := exists_groupsOf_of_mem hgroups hid hscope
      obtain ⟨params, ms, hms, -⟩ := exists_typeMembers_of_groupsOf hkind howner htype hgroups
      obtain ⟨all, hall⟩ := exists_supertypes_of_typeMembers hknown hms
      rw [hfault] at hall
      cases hall

/-- Every type has supertypes. -/
def TypesClimb (s : Store) : Prop :=
  ∀ (id : SymbolId) (symbol : Symbol), s.symbols[id]? = some symbol → symbol.kind = .type →
    ∃ all, s.supertypes .quiet (s.selfType id) = .ok all

/-- The supertypes of what a body of a type belongs to have no answer only when that is no type. -/
theorem TypesClimb.failsOnly_supertypes (h : s.TypesClimb) {position : UInt64} {scope : Scope}
    (hscope : s.Around position scope) (hkind : scope.kind = .type) {owner : SymbolId}
    (howner : scope.owner = some owner) {self : TypeRef} (hself : s.typeOf? owner = some self) :
    FailsOnly (fun fault => ∃ t, s.MiscastAround position t ∧ s.supertypes .quiet t = .error fault)
      (s.supertypes .quiet self) := by
  intro fault hfault
  refine ⟨self, ⟨scope, owner, hscope, hkind, howner, hself, ?_⟩, hfault⟩
  intro symbol hsymbol htype
  obtain ⟨all, hall⟩ := h owner symbol hsymbol htype
  rw [typeOf?, hsymbol] at hself
  simp only [htype, Option.some.injEq] at hself
  rw [selfType, hself, hfault] at hall
  cases hall

/-- The ways in which a look-up can fail in a store that passes the check. -/
theorem TypesClimb.failsOnly_lookup (h : s.TypesClimb) (hs : s.Indexed) (hcheck : s.check = .ok ())
    (options : Options) (position : UInt64) :
    FailsOnly (fun fault =>
        (∃ p, s.ListedAround position p ∧ p ∉ s.symbols ∧ fault = .breach (.missingListed p)) ∨
          ∃ t, s.MiscastAround position t ∧ s.supertypes .quiet t = .error fault)
      (s.lookup .quiet options position) := by
  obtain ⟨chain, hchain⟩ := exists_ancestors_of_check hcheck position
  have haround : ∀ id ∈ chain, ∀ scope, s.scopes[id]? = some scope → s.Around position scope :=
    fun id hid scope hscope => ⟨chain, hchain, id, hid, hscope⟩
  refine Store.failsOnly_lookup hchain (failsOnly_entriesAlong ?_ ?_ ?_ ?_)
  · intro id hid
    exact (outward_of_ancestors_of_mem hchain hid).mem_scopes id hid
  · -- the members of the bodies of types
    intro id hid scope hscope
    refine failsOnly_groupsOf fun hkind self hself fault hfault => Or.inr ?_
    obtain ⟨owner, howner, hself⟩ := Option.bind_eq_some_iff.1 hself
    exact h.failsOnly_supertypes (haround id hid scope hscope) hkind howner hself fault hfault
  · -- symbols that are listed
    intro id hid found hfound hnone
    refine Or.inl ⟨found.symbol, ?_, ?_, rfl⟩
    · rcases hs.stored_of_contributes hfound with ⟨symbol, hsymbol⟩ |
        ⟨scope, owner, hscope, htype, hspace, howner, hlisted⟩
      · rw [hnone] at hsymbol
        cases hsymbol
      · exact ⟨scope, owner, haround id hid scope hscope, htype, hspace, howner, hlisted⟩
    · rw [Std.ExtTreeMap.mem_iff_isSome_getElem?, hnone]
      simp
  · -- access from the types around
    intro symbol
    refine failsOnly_canAccess fun type htype self hself fault hfault => Or.inr ?_
    obtain ⟨id, hid, htype⟩ := List.mem_filterMap.1 htype
    obtain ⟨scope, hscope, hkind, howner⟩ := exists_scope_of_typeAround? htype
    exact h.failsOnly_supertypes (haround id hid scope hscope) hkind howner hself fault hfault

/-- **Why a look-up in a store that passes the check has no answer**, when every type has
supertypes.  It has one, or a scope around the position lists a type parameter that is not there, or
the body of a type around it belongs to something else whose type has no supertypes.  And it has
none whenever a type parameter is listed that is not there, or the type of such an owner is known
and has no supertypes. -/
theorem Built.lookup_fails_only (hs : s.Built) (hcheck : s.check = .ok ()) (htypes : s.TypesClimb)
    (options : Options) (position : UInt64) :
    ((∃ view, s.lookup .quiet options position = .ok view) ∨
      (∃ p, s.ListedAround position p ∧ p ∉ s.symbols ∧
        s.lookup .quiet options position = .error (.breach (.missingListed p))) ∨
      ∃ t fault, s.MiscastAround position t ∧ s.supertypes .quiet t = .error fault ∧
        s.lookup .quiet options position = .error fault) ∧
    (∀ p, s.ListedAround position p → p ∉ s.symbols →
      ∃ fault, s.lookup .quiet options position = .error fault) ∧
    ∀ t fault, s.MiscastAround position t → (s.normalize t).isUnresolved = false →
      s.supertypes .quiet t = .error fault →
      ∃ fault, s.lookup .quiet options position = .error fault := by
  refine ⟨?_, fun p hlisted hp => exists_fault_of_listedAround hlisted hp,
    fun t fault hmiscast hknown hfault => exists_fault_of_miscastAround hmiscast hknown hfault⟩
  cases hlookup : s.lookup .quiet options position with
  | ok view => exact Or.inl ⟨view, rfl⟩
  | error fault =>
      rcases htypes.failsOnly_lookup hs.indexed hcheck options position fault hlookup with
        ⟨p, hlisted, hp, rfl⟩ | ⟨t, hmiscast, ht⟩
      · exact Or.inr (Or.inl ⟨p, hlisted, hp, rfl⟩)
      · exact Or.inr (Or.inr ⟨t, fault, hmiscast, ht, rfl⟩)

/-- A class with a method whose type parameter is declared and is no symbol. -/
def phantom : Store :=
  empty.insertScope { id := ⟨0⟩, kind := .nameSpace, span := ⟨0, 100⟩ }
    |>.insertScope { id := ⟨1⟩, kind := .type, span := ⟨10, 90⟩, parent := some ⟨0⟩,
                     owner := some ⟨0⟩ }
    |>.insertScope { id := ⟨2⟩, kind := .method, span := ⟨20, 80⟩, parent := some ⟨1⟩,
                     owner := some ⟨1⟩ }
    |>.insertSymbol { id := ⟨0⟩, kind := .type, name := "C", scope := ⟨0⟩ }
    |>.insertSymbol { id := ⟨1⟩, kind := .method, name := "M", scope := ⟨1⟩, container := some ⟨0⟩ }
    |>.insertType { id := ⟨0⟩, kind := .classType }
    |>.insertTypeParam { id := ⟨2⟩, owner := ⟨1⟩, ordinal := 0 }

theorem built_phantom : phantom.Built :=
  .insertTypeParam _ (.insertType _ (.insertSymbol _ (.insertSymbol _ (.insertScope _
    (.insertScope _ (.insertScope _ .empty))))))

theorem typesClimb_phantom : phantom.TypesClimb := by
  intro id symbol hsymbol hkind
  have hmem := Std.ExtTreeMap.mem_toList_iff_getElem?_eq_some.2 hsymbol
  have hsymbols : phantom.symbols.toList =
      [(⟨0⟩, { id := ⟨0⟩, kind := .type, name := "C", scope := ⟨0⟩ }),
        (⟨1⟩, { id := ⟨1⟩, kind := .method, name := "M", scope := ⟨1⟩,
                container := some ⟨0⟩ })] := rfl
  rw [hsymbols] at hmem
  simp only [List.mem_cons, Prod.mk.injEq, List.not_mem_nil, or_false] at hmem
  rcases hmem with ⟨rfl, rfl⟩ | ⟨rfl, rfl⟩
  · exact ⟨[.plain ⟨0⟩], by decide +kernel⟩
  · cases hkind

/-- The scope of the method lists the type parameter, so a look-up inside it has no answer. -/
theorem lookup_fails_only_phantom :
    phantom.check = .ok () ∧ phantom.TypesClimb ∧ phantom.ListedAround 30 ⟨2⟩ ∧
      (⟨2⟩ : SymbolId) ∉ phantom.symbols ∧
      ∃ fault, phantom.lookup .quiet {} 30 = .error fault := by
  have hcheck : phantom.check = .ok () := rfl
  have hparams : phantom.typeParamsOf ⟨1⟩ = [⟨2⟩] := by decide +kernel
  have hmissing : (⟨2⟩ : SymbolId) ∉ phantom.symbols := by decide
  have hlisted : phantom.ListedAround 30 ⟨2⟩ := by
    refine ⟨_, ⟨1⟩, ⟨[⟨2⟩, ⟨1⟩, ⟨0⟩], rfl, ⟨2⟩, List.mem_cons_self .., rfl⟩, ?_, ?_, rfl, ?_⟩
    · decide
    · decide
    · rw [hparams]
      exact List.mem_singleton_self _
  exact ⟨hcheck, typesClimb_phantom, hlisted, hmissing,
    (built_phantom.lookup_fails_only hcheck typesClimb_phantom {} 30).2.1 ⟨2⟩ hlisted hmissing⟩

/-- The store passes the check and its types have supertypes, and yet the look-up fails because a
scope lists a symbol that is not there. -/
theorem lookup_fails_on_phantom :
    phantom.check = .ok () ∧ phantom.TypesClimb ∧
      phantom.lookup .quiet {} 30 = .error (.breach (.missingListed ⟨2⟩)) :=
  ⟨rfl, typesClimb_phantom, by decide +kernel⟩

end Ambit.Store
