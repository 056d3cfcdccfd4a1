/-
Members by their names alone, and behind `this`.

Inside a type a member can be written by its name alone or behind `this`.  The first way is decided
on the way outwards, by the footing of the code at the innermost type; the second by the type that
`this` stands for.  Both list the same members, and where `this` stands for a value they agree on
the members of its instances.  The only difference is shadowing: a name that is bound further inside
hides a member from the first way and not from the second.  The verdict behind `this` is given
together with those on the extension methods that can be called there, and is missing when these
are.

Main definitions:

* `Ambit.Store.BodiesOwned` — every body of a type belongs to a type;
* `Ambit.Store.InnermostBody` — the innermost body of a type on a way outwards.

Main results:

* `Ambit.Store.resolve_this_eq_value_iff` — when `this` stands for a value;
* `Ambit.Store.BodiesOwned.exists_memberGroup` — what a look-up lists for the innermost type;
* `Ambit.Store.canAccess_iff_of_entryOf` — the entry of an instance member says whether it can be
  accessed, unless it is shadowed;
* `Ambit.Snapshot.behind_this_agrees` — **a member can be used behind `this` exactly when it can be
  used by its name alone, or is shadowed and can be accessed**;
* `Ambit.Snapshot.behind_this_unanswered` — a member without a verdict behind `this`.
-/

import Ambit.Proofs.Lookup.Failure
import Ambit.Proofs.Lookup.Footing
import Ambit.Proofs.Offer.Behind

set_option relaxedAutoImplicit false
set_option autoImplicit false

namespace Ambit

namespace Store

variable {s : Store} {signal : Signal} {options : Options} {position : UInt64}

/-! ### The innermost type -/

/-- Every body of a type belongs to a type. -/
def BodiesOwned (s : Store) : Prop :=
  ∀ scope ∈ s.scopes.values, scope.kind = .type →
    ∃ owner ∈ scope.owner, ∃ symbol ∈ s.symbols[owner]?, symbol.kind = .type

instance (s : Store) : Decidable s.BodiesOwned :=
  inferInstanceAs (Decidable (∀ scope ∈ s.scopes.values, scope.kind = .type →
    ∃ owner ∈ scope.owner, ∃ symbol ∈ s.symbols[owner]?, symbol.kind = .type))

/-- The innermost body of a type on a way outwards. -/
def InnermostBody (s : Store) (chain : List ScopeId) (id : ScopeId) : Prop :=
  ∃ inner outer scope, chain = inner ++ id :: outer ∧ s.scopes[id]? = some scope ∧
    scope.kind = .type ∧ ∀ inside ∈ inner, ∀ scope', s.scopes[inside]? = some scope' →
      scope'.kind ≠ .type

theorem isUnresolved_selfType (type : SymbolId) : (s.selfType type).isUnresolved = false := by
  simp [selfType, TypeRef.isUnresolved]

theorem BodiesOwned.exists_owner (h : s.BodiesOwned) {id : ScopeId} {scope : Scope}
    (hscope : s.scopes[id]? = some scope) (hkind : scope.kind = .type) :
    ∃ owner, scope.owner = some owner ∧ s.typeOf? owner = some (s.selfType owner) := by
  obtain ⟨owner, howner, symbol, hsymbol, htype⟩ := h scope (Table.mem_values.2 ⟨id, hscope⟩) hkind
  refine ⟨owner, howner, ?_⟩
  rw [typeOf?, Option.mem_def.1 hsymbol]
  simp only [htype, selfType]

theorem typeAround?_eq_none {id : ScopeId}
    (h : ∀ scope, s.scopes[id]? = some scope → scope.kind ≠ .type) : s.typeAround? id = none := by
  rw [typeAround?]
  split
  · rename_i scope hscope
    exact if_neg (h scope hscope)
  · rfl

/-- The innermost type around the code owns the innermost body. -/
theorem head?_typeAround? {inner outer : List ScopeId} {id : ScopeId} {scope : Scope}
    (hscope : s.scopes[id]? = some scope) (hkind : scope.kind = .type) {owner : SymbolId}
    (howner : scope.owner = some owner)
    (hinner : ∀ inside ∈ inner, ∀ scope', s.scopes[inside]? = some scope' → scope'.kind ≠ .type) :
    ((inner ++ id :: outer).filterMap s.typeAround?).head? = some owner := by
  have hnone : inner.filterMap s.typeAround? = [] := by
    rw [List.filterMap_eq_nil_iff]
    exact fun inside hinside => typeAround?_eq_none (hinner inside hinside)
  have howns : s.typeAround? id = some owner := by simp [typeAround?, hscope, hkind, howner]
  rw [List.filterMap_append, hnone, List.nil_append, List.filterMap_cons_some howns,
    List.head?_cons]

/-- Where there is an instance, the way outwards can be cut at the innermost body of a type, and the
footing there has the instance. -/
theorem exists_cut_of_instanceWithin {f : Footing} {chain : List ScopeId}
    (h : s.instanceWithin f (s.scopesOf chain) = true) :
    ∃ inner id outer scope, chain = inner ++ id :: outer ∧ s.scopes[id]? = some scope ∧
      scope.kind = .type ∧
      (∀ inside ∈ inner, ∀ scope', s.scopes[inside]? = some scope' → scope'.kind ≠ .type) ∧
      (s.footingAfter f (s.scopesOf inner)).hasInstance = true := by
  induction chain generalizing f with
  | nil => cases h
  | cons id chain ih =>
      cases hscope : s.scopes[id]? with
      | none =>
          rw [scopesOf, List.filterMap_cons_none hscope] at h
          obtain ⟨inner, id', outer, scope, rfl, hscope', hkind, hinner, hinstance⟩ := ih h
          refine ⟨id :: inner, id', outer, scope, rfl, hscope', hkind, ?_, ?_⟩
          · rw [List.forall_mem_cons]
            exact ⟨by simp [hscope], hinner⟩
          · rw [scopesOf, List.filterMap_cons_none hscope]
            exact hinstance
      | some scope =>
          rw [scopesOf, List.filterMap_cons_some hscope, instanceWithin] at h
          split at h
          · rename_i hkind
            exact ⟨[], id, chain, scope, rfl, hscope, hkind, by simp, h⟩
          · rename_i hkind
            obtain ⟨inner, id', outer, scope', rfl, hscope', hkind', hinner, hinstance⟩ := ih h
            refine ⟨id :: inner, id', outer, scope', rfl, hscope', hkind', ?_, ?_⟩
            · rw [List.forall_mem_cons]
              refine ⟨fun scope'' hscope'' => ?_, hinner⟩
              rw [hscope] at hscope''
              cases hscope''
              exact hkind
            · rw [scopesOf, List.filterMap_cons_some hscope]
              exact hinstance

/-- **When `this` stands for a value**: there is an instance, and it is of the innermost type around
the code. -/
theorem resolve_this_eq_value_iff {t : TypeRef} :
    s.resolve signal options position ["this"] = .ok (.value t) ↔
      ∃ p site, s.lookup signal options position = .ok p ∧ p.hasInstance = true ∧
        s.siteAt (s.scopeAt position) = .ok site ∧ site.types.head?.bind s.typeOf? = some t := by
  have hself : s.resolve signal options position ["this"] =
      s.selfReceiver signal options position false := by
    rw [resolve, firstReceiver, if_pos rfl]
    exact bind_pure _
  rw [hself, selfReceiver, Answer.bind_eq_ok]
  constructor
  · rintro ⟨p, hp, h⟩
    split at h
    · cases h
    · rename_i hinstance
      obtain ⟨site, hsite, h⟩ := Answer.bind_eq_ok.1 h
      refine ⟨p, site, hp, by simpa using hinstance, hsite, ?_⟩
      cases htype : site.types.head?.bind s.typeOf? with
      | none =>
          rw [htype] at h
          cases h
      | some self =>
          rw [htype] at h
          cases h
          rfl
  · rintro ⟨p, site, hp, hinstance, hsite, htype⟩
    refine ⟨p, hp, ?_⟩
    rw [if_neg (by simp [hinstance])]
    refine Answer.bind_eq_ok.2 ⟨site, hsite, ?_⟩
    rw [htype]
    rfl

/-! ### The members of the innermost type -/

/-- **What a look-up lists for the innermost type**: the members of the type, in order, each judged
on a footing that has an instance. -/
theorem BodiesOwned.exists_memberGroup (howned : s.BodiesOwned) {o : Outlook}
    {chain : List ScopeId} {out : List (ScopeId × List (List Entry))}
    (hout : s.entriesAlong o {} [] chain = .ok out)
    (hinstance : s.instanceWithin {} (s.scopesOf chain) = true) :
    ∃ id owner ms params group, s.InnermostBody chain id ∧
      (chain.filterMap s.typeAround?).head? = some owner ∧
      s.typeOf? owner = some (s.selfType owner) ∧
      s.typeMembers o.signal (s.selfType owner) = .ok ms ∧ (id, [params, group]) ∈ out ∧
      group.map Entry.finding = ms.map Member.finding ∧
      ∀ e ∈ group, ∃ f names, f.hasInstance = true ∧ s.entryOf o f names e.finding = .ok e := by
  obtain ⟨inner, id, outer, scope, rfl, hscope, hkind, hinner, hfooting⟩ :=
    exists_cut_of_instanceWithin hinstance
  obtain ⟨owner, howner, htype⟩ := howned.exists_owner hscope hkind
  obtain ⟨before, after, -, hafter, rfl⟩ := entriesAlong_append_eq_ok.1 hout
  obtain ⟨scope', groups, entries, later, hscope', hgroups, hentries, -, rfl⟩ :=
    entriesAlong_cons_eq_ok.1 hafter
  rw [hscope] at hscope'
  cases hscope'
  obtain ⟨params, ms, hms, rfl⟩ := exists_typeMembers_of_groupsOf hkind howner htype hgroups
  obtain ⟨params, rest, -, hrest, rfl⟩ := entriesOf_cons_eq_ok.1 hentries
  obtain ⟨group, none, hgroup, hnone, rfl⟩ := entriesOf_cons_eq_ok.1 hrest
  cases hnone
  refine ⟨id, owner, ms, params, group, ⟨inner, outer, scope, rfl, hscope, hkind, hinner⟩,
    head?_typeAround? hscope hkind howner hinner, htype, hms, ?_, map_finding_of_forall₂ hgroup,
    fun e he => ⟨_, _, ?_, entryOf_of_mem_forall₂ hgroup he⟩⟩
  · exact List.mem_append_right _ (List.mem_cons_self ..)
  · rw [hasInstance_enter]
    exact ⟨hfooting, by simp [hkind]⟩

/-- Where a look-up has an answer, it is known of every symbol whether it can be accessed. -/
theorem BodiesOwned.exists_canAccess (howned : s.BodiesOwned) {o : Outlook} {f : Footing}
    {names : List String} {chain : List ScopeId} {out : List (ScopeId × List (List Entry))}
    (hout : s.entriesAlong o f names chain = .ok out) (symbol : Symbol) :
    ∃ b, s.canAccess o.signal ⟨chain.filterMap s.typeAround?⟩ symbol = .ok b := by
  -- the look-up has found the supertypes of all the types around
  have hfails : Answer.FailsOnly (fun _ => False)
      (s.canAccess o.signal ⟨chain.filterMap s.typeAround?⟩ symbol) := by
    refine failsOnly_canAccess fun type htype self hself fault hfault => ?_
    obtain ⟨id, hid, htype⟩ := List.mem_filterMap.1 htype
    obtain ⟨scope, hscope, hkind, howner⟩ := exists_scope_of_typeAround? htype
    obtain ⟨owner, howner', htype'⟩ := howned.exists_owner hscope hkind
    rw [howner] at howner'
    cases howner'
    rw [hself] at htype'
    cases htype'
    obtain ⟨groups, hgroups⟩ := exists_groupsOf_of_mem hout hid hscope
    obtain ⟨params, ms, hms, -⟩ := exists_typeMembers_of_groupsOf hkind howner hself hgroups
    have hknown : (s.normalize (s.selfType type)).isUnresolved = false :=
      isUnresolved_selfType type
    obtain ⟨all, hall⟩ := exists_supertypes_of_typeMembers hknown hms
    rw [hfault] at hall
    cases hall
  cases haccess : s.canAccess o.signal ⟨chain.filterMap s.typeAround?⟩ symbol with
  | ok b => exact ⟨b, rfl⟩
  | error fault => exact (hfails fault haccess).elim

/-- **The entry of an instance member**, on a footing that has an instance, says whether it can be
accessed, unless it is shadowed. -/
theorem canAccess_iff_of_entryOf {o : Outlook} {f : Footing} {names : List String} {e : Entry}
    (h : s.entryOf o f names e.finding = .ok e) (hf : f.hasInstance = true) {m : Symbol}
    (hstored : s.symbols[e.symbol]? = some m) (hmember : m.isInstanceMember = true) :
    s.canAccess o.signal o.site m = .ok true ↔
      e.verdict = .applicable ∨
        e.verdict = .excluded .shadowed ∧ s.canAccess o.signal o.site m = .ok true := by
  obtain ⟨-, m', hstored', hverdict⟩ := entryOf_eq_ok_iff.1 h
  rw [Entry.finding_symbol, hstored] at hstored'
  cases hstored'
  rcases hverdict with ⟨-, hshadowed⟩ | ⟨-, hscoping⟩
  · simp [hshadowed]
  · have hkind : m.kind.isMember = true := by
      rw [Symbol.isInstanceMember, Bool.and_eq_true] at hmember
      exact hmember.1
    have hnot := scopingVerdict_ne_shadowed hscoping
    rw [scopingVerdict_of_isMember hkind] at hscoping
    obtain ⟨reached, hreached, hv⟩ := memberVerdict_eq_ok_iff.1 hscoping
    rw [hreached]
    cases reached with
    | true => simp [hv, hf, Verdict.requiring]
    | false => simp [hv]

/-! ### Behind a value -/

/-- An instance member is used behind a value, where an expression can stand that is no operand of a
pattern, exactly when it can be accessed. -/
theorem memberOffer_value_iff {g : Setting} (hslot : g.cursor.slot = .expression)
    (hpattern : g.cursor.inPattern = false) (hobsolete : g.options.hideObsolete = false)
    {m : Symbol} (hmember : m.isInstanceMember = true) :
    s.memberOffer g .value m = .ok .applicable ↔ s.canAccess g.signal g.site m = .ok true := by
  have hstatic : m.isStatic = false := by
    rw [Symbol.isInstanceMember, Bool.and_eq_true] at hmember
    simpa using hmember.2
  rw [memberOffer_applicable_iff hslot]
  simp [unreachable?, hstatic, hpattern, hobsolete]

/-- The verdict on a member among the offers behind a value is the one on the member. -/
theorem Indexed.memberOffer_verdictOn (hs : s.Indexed) {g : Setting} {approach : Approach}
    {t : TypeRef} {os : List Offer} (hos : s.typeOffers g approach t = .ok os) {symbol : SymbolId}
    {m : Symbol} (hstored : s.symbols[symbol]? = some m) (hmem : ∃ o ∈ os, o.symbol = symbol)
    (cursor : Cursor) (receiver : Option Receiver) (es : List Offer) :
    s.memberOffer g approach m = .ok (Offering.verdictOn ⟨cursor, receiver, os ++ es⟩ symbol) := by
  obtain ⟨first, hfirst⟩ : ∃ first, os.find? (fun o => o.symbol == symbol) = some first := by
    obtain ⟨o, ho, hsymbol⟩ := hmem
    rw [← Option.isSome_iff_exists, List.find?_isSome]
    exact ⟨o, ho, by simpa using hsymbol⟩
  have hsame : first.symbol = symbol := by simpa using List.find?_some hfirst
  obtain ⟨-, m', hstored', hoffer⟩ :=
    (hs.typeOffers_eq_ok hos).2 first (List.mem_of_find?_eq_some hfirst)
  rw [hsame, hstored] at hstored'
  cases hstored'
  rw [Offering.verdictOn, List.find?_append, hfirst]
  exact hoffer

end Store

namespace Snapshot

variable {snapshot : Snapshot} {signal : Signal} {options : Options} {request : Request}

section Value

variable {site : Site} {type t : TypeRef} {os : List Offer}
  (hsite : snapshot.store.siteAt (snapshot.store.scopeAt request.position) = .ok site)
  (hreceiver : snapshot.receiverAt .quiet options request = .ok (.value type))
  (ht : snapshot.store.valueType (snapshot.cursorAt request).link type = t)
  (hknown : t.isUnresolved = false)
  (hos : snapshot.store.typeOffers (snapshot.settingAt .quiet options request site) .value t =
    .ok os)
include hsite hreceiver ht hknown hos

/-- The offers behind a value of a known type whose members are judged: these, and then those for
the extension methods that can be called on it. -/
theorem offers_behind_value :
    snapshot.offers .quiet options request =
      (snapshot.store.extensionOffers (snapshot.settingAt .quiet options request site)
        (snapshot.store.scopeAt request.position) t).map fun es =>
          ⟨snapshot.cursorAt request, some (.value type), os ++ es⟩ := by
  have hvalue : snapshot.store.valueOffers (snapshot.settingAt .quiet options request site)
      (snapshot.store.scopeAt request.position) type =
      (snapshot.store.extensionOffers (snapshot.settingAt .quiet options request site)
        (snapshot.store.scopeAt request.position) t).map fun es => os ++ es := by
    rw [Store.valueOffers_eq ht hknown, hos]
    rfl
  rw [offers_behind_eq (behind_of_receiverAt hreceiver), hsite, hreceiver]
  change (do
    let os ← snapshot.store.valueOffers (snapshot.settingAt .quiet options request site)
      (snapshot.store.scopeAt request.position) type
    return (⟨snapshot.cursorAt request, some (.value type), os⟩ : Offering)) = _
  rw [hvalue]
  cases snapshot.store.extensionOffers (snapshot.settingAt .quiet options request site)
    (snapshot.store.scopeAt request.position) t with
  | error fault => rfl
  | ok es => rfl

/-- **The verdict on a member behind a value** is given once the extension methods that can be
called on the value are found: they come after the members and change nothing. -/
theorem verdictOn_behind_value (hs : snapshot.store.Indexed) {ms : List Member}
    (hms : snapshot.store.typeMembers .quiet t = .ok ms) {m : Member} (hm : m ∈ ms) {v : Verdict}
    (hv : snapshot.store.memberOffer (snapshot.settingAt .quiet options request site) .value
      m.symbol = .ok v) :
    snapshot.verdictOn .quiet options request m.symbol.id =
      (snapshot.store.extensionOffers (snapshot.settingAt .quiet options request site)
        (snapshot.store.scopeAt request.position) t).map fun _ => v := by
  obtain ⟨o, ho, hsymbol, -⟩ := (Store.exists_mem_typeOffers_iff hms hos).2 ⟨m, hm, rfl, hv⟩
  rw [verdictOn, offers_behind_value hsite hreceiver ht hknown hos]
  cases snapshot.store.extensionOffers (snapshot.settingAt .quiet options request site)
    (snapshot.store.scopeAt request.position) t with
  | error fault => rfl
  | ok es =>
      have hfirst := hs.memberOffer_verdictOn hos (hs.stored_of_mem_typeMembers hms hm)
        ⟨o, ho, hsymbol⟩ (snapshot.cursorAt request) (some (.value type)) es
      rw [hv] at hfirst
      exact hfirst.symm

end Value

/-- **By their names alone and behind `this`, the members agree.**  Let `this` stand for a value.
Then a look-up lists, for the innermost type around the position, the members of the type of that
value, found on the same types and in the same order.  And where an expression can stand behind
`this` or another expression of the type, outside patterns, not behind `?.` and with obsolete
symbols shown, an instance member has a verdict; it can be used exactly when it can be used by its
name alone, or is shadowed and can be accessed from the position.  The verdict is given if the
extension methods that can be called on the value are found, and otherwise their fault is. -/
theorem behind_this_agrees (hs : snapshot.store.Built) (howned : snapshot.store.BodiesOwned)
    {position : UInt64} {t : TypeRef}
    (hthis : snapshot.store.resolve signal options position ["this"] = .ok (.value t)) :
    ∃ p ms chain site id params group,
      snapshot.store.lookup signal options position = .ok p ∧
      snapshot.store.typeMembers signal t = .ok ms ∧
      snapshot.store.ancestors (snapshot.store.scopeAt position) = .ok chain ∧
      snapshot.store.siteAt (snapshot.store.scopeAt position) = .ok site ∧
      snapshot.store.InnermostBody chain id ∧ (id, [params, group]) ∈ p.groups ∧
      group.map Entry.finding = ms.map Member.finding ∧
      ∀ request : Request, request.position = position →
        snapshot.receiverAt signal options request = .ok (.value t) →
        (snapshot.cursorAt request).slot = .expression →
        (snapshot.cursorAt request).inPattern = false →
        (snapshot.cursorAt request).link ≠ some .conditionalDot → options.hideObsolete = false →
        ∀ e ∈ group, ∀ m, snapshot.store.symbols[e.symbol]? = some m → m.isInstanceMember = true →
          ∃ v,
            snapshot.store.memberOffer (snapshot.settingAt signal options request site) .value m =
              .ok v ∧
            (v = .applicable ↔ e.verdict = .applicable ∨
              e.verdict = .excluded .shadowed ∧
                snapshot.store.canAccess signal site m = .ok true) ∧
            snapshot.verdictOn signal options request e.symbol =
              (snapshot.store.extensionOffers (snapshot.settingAt signal options request site)
                (snapshot.store.scopeAt position) t).map fun _ => v := by
  obtain ⟨p, site, hp, hinstance, hsite, htype⟩ := Store.resolve_this_eq_value_iff.1 hthis
  obtain ⟨hcheck, chain, hchain, hout, -, hwithin⟩ := Store.lookup_eq_ok_iff.1 hp
  obtain rfl := Signal.eq_quiet_of_check hcheck
  rw [hwithin] at hinstance
  obtain ⟨id, owner, ms, params, group, hbody, hhead, hself, hms, hgroup, hfindings, hmade⟩ :=
    howned.exists_memberGroup hout hinstance
  have hsite' := hsite
  rw [Store.siteAt, hchain] at hsite'
  cases hsite'
  rw [hhead, Option.bind_some, hself] at htype
  cases htype
  refine ⟨p, ms, chain, _, id, params, group, hp, hms, hchain, hsite, hbody, hgroup, hfindings, ?_⟩
  rintro request rfl hreceiver hslot hpattern hlink hobsolete e he m hstored hmember
  have ht : snapshot.store.valueType (snapshot.cursorAt request).link
      (snapshot.store.selfType owner) = snapshot.store.selfType owner := if_neg hlink
  -- the members are judged, since it is known whether they can be accessed
  obtain ⟨os, hos⟩ : ∃ os, snapshot.store.typeOffers (snapshot.settingAt .quiet options request
      ⟨chain.filterMap snapshot.store.typeAround?⟩) .value (snapshot.store.selfType owner) =
        .ok os :=
    (Store.exists_typeOffers_iff hslot).2
      ⟨ms, hms, fun m _ => howned.exists_canAccess hout m.symbol⟩
  obtain ⟨v, hv⟩ : ∃ v, snapshot.store.memberOffer (snapshot.settingAt .quiet options request
      ⟨chain.filterMap snapshot.store.typeAround?⟩) .value m = .ok v :=
    (Store.exists_memberOffer_iff hslot).2 (howned.exists_canAccess hout m)
  obtain ⟨f, names, hf, hentry⟩ := hmade e he
  refine ⟨v, hv, ?_, ?_⟩
  · rw [← Store.canAccess_iff_of_entryOf hentry hf hstored hmember, ← Except.ok.injEq, ← hv]
    exact Store.memberOffer_value_iff hslot hpattern hobsolete hmember
  · have hlisted : e.finding ∈ ms.map Member.finding := by
      rw [← hfindings]
      exact List.mem_map_of_mem he
    obtain ⟨m', hm', hfinding⟩ := List.mem_map.1 hlisted
    have hid : m'.symbol.id = e.symbol := congrArg Finding.symbol hfinding
    have hstored' := hs.indexed.stored_of_mem_typeMembers hms hm'
    rw [hid, hstored] at hstored'
    cases hstored'
    rw [← hid]
    exact verdictOn_behind_value hsite hreceiver ht (Store.isUnresolved_selfType owner) hos
      hs.indexed hms hm' hv

/-- A class with a field that a variable of its method shadows.  It comes from a generic class, with
a protected field and a private one. -/
def shadowedField : Snapshot where
  store :=
    Store.empty.insertScope { id := ⟨0⟩, kind := .nameSpace, span := ⟨0, 90⟩ }
      |>.insertScope { id := ⟨1⟩, kind := .type, span := ⟨50, 60⟩, parent := some ⟨0⟩,
                       owner := some ⟨0⟩ }
      |>.insertScope { id := ⟨2⟩, kind := .type, span := ⟨0, 40⟩, parent := some ⟨0⟩,
                       owner := some ⟨4⟩ }
      |>.insertScope { id := ⟨3⟩, kind := .method, span := ⟨0, 30⟩, parent := some ⟨2⟩ }
      |>.insertSymbol { id := ⟨0⟩, kind := .type, name := "Base", scope := ⟨0⟩, arity := 1 }
      |>.insertSymbol { id := ⟨1⟩, kind := .typeParameter, name := "T", scope := ⟨1⟩,
                        container := some ⟨0⟩ }
      |>.insertSymbol { id := ⟨2⟩, kind := .field, name := "item", scope := ⟨1⟩,
                        container := some ⟨0⟩, access := .derived, type := some (.param ⟨1⟩) }
      |>.insertSymbol { id := ⟨3⟩, kind := .field, name := "secret", scope := ⟨1⟩,
                        container := some ⟨0⟩, access := .container }
      |>.insertSymbol { id := ⟨4⟩, kind := .type, name := "Derived", scope := ⟨0⟩ }
      |>.insertSymbol { id := ⟨5⟩, kind := .field, name := "count", scope := ⟨2⟩,
                        container := some ⟨4⟩ }
      |>.insertSymbol { id := ⟨6⟩, kind := .localVariable, name := "count", scope := ⟨3⟩ }
      |>.insertType { id := ⟨0⟩, kind := .classType }
      |>.insertType { id := ⟨4⟩, kind := .classType, base := some (.named ⟨0⟩ [.plain ⟨4⟩]) }
      |>.insertTypeParam { id := ⟨1⟩, owner := ⟨0⟩, ordinal := 0 }
  text := "this."
  version := 1

theorem built_shadowedField : shadowedField.store.Built :=
  .insertTypeParam _ (.insertType _ (.insertType _ (.insertSymbol _ (.insertSymbol _
    (.insertSymbol _ (.insertSymbol _ (.insertSymbol _ (.insertSymbol _ (.insertSymbol _
      (.insertScope _ (.insertScope _ (.insertScope _ (.insertScope _ .empty)))))))))))))

def shadowedFieldView : Panorama where
  scope := ⟨3⟩
  groups := [
    (⟨3⟩, [[⟨⟨6⟩, none, .applicable, .declared⟩]]),
    (⟨2⟩, [[], [
      ⟨⟨5⟩, some (.plain ⟨4⟩), .excluded .shadowed, .declared⟩,
      ⟨⟨2⟩, some (.named ⟨0⟩ [.plain ⟨4⟩]), .applicable, .inherited⟩,
      ⟨⟨3⟩, some (.named ⟨0⟩ [.plain ⟨4⟩]), .excluded .inaccessible, .inherited⟩]]),
    (⟨0⟩, [[⟨⟨0⟩, none, .applicable, .declared⟩, ⟨⟨4⟩, none, .applicable, .declared⟩], []])]
  hasInstance := true

/-- The shadowed field and the protected one can be used behind `this`; the private one cannot. -/
theorem behind_this_agrees_shadowedField :
    shadowedField.store.BodiesOwned ∧
      shadowedField.store.resolve .quiet {} 5 ["this"] = .ok (.value (.plain ⟨4⟩)) ∧
      shadowedField.store.lookup .quiet {} 5 = .ok shadowedFieldView ∧
      shadowedField.verdictOn .quiet {} ⟨5, none⟩ ⟨5⟩ = .ok .applicable ∧
      shadowedField.verdictOn .quiet {} ⟨5, none⟩ ⟨2⟩ = .ok .applicable ∧
      ∃ v, v ≠ .applicable ∧ shadowedField.verdictOn .quiet {} ⟨5, none⟩ ⟨3⟩ = .ok v := by
  have howned : shadowedField.store.BodiesOwned := by decide +kernel
  have hthis : shadowedField.store.resolve .quiet {} 5 ["this"] =
      .ok (.value (.plain ⟨4⟩)) := by decide +kernel
  have hview : shadowedField.store.lookup .quiet {} 5 = .ok shadowedFieldView := by decide +kernel
  have hcursor : shadowedField.cursorAt ⟨5, none⟩ =
      { link := some .dot, receiver := ["this"] } := by decide +kernel
  have hmethods : shadowedField.store.extensionMethods .quiet (shadowedField.store.scopeAt 5) =
      .ok [] := by decide +kernel
  have hextensions : shadowedField.store.extensionOffers
      (shadowedField.settingAt .quiet {} ⟨5, none⟩ ⟨[⟨4⟩]⟩) (shadowedField.store.scopeAt 5)
      (.plain ⟨4⟩) = .ok [] :=
    Answer.bind_eq_ok.2 ⟨[], hmethods, rfl⟩
  have hsite : shadowedField.store.siteAt (shadowedField.store.scopeAt 5) = .ok ⟨[⟨4⟩]⟩ := by
    decide +kernel
  have hcount : (shadowedField.store.typeMembers .quiet (.plain ⟨4⟩)).map List.length = .ok 3 := by
    decide +kernel
  have hreceiver : shadowedField.receiverAt .quiet {} ⟨5, none⟩ = .ok (.value (.plain ⟨4⟩)) := by
    decide +kernel
  obtain ⟨p, ms, chain, site, id, params, group, hp, hms, -, hsite', -, hgroup, hfindings,
    hagree⟩ := behind_this_agrees built_shadowedField howned hthis
  rw [hview] at hp
  rw [hsite] at hsite'
  rw [hms] at hcount
  cases hp
  cases hsite'
  have hlength : group.length = 3 := by
    rw [← List.length_map Entry.finding, hfindings, List.length_map]
    exact Except.ok.inj hcount
  -- of the scopes around, only the body of the class lists three members
  simp only [shadowedFieldView, List.mem_cons, Prod.mk.injEq, List.cons.injEq, List.not_mem_nil,
    reduceCtorEq, and_true, and_false, or_false, false_or] at hgroup
  rcases hgroup with ⟨-, -, rfl⟩ | ⟨-, -, rfl⟩
  · have hverdict := hagree ⟨5, none⟩ rfl hreceiver (by rw [hcursor]) (by rw [hcursor])
      (by rw [hcursor]; decide) rfl
    rw [hextensions] at hverdict
    refine ⟨howned, hthis, hview, ?_, ?_, ?_⟩
    · obtain ⟨v, -, hv, h⟩ := hverdict _ (.head _) _ rfl rfl
      rw [h, hv.2 (.inr ⟨rfl, by decide +kernel⟩)]
      rfl
    · obtain ⟨v, -, hv, h⟩ := hverdict _ (.tail _ (.head _)) _ rfl rfl
      rw [h, hv.2 (.inl rfl)]
      rfl
    · obtain ⟨v, -, hv, h⟩ := hverdict _ (.tail _ (.tail _ (.head _))) _ rfl rfl
      refine ⟨v, ?_, h⟩
      rw [ne_eq, hv]
      simp
  · cases hlength

/-- A class with a field, which comes from a generic class applied to a class that comes from
itself, and an extension method for the generic class with a constraint on its argument. -/
def loopedArgument : Snapshot where
  store :=
    Store.empty.insertScope { id := ⟨0⟩, kind := .nameSpace, span := ⟨0, 90⟩ }
      |>.insertScope { id := ⟨1⟩, kind := .type, span := ⟨0, 40⟩, parent := some ⟨0⟩,
                       owner := some ⟨0⟩ }
      |>.insertScope { id := ⟨2⟩, kind := .type, span := ⟨50, 60⟩, parent := some ⟨0⟩,
                       owner := some ⟨1⟩ }
      |>.insertSymbol { id := ⟨0⟩, kind := .type, name := "C", scope := ⟨0⟩ }
      |>.insertSymbol { id := ⟨1⟩, kind := .type, name := "Ext", scope := ⟨0⟩,
                        modifiers := [.static] }
      |>.insertSymbol { id := ⟨2⟩, kind := .method, name := "M", scope := ⟨2⟩,
                        container := some ⟨1⟩, arity := 1, modifiers := [.static, .extension] }
      |>.insertSymbol { id := ⟨3⟩, kind := .typeParameter, name := "U", scope := ⟨2⟩,
                        container := some ⟨2⟩ }
      |>.insertSymbol { id := ⟨4⟩, kind := .type, name := "Box", scope := ⟨0⟩, arity := 1 }
      |>.insertSymbol { id := ⟨5⟩, kind := .type, name := "Loop", scope := ⟨0⟩ }
      |>.insertSymbol { id := ⟨6⟩, kind := .field, name := "count", scope := ⟨1⟩,
                        container := some ⟨0⟩ }
      |>.insertType { id := ⟨0⟩, kind := .classType, base := some (.named ⟨4⟩ [.plain ⟨5⟩]) }
      |>.insertType { id := ⟨1⟩, kind := .classType }
      |>.insertType { id := ⟨4⟩, kind := .classType }
      |>.insertType { id := ⟨5⟩, kind := .classType, base := some (.plain ⟨5⟩) }
      |>.insertTypeParam { id := ⟨3⟩, owner := ⟨2⟩, ordinal := 0, constraints := [.plain ⟨4⟩] }
      |>.insertSignature { id := ⟨2⟩,
                           params := [{ name := "box", type := .named ⟨4⟩ [.param ⟨3⟩],
                                        kind := .receiver }] }
  text := "this."
  version := 1

/-- **A member that can be used by its name alone, and has no verdict behind `this`**: the search
for extension methods fails on a class that the member has nothing to do with. -/
theorem behind_this_unanswered :
    loopedArgument.store.check = .ok () ∧ loopedArgument.store.BodiesOwned ∧
      loopedArgument.store.resolve .quiet {} 5 ["this"] = .ok (.value (.plain ⟨0⟩)) ∧
      (loopedArgument.store.lookup .quiet {} 5).map (fun p => (p.ofSymbol? ⟨6⟩).map Entry.verdict) =
        .ok (some .applicable) ∧
      loopedArgument.verdictOn .quiet {} ⟨5, none⟩ ⟨6⟩ =
        .error (.breach (.inheritanceCycle "Loop" ⟨5⟩)) := by
  decide +kernel

end Snapshot

end Ambit
