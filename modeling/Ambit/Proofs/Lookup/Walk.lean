/-
The way outwards, taken apart.

A look-up goes through the scopes around a position and, in each scope, through the groups of
symbols that it contributes.  Two things are carried along: the footing of the code, which depends
only on the scopes already left, and the names that are bound, which depend only on the entries
already made.  Both are computed here on their own, so that a run can be cut at any scope: what
comes after the cut is a run that starts with the footing and the names of the part before it.

Main definitions:

* `Ambit.Entry.finding` — what an entry was made for;
* `Ambit.Store.foldedName?` — the name of an entry's symbol, in the form in which it is compared;
* `Ambit.Store.scopesOf`, `Ambit.Store.footingAfter` — the scopes of a way outwards, and the footing
  after leaving them;
* `Ambit.Store.boundAfter` — the names that are bound after some groups of entries;
* `Ambit.Store.Contributes` — a symbol that a scope contributes.

Main results:

* `Ambit.Store.entryOf_eq_ok_iff` — **an entry** is shadowed when its name is bound, and otherwise
  carries the verdict of its scope;
* `Ambit.Store.exists_typeMembers_of_groupsOf` — what the body of a type contributes;
* `Ambit.Store.entriesAlong_append_eq_ok` — **a run can be cut at any scope**;
* `Ambit.Store.entriesAlong_groupsOf` — every scope on the way contributes its groups, in order;
* `Ambit.Store.entriesAlong_getElem?` — the footing on which the entries of a scope are made;
* `Ambit.Store.contributes_cases` — what a scope contributes;
* `Ambit.Store.contributes_of_mem`, `Ambit.Store.exists_mem_of_contributes` — what is met on the way
  is what its scopes contribute;
* `Ambit.Store.lookup_eq_ok_iff` — a look-up is a run from the innermost scope.
-/

import Ambit.Lookup
import Ambit.Proofs.Answer

set_option relaxedAutoImplicit false
set_option autoImplicit false

namespace Ambit

/-- What an entry was made for. -/
def Entry.finding (e : Entry) : Finding :=
  { symbol := e.symbol, via := e.via, origin := e.origin }

@[simp] theorem Entry.finding_symbol (e : Entry) : e.finding.symbol = e.symbol := rfl

/-- A member as it is met on the way outwards. -/
def Member.finding (m : Member) : Finding :=
  { symbol := m.symbol.id, via := some m.declaring,
    origin := if m.inherited then .inherited else .declared }

theorem Entry.binds_eq_true_iff {e : Entry} :
    e.binds = true ↔
      e.verdict ≠ .excluded .shadowed ∧ e.verdict ≠ .excluded .inaccessible := by
  simp [Entry.binds]

theorem Entry.isVisible_eq_true_iff {e : Entry} : e.isVisible = true ↔ e.verdict = .applicable := by
  simp [Entry.isVisible, Verdict.isApplicable]

theorem Entry.binds_of_isVisible {e : Entry} (h : e.isVisible = true) : e.binds = true := by
  rw [binds_eq_true_iff, isVisible_eq_true_iff.1 h]
  simp

theorem Panorama.entries_eq (p : Panorama) : p.entries = (p.groups.flatMap Prod.snd).flatten := by
  rw [List.flatten_eq_flatMap, List.flatMap_assoc, entries]
  exact List.flatMap_congr fun _ _ => List.flatten_eq_flatMap

namespace Store

variable {s : Store} {o : Outlook} {f : Footing} {bound : List String}

/-! ### One entry -/

/-- The name of an entry's symbol, in the form in which it is compared. -/
def foldedName? (s : Store) (options : Options) (e : Entry) : Option String :=
  (s.symbols[e.symbol]?).map fun symbol => options.fold symbol.name

theorem boundName?_eq_some {e : Entry} {name : String} :
    s.boundName? o e = some name ↔ e.binds = true ∧ s.foldedName? o.options e = some name := by
  rw [boundName?, foldedName?]
  split
  · rename_i h
    simp [h]
  · rename_i h
    simp [h]

/-- A member is neither textually scoped nor a variable that can be captured. -/
theorem kind_of_isMember {kind : SymbolKind} (h : kind.isMember = true) :
    kind.isTextuallyScoped = false ∧ kind.isCapturable = false := by
  cases kind <;> simp_all [SymbolKind.isMember, SymbolKind.isTextuallyScoped,
    SymbolKind.isCapturable]

theorem scopingVerdict_of_isMember {symbol : Symbol} (h : symbol.kind.isMember = true) :
    s.scopingVerdict o f symbol = s.memberVerdict o f symbol := by
  obtain ⟨hscoped, hcapturable⟩ := kind_of_isMember h
  rw [scopingVerdict, hscoped, hcapturable, h]
  rfl

/-- The verdict on a member: it is within reach, and there is an instance where one is needed. -/
theorem memberVerdict_eq_ok_iff {symbol : Symbol} {v : Verdict} :
    s.memberVerdict o f symbol = .ok v ↔
      ∃ reached, s.canAccess o.signal o.site symbol = .ok reached ∧
        v = if reached = true then
          .requiring (!symbol.isInstanceMember || f.hasInstance || f.inNameOf)
            .instanceInStaticContext
        else .excluded .inaccessible := by
  rw [memberVerdict, Answer.bind_eq_ok]
  refine exists_congr fun reached => and_congr_right fun _ => ?_
  cases reached with
  | true => exact ⟨fun h => (Except.ok.inj h).symm, fun h => congrArg Except.ok h.symm⟩
  | false => exact ⟨fun h => (Except.ok.inj h).symm, fun h => congrArg Except.ok h.symm⟩

theorem isMember_of_scopingVerdict {symbol : Symbol}
    (h : s.scopingVerdict o f symbol = .ok (.excluded .inaccessible)) :
    symbol.kind.isMember = true := by
  by_contra hmember
  rw [scopingVerdict, if_neg hmember] at h
  split at h
  · cases h
  · split at h
    · cases h
    · cases h

theorem scopingVerdict_ne_shadowed {symbol : Symbol} {v : Verdict}
    (h : s.scopingVerdict o f symbol = .ok v) : v ≠ .excluded .shadowed := by
  rw [scopingVerdict] at h
  split at h
  · cases h
    simp
  · split at h
    · cases h
      simp
    · split at h
      · obtain ⟨b, -, h⟩ := Answer.bind_eq_ok.1 h
        split at h
        · cases h
          simp
        · cases h
          rw [Verdict.requiring]
          split <;> simp
      · cases h
        simp

/-- **An entry** is for a symbol that is there.  It is shadowed when its name is bound, and
otherwise carries the verdict of its scope. -/
theorem entryOf_eq_ok_iff {found : Finding} {e : Entry} :
    s.entryOf o f bound found = .ok e ↔
      e.finding = found ∧ ∃ symbol, s.symbols[found.symbol]? = some symbol ∧
        ((o.options.fold symbol.name ∈ bound ∧ e.verdict = .excluded .shadowed) ∨
          (o.options.fold symbol.name ∉ bound ∧ s.scopingVerdict o f symbol = .ok e.verdict)) := by
  rw [entryOf]
  cases hsymbol : s.symbols[found.symbol]? with
  | none => simp
  | some symbol =>
      simp only [List.contains_iff_mem]
      split
      · rename_i hname
        constructor
        · intro h
          cases h
          exact ⟨rfl, symbol, rfl, Or.inl ⟨hname, rfl⟩⟩
        · rintro ⟨rfl, symbol', hsymbol', ⟨-, hv⟩ | ⟨hname', -⟩⟩
          · exact congrArg Except.ok (by rw [← hv]; rfl)
          · cases hsymbol'
            exact absurd hname hname'
      · rename_i hname
        rw [Answer.bind_eq_ok]
        constructor
        · rintro ⟨v, hv, h⟩
          cases h
          exact ⟨rfl, symbol, rfl, Or.inr ⟨hname, hv⟩⟩
        · rintro ⟨rfl, symbol', hsymbol', ⟨hname', -⟩ | ⟨-, hv⟩⟩
          · cases hsymbol'
            exact absurd hname' hname
          · cases hsymbol'
            exact ⟨e.verdict, hv, rfl⟩

/-- An entry is shadowed exactly when its name is bound before it. -/
theorem entryOf_shadowed_iff {found : Finding} {e : Entry}
    (h : s.entryOf o f bound found = .ok e) :
    e.verdict = .excluded .shadowed ↔ ∃ name ∈ bound, s.foldedName? o.options e = some name := by
  obtain ⟨rfl, symbol, hsymbol, h⟩ := entryOf_eq_ok_iff.1 h
  rw [Entry.finding_symbol] at hsymbol
  rw [foldedName?, hsymbol]
  rcases h with ⟨hname, hv⟩ | ⟨hname, hv⟩
  · simp [hname, hv]
  · simp [hname, scopingVerdict_ne_shadowed hv]

theorem map_finding_of_forall₂ {g : List Finding} {es : List Entry}
    (h : List.Forall₂ (fun found e => s.entryOf o f bound found = .ok e) g es) :
    es.map Entry.finding = g := by
  induction h with
  | nil => rfl
  | cons he _ ih => rw [List.map_cons, ih, (entryOf_eq_ok_iff.1 he).1]

theorem entryOf_of_mem_forall₂ {g : List Finding} {es : List Entry}
    (h : List.Forall₂ (fun found e => s.entryOf o f bound found = .ok e) g es) {e : Entry}
    (he : e ∈ es) : s.entryOf o f bound e.finding = .ok e := by
  induction h with
  | nil => simp at he
  | cons hmade _ ih =>
      rcases List.mem_cons.1 he with rfl | he
      · rw [(entryOf_eq_ok_iff.1 hmade).1]
        exact hmade
      · exact ih he

theorem exists_foldedName?_of_forall₂ {g : List Finding} {es : List Entry}
    (h : List.Forall₂ (fun found e => s.entryOf o f bound found = .ok e) g es) {e : Entry}
    (he : e ∈ es) : ∃ name, s.foldedName? o.options e = some name := by
  obtain ⟨-, symbol, hsymbol, -⟩ := entryOf_eq_ok_iff.1 (entryOf_of_mem_forall₂ h he)
  exact ⟨_, Option.map_eq_some_iff.2 ⟨symbol, hsymbol, rfl⟩⟩

/-- The entries of a group are all entries that are made for its findings. -/
theorem mem_iff_of_forall₂ {g : List Finding} {es : List Entry}
    (h : List.Forall₂ (fun found e => s.entryOf o f bound found = .ok e) g es) {e : Entry} :
    e ∈ es ↔ e.finding ∈ g ∧ s.entryOf o f bound e.finding = .ok e := by
  constructor
  · intro he
    refine ⟨?_, entryOf_of_mem_forall₂ h he⟩
    rw [← map_finding_of_forall₂ h]
    exact List.mem_map_of_mem he
  · rintro ⟨hfinding, hmade⟩
    rw [← map_finding_of_forall₂ h] at hfinding
    obtain ⟨e', he', heq⟩ := List.mem_map.1 hfinding
    have hmade' := entryOf_of_mem_forall₂ h he'
    rw [heq, hmade] at hmade'
    cases hmade'
    exact he'

/-! ### The groups of one scope -/

/-- The names that are bound after some groups of entries. -/
def boundAfter (s : Store) (o : Outlook) : List String → List (List Entry) → List String
  | bound, [] => bound
  | bound, group :: groups => s.boundAfter o (group.filterMap (s.boundName? o) ++ bound) groups

theorem boundAfter_append (bound : List String) (gs hs : List (List Entry)) :
    s.boundAfter o bound (gs ++ hs) = s.boundAfter o (s.boundAfter o bound gs) hs := by
  induction gs generalizing bound with
  | nil => rfl
  | cons g gs ih => exact ih _

/-- A name is bound after some groups when it was bound before or an entry of them binds it. -/
theorem mem_boundAfter {gs : List (List Entry)} {name : String} :
    name ∈ s.boundAfter o bound gs ↔
      name ∈ bound ∨ ∃ g ∈ gs, ∃ e ∈ g, s.boundName? o e = some name := by
  induction gs generalizing bound with
  | nil => simp [boundAfter]
  | cons g gs ih =>
      rw [boundAfter, ih]
      simp only [List.mem_append, List.mem_filterMap, List.mem_cons, exists_eq_or_imp]
      rw [or_assoc, or_left_comm]

/-- The entries of a group are made one by one under the names bound before it, and the names that
they bind count for the groups after it. -/
theorem entriesOf_cons_eq_ok {g : List Finding} {gs : List (List Finding)}
    {es : List (List Entry)} {after : List String} :
    s.entriesOf o f bound (g :: gs) = .ok (es, after) ↔
      ∃ first later, List.Forall₂ (fun found e => s.entryOf o f bound found = .ok e) g first ∧
        s.entriesOf o f (first.filterMap (s.boundName? o) ++ bound) gs = .ok (later, after) ∧
        es = first :: later := by
  rw [entriesOf]
  simp only [Answer.bind_eq_ok, Answer.mapM_eq_ok]
  constructor
  · rintro ⟨first, hfirst, ⟨later, after'⟩, hlater, h⟩
    cases h
    exact ⟨first, later, hfirst, hlater, rfl⟩
  · rintro ⟨first, later, hfirst, hlater, rfl⟩
    exact ⟨first, hfirst, (later, after), hlater, rfl⟩

/-- The names bound after the groups of a scope are those that their entries bind. -/
theorem eq_boundAfter_of_entriesOf {gs : List (List Finding)} {es : List (List Entry)}
    {after : List String} (h : s.entriesOf o f bound gs = .ok (es, after)) :
    after = s.boundAfter o bound es := by
  induction gs generalizing bound es with
  | nil =>
      cases h
      rfl
  | cons g gs ih =>
      obtain ⟨first, later, -, hlater, rfl⟩ := entriesOf_cons_eq_ok.1 h
      rw [boundAfter]
      exact ih hlater

theorem map_finding_of_entriesOf {gs : List (List Finding)} {es : List (List Entry)}
    {after : List String} (h : s.entriesOf o f bound gs = .ok (es, after)) :
    es.map (List.map Entry.finding) = gs := by
  induction gs generalizing bound es with
  | nil =>
      cases h
      rfl
  | cons g gs ih =>
      obtain ⟨first, later, hfirst, hlater, rfl⟩ := entriesOf_cons_eq_ok.1 h
      rw [List.map_cons, map_finding_of_forall₂ hfirst, ih hlater]

/-- Every entry of a scope is made on the footing of the scope. -/
theorem entryOf_of_mem_entriesOf {gs : List (List Finding)} {es : List (List Entry)}
    {after : List String} (h : s.entriesOf o f bound gs = .ok (es, after)) {g : List Entry}
    (hg : g ∈ es) {e : Entry} (he : e ∈ g) :
    ∃ names, s.entryOf o f names e.finding = .ok e := by
  induction gs generalizing bound es with
  | nil =>
      cases h
      simp at hg
  | cons fs gs ih =>
      obtain ⟨first, later, hfirst, hlater, rfl⟩ := entriesOf_cons_eq_ok.1 h
      rcases List.mem_cons.1 hg with rfl | hg
      · exact ⟨bound, entryOf_of_mem_forall₂ hfirst he⟩
      · exact ih hlater hg

/-- **The groups of the body of a type**: its type parameters, and the members of the type. -/
theorem exists_typeMembers_of_groupsOf {signal : Signal} {scope : Scope}
    (hkind : scope.kind = .type) {owner : SymbolId} (howner : scope.owner = some owner)
    {self : TypeRef} (hself : s.typeOf? owner = some self) {groups : List (List Finding)}
    (h : s.groupsOf signal scope = .ok groups) :
    ∃ params ms, s.typeMembers signal self = .ok ms ∧ groups = [params, ms.map Member.finding] := by
  rw [groupsOf, hkind] at h
  obtain ⟨members, hmembers, h⟩ := Answer.bind_eq_ok.1 h
  cases h
  rw [memberGroup, howner, Option.bind_some, hself] at hmembers
  obtain ⟨ms, hms, hmembers⟩ := Answer.bind_eq_ok.1 hmembers
  cases hmembers
  exact ⟨_, ms, hms, rfl⟩

/-! ### The way outwards -/

/-- The scopes of a way outwards. -/
def scopesOf (s : Store) (chain : List ScopeId) : List Scope := chain.filterMap (s.scopes[·]?)

/-- The footing after going through some scopes and leaving them. -/
def footingAfter (s : Store) : Footing → List Scope → Footing
  | f, [] => f
  | f, scope :: scopes => s.footingAfter (s.leave (f.enter scope) scope) scopes

/-- A scope on the way is there; its groups are gone through on the footing inside it, and the rest
of the way on the footing after leaving it. -/
theorem entriesAlong_cons_eq_ok {id : ScopeId} {rest : List ScopeId}
    {out : List (ScopeId × List (List Entry))} :
    s.entriesAlong o f bound (id :: rest) = .ok out ↔
      ∃ scope groups entries later, s.scopes[id]? = some scope ∧
        s.groupsOf o.signal scope = .ok groups ∧
        s.entriesOf o (f.enter scope) bound groups =
          .ok (entries, s.boundAfter o bound entries) ∧
        s.entriesAlong o (s.leave (f.enter scope) scope) (s.boundAfter o bound entries) rest =
          .ok later ∧
        out = (id, entries) :: later := by
  rw [entriesAlong]
  cases hscope : s.scopes[id]? with
  | none => simp
  | some scope =>
      simp only [Answer.bind_eq_ok]
      constructor
      · rintro ⟨groups, hgroups, ⟨entries, after⟩, hentries, later, hlater, h⟩
        cases h
        obtain rfl := eq_boundAfter_of_entriesOf hentries
        exact ⟨scope, groups, entries, later, rfl, hgroups, hentries, hlater, rfl⟩
      · rintro ⟨scope', groups, entries, later, hscope', hgroups, hentries, hlater, rfl⟩
        cases hscope'
        exact ⟨groups, hgroups, _, hentries, later, hlater, rfl⟩

/-- **A run can be cut at any scope**: what comes after the cut starts with the footing and the
names that the part before it leaves. -/
theorem entriesAlong_append_eq_ok {chain rest : List ScopeId}
    {out : List (ScopeId × List (List Entry))} :
    s.entriesAlong o f bound (chain ++ rest) = .ok out ↔
      ∃ before after, s.entriesAlong o f bound chain = .ok before ∧
        s.entriesAlong o (s.footingAfter f (s.scopesOf chain))
          (s.boundAfter o bound (before.flatMap Prod.snd)) rest = .ok after ∧
        out = before ++ after := by
  induction chain generalizing f bound out with
  | nil => simp [entriesAlong, scopesOf, footingAfter, boundAfter]
  | cons id chain ih =>
      rw [List.cons_append, entriesAlong_cons_eq_ok]
      constructor
      · rintro ⟨scope, groups, entries, later, hscope, hgroups, hentries, hlater, rfl⟩
        obtain ⟨before, after, hbefore, hafter, rfl⟩ := ih.1 hlater
        refine ⟨(id, entries) :: before, after,
          entriesAlong_cons_eq_ok.2 ⟨scope, groups, entries, before, hscope, hgroups, hentries,
            hbefore, rfl⟩, ?_, rfl⟩
        rw [List.flatMap_cons, boundAfter_append, scopesOf, List.filterMap_cons_some hscope]
        exact hafter
      · rintro ⟨before, after, hbefore, hafter, rfl⟩
        obtain ⟨scope, groups, entries, later, hscope, hgroups, hentries, hlater, rfl⟩ :=
          entriesAlong_cons_eq_ok.1 hbefore
        -- both ways around, the footing and the names of the cut are those of the longer front part
        rw [List.flatMap_cons, boundAfter_append, scopesOf, List.filterMap_cons_some hscope]
          at hafter
        exact ⟨scope, groups, entries, later ++ after, hscope, hgroups, hentries,
          ih.2 ⟨later, after, hlater, hafter, rfl⟩, rfl⟩

/-- **Every scope on the way contributes its groups**, in order. -/
theorem entriesAlong_groupsOf {chain : List ScopeId} {out : List (ScopeId × List (List Entry))}
    (h : s.entriesAlong o f bound chain = .ok out) :
    List.Forall₂ (fun id level => level.1 = id ∧ ∃ scope, s.scopes[id]? = some scope ∧
      s.groupsOf o.signal scope = .ok (level.2.map (List.map Entry.finding))) chain out := by
  induction chain generalizing f bound out with
  | nil =>
      cases h
      exact .nil
  | cons id chain ih =>
      obtain ⟨scope, groups, entries, later, hscope, hgroups, hentries, hlater, rfl⟩ :=
        entriesAlong_cons_eq_ok.1 h
      refine .cons ⟨rfl, scope, hscope, ?_⟩ (ih hlater)
      rw [map_finding_of_entriesOf hentries]
      exact hgroups

theorem map_fst_of_entriesAlong {chain : List ScopeId}
    {out : List (ScopeId × List (List Entry))}
    (h : s.entriesAlong o f bound chain = .ok out) : out.map Prod.fst = chain := by
  have hall := entriesAlong_groupsOf h
  clear h
  induction hall with
  | nil => rfl
  | cons hid _ ih => rw [List.map_cons, ih, hid.1]

/-- All scopes on the way are there. -/
theorem map_scopes_of_entriesAlong {chain : List ScopeId}
    {out : List (ScopeId × List (List Entry))}
    (h : s.entriesAlong o f bound chain = .ok out) :
    chain.map (s.scopes[·]?) = (s.scopesOf chain).map some := by
  induction chain generalizing f bound out with
  | nil => rfl
  | cons id chain ih =>
      obtain ⟨scope, groups, entries, later, hscope, -, -, hlater, -⟩ :=
        entriesAlong_cons_eq_ok.1 h
      rw [List.map_cons, scopesOf, List.filterMap_cons_some hscope, ← scopesOf, List.map_cons,
        ih hlater, hscope]

/-- The entries of the `k`-th scope are made on the footing that is left by the scopes before it,
entered into that scope. -/
theorem entriesAlong_getElem? {chain : List ScopeId} {out : List (ScopeId × List (List Entry))}
    (h : s.entriesAlong o f bound chain = .ok out) {k : ℕ} {level : ScopeId × List (List Entry)}
    (hk : out[k]? = some level) :
    ∃ scope names groups after, (s.scopesOf chain)[k]? = some scope ∧
      s.entriesOf o ((s.footingAfter f ((s.scopesOf chain).take k)).enter scope) names groups =
        .ok (level.2, after) := by
  induction chain generalizing f bound out k with
  | nil =>
      cases h
      simp at hk
  | cons id chain ih =>
      obtain ⟨scope, groups, entries, later, hscope, -, hentries, hlater, rfl⟩ :=
        entriesAlong_cons_eq_ok.1 h
      rw [scopesOf, List.filterMap_cons_some hscope]
      cases k with
      | zero =>
          cases hk
          exact ⟨scope, bound, groups, _, rfl, hentries⟩
      | succ k => exact ih hlater hk

/-- A symbol that a scope contributes to a look-up. -/
def Contributes (s : Store) (signal : Signal) (id : ScopeId) (found : Finding) : Prop :=
  ∃ scope groups, s.scopes[id]? = some scope ∧ s.groupsOf signal scope = .ok groups ∧
    ∃ g ∈ groups, found ∈ g

/-- **What a scope contributes**: symbols of a scope, declared or imported, members of a type, or
type parameters of its owner. -/
theorem contributes_cases {signal : Signal} {id : ScopeId} {found : Finding}
    (h : s.Contributes signal id found) :
    (∃ scope, ∃ symbol ∈ s.symbolsIn scope, found = { symbol := symbol.id } ∨
        found = { symbol := symbol.id, origin := .imported }) ∨
      (∃ t ms, s.typeMembers signal t = .ok ms ∧ ∃ m ∈ ms,
        found = { symbol := m.symbol.id, via := some m.declaring,
                  origin := if m.inherited then .inherited else .declared }) ∨
      ∃ scope owner, s.scopes[id]? = some scope ∧ scope.kind ≠ .type ∧ scope.kind ≠ .nameSpace ∧
        scope.owner = some owner ∧ ∃ p ∈ s.typeParamsOf owner, found = { symbol := p } := by
  have hdeclared : ∀ {scope : ScopeId} {admits : Symbol → Bool}, found ∈ s.declaredIn scope admits →
      ∃ scope, ∃ symbol ∈ s.symbolsIn scope, found = { symbol := symbol.id } ∨
        found = { symbol := symbol.id, origin := .imported } := by
    intro scope admits hfound
    obtain ⟨symbol, hsymbol, rfl⟩ := List.mem_map.1 hfound
    exact ⟨scope, symbol, (List.mem_filter.1 hsymbol).1, Or.inl rfl⟩
  obtain ⟨scope, groups, hscope, hgroups, g, hg, hfound⟩ := h
  rw [groupsOf] at hgroups
  split at hgroups
  · -- the body of a type lists its type parameters and its members
    obtain ⟨members, hmembers, hgroups⟩ := Answer.bind_eq_ok.1 hgroups
    cases hgroups
    rcases List.mem_cons.1 hg with rfl | hg
    · exact Or.inl (hdeclared hfound)
    · obtain rfl := List.mem_singleton.1 hg
      rw [memberGroup] at hmembers
      split at hmembers
      · cases hmembers
        exact Or.inl (hdeclared hfound)
      · rename_i self _
        obtain ⟨ms, hms, hmembers⟩ := Answer.bind_eq_ok.1 hmembers
        cases hmembers
        obtain ⟨m, hm, rfl⟩ := List.mem_map.1 hfound
        exact Or.inr (Or.inl ⟨self, ms, hms, m, hm, rfl⟩)
  · -- a namespace lists its symbols and the imported types
    cases hgroups
    rcases List.mem_cons.1 hg with rfl | hg
    · exact Or.inl (hdeclared hfound)
    · obtain rfl := List.mem_singleton.1 hg
      obtain ⟨space, -, hfound⟩ := List.mem_flatMap.1 hfound
      rw [importedTypes] at hfound
      split at hfound
      · cases hfound
      · rename_i body _
        obtain ⟨symbol, hsymbol, rfl⟩ := List.mem_map.1 hfound
        exact Or.inl ⟨body.id, symbol, (List.mem_filter.1 hsymbol).1, Or.inr rfl⟩
  · -- any other scope lists its symbols and the type parameters of its owner
    rename_i htype hspace
    cases hgroups
    obtain rfl := List.mem_singleton.1 hg
    rcases List.mem_append.1 hfound with hfound | hfound
    · exact Or.inl (hdeclared hfound)
    · obtain ⟨p, hp, rfl⟩ := List.mem_map.1 hfound
      cases howner : scope.owner with
      | none =>
          rw [howner] at hp
          cases hp
      | some owner =>
          rw [howner] at hp
          exact Or.inr (Or.inr ⟨scope, owner, hscope, htype, hspace, howner, p,
            (List.mem_filter.1 hp).1, rfl⟩)

/-- Every entry on the way is for a symbol that a scope of the way contributes. -/
theorem contributes_of_mem {chain : List ScopeId} {out : List (ScopeId × List (List Entry))}
    (h : s.entriesAlong o f bound chain = .ok out) {e : Entry}
    (he : e ∈ (out.flatMap Prod.snd).flatten) :
    (∃ id ∈ chain, s.Contributes o.signal id e.finding) ∧
      ∃ footing names, s.entryOf o footing names e.finding = .ok e := by
  induction chain generalizing f bound out with
  | nil =>
      cases h
      simp at he
  | cons id chain ih =>
      obtain ⟨scope, groups, entries, later, hscope, hgroups, hentries, hlater, rfl⟩ :=
        entriesAlong_cons_eq_ok.1 h
      rw [List.flatMap_cons, List.flatten_append, List.mem_append] at he
      rcases he with he | he
      · obtain ⟨g, hg, he⟩ := List.mem_flatten.1 he
        refine ⟨⟨id, List.mem_cons_self .., scope, groups, hscope, hgroups,
          g.map Entry.finding, ?_, List.mem_map_of_mem he⟩, _,
          entryOf_of_mem_entriesOf hentries hg he⟩
        rw [← map_finding_of_entriesOf hentries]
        exact List.mem_map_of_mem hg
      · obtain ⟨⟨id', hid', hcontributes⟩, hmade⟩ := ih hlater he
        exact ⟨⟨id', List.mem_cons_of_mem _ hid', hcontributes⟩, hmade⟩

/-- Every symbol that a scope of the way contributes is met. -/
theorem exists_mem_of_contributes {chain : List ScopeId}
    {out : List (ScopeId × List (List Entry))} (h : s.entriesAlong o f bound chain = .ok out)
    {id : ScopeId} (hid : id ∈ chain) {found : Finding}
    (hfound : s.Contributes o.signal id found) :
    ∃ e ∈ (out.flatMap Prod.snd).flatten, e.finding = found := by
  induction chain generalizing f bound out with
  | nil => simp at hid
  | cons id' chain ih =>
      obtain ⟨scope, groups, entries, later, hscope, hgroups, hentries, hlater, rfl⟩ :=
        entriesAlong_cons_eq_ok.1 h
      rw [List.flatMap_cons, List.flatten_append]
      rcases List.mem_cons.1 hid with rfl | hid
      · obtain ⟨scope', groups', hscope', hgroups', g, hg, hfound⟩ := hfound
        rw [hscope] at hscope'
        cases hscope'
        rw [hgroups, ← map_finding_of_entriesOf hentries] at hgroups'
        cases hgroups'
        obtain ⟨es, hes, rfl⟩ := List.mem_map.1 hg
        obtain ⟨e, he, hfinding⟩ := List.mem_map.1 hfound
        exact ⟨e, List.mem_append_left _ (List.mem_flatten.2 ⟨es, hes, he⟩), hfinding⟩
      · obtain ⟨e, he, hfinding⟩ := ih hlater hid
        exact ⟨e, List.mem_append_right _ he, hfinding⟩

/-- A look-up goes through the scopes around the position, from the innermost one outwards, with
nothing bound at first.  Outside every scope there is nothing to go through. -/
theorem lookup_eq_ok_iff {signal : Signal} {options : Options} {position : UInt64}
    {p : Panorama} :
    s.lookup signal options position = .ok p ↔
      signal.check = .ok () ∧ ∃ chain, s.ancestors (s.scopeAt position) = .ok chain ∧
        s.entriesAlong ⟨signal, options, position, ⟨chain.filterMap s.typeAround?⟩⟩ {} [] chain =
          .ok p.groups ∧
        p.scope = s.scopeAt position ∧ p.hasInstance = s.instanceWithin {} (s.scopesOf chain) := by
  rw [lookup, Answer.bind_eq_ok, Unique.exists_iff]
  refine and_congr Iff.rfl ?_
  dsimp only
  -- outside every scope the panorama is empty, and so is the run along no scopes
  split
  · rename_i hstart
    rw [hstart]
    constructor
    · intro h
      cases h
      exact ⟨[], rfl, rfl, rfl, rfl⟩
    · rintro ⟨chain, h, hgroups, hscope, hinstance⟩
      cases h
      obtain ⟨scope, groups, hasInstance⟩ := p
      cases hgroups
      cases hscope
      cases hinstance
      rfl
  · simp only [siteAt, Answer.bind_eq_ok]
    constructor
    · rintro ⟨site, ⟨chain, hchain, hsite⟩, chain', hchain', groups, hgroups, h⟩
      rw [hchain] at hchain'
      cases hchain'
      cases hsite
      cases h
      exact ⟨chain, hchain, hgroups, rfl, rfl⟩
    · rintro ⟨chain, hchain, hgroups, hscope, hinstance⟩
      refine ⟨_, ⟨chain, hchain, rfl⟩, chain, hchain, p.groups, hgroups, ?_⟩
      rw [← hscope, ← scopesOf, ← hinstance]
      rfl

theorem exists_contributes_of_mem_entries {signal : Signal} {options : Options} {position : UInt64}
    {p : Panorama} (h : s.lookup signal options position = .ok p) {e : Entry}
    (he : e ∈ p.entries) : ∃ id, s.Contributes signal id e.finding := by
  obtain ⟨-, chain, -, hgroups, -, -⟩ := lookup_eq_ok_iff.1 h
  rw [Panorama.entries_eq] at he
  obtain ⟨⟨id, -, hcontributes⟩, -⟩ := contributes_of_mem hgroups he
  exact ⟨id, hcontributes⟩

end Store

end Ambit
