/-
What one more variable shadows.

A look-up is run twice, before and after a new variable is inserted.  Inside the scope of the
variable nothing differs.  In its own scope the variable joins the first group, and from there on
its name is bound in the second run.  An entry of the first run is then made in the second run too,
and only differs when it carries that name: then it is shadowed.  This is carried through the runs
by comparing the names that are bound: in the second run they are those of the first run and the
name of the variable.

Main definitions:

* `Ambit.Store.shade` — an entry when more names are bound before it;
* `Ambit.WidenedBy` — more names are bound in one run than in another.

Main results:

* `Ambit.Store.NewLocal.entryOf_shade`, `Ambit.Store.NewLocal.entriesOf_shade` — one entry, and the
  groups of one scope;
* `Ambit.Store.NewLocal.entriesAlong_shade` — **a run in which more names are bound**;
* `Ambit.Store.NewLocal.entriesOf_join` — the groups of the variable's own scope.
-/

import Ambit.Proofs.Lookup.NewLocal
import Ambit.Proofs.Lookup.Walk

set_option relaxedAutoImplicit false
set_option autoImplicit false

namespace Ambit

/-- The names of the last list are those of the first two. -/
def WidenedBy (bound names wider : List String) : Prop :=
  ∀ name, name ∈ wider ↔ name ∈ bound ∨ name ∈ names

theorem WidenedBy.refl (bound : List String) : WidenedBy bound [] bound := by
  intro name
  simp

namespace Store

open Answer (KeptBy)

variable {s : Store} {options : Options} {names : List String} {e : Entry} {name : String}

/-! ### Shading an entry -/

/-- An entry when more names are bound before it: it is shadowed if its name is one of them. -/
def shade (s : Store) (options : Options) (names : List String) (e : Entry) : Entry :=
  match s.foldedName? options e with
  | some name => if name ∈ names then { e with verdict := .excluded .shadowed } else e
  | none => e

theorem shade_of_mem (h : s.foldedName? options e = some name) (hname : name ∈ names) :
    s.shade options names e = { e with verdict := .excluded .shadowed } := by
  rw [shade, h]
  exact if_pos hname

theorem shade_of_not_mem (h : s.foldedName? options e = some name) (hname : name ∉ names) :
    s.shade options names e = e := by
  rw [shade, h]
  exact if_neg hname

theorem shade_cases (s : Store) (options : Options) (names : List String) (e : Entry) :
    s.shade options names e = e ∨
      s.shade options names e = { e with verdict := .excluded .shadowed } := by
  rw [shade]
  split
  · split
    · exact Or.inr rfl
    · exact Or.inl rfl
  · exact Or.inl rfl

@[simp] theorem shade_nil (e : Entry) : s.shade options [] e = e := by
  rw [shade]
  split <;> simp

theorem map_shade_nil (gs : List (List Entry)) : gs.map (List.map (s.shade options [])) = gs := by
  have hshade : s.shade options [] = id := funext fun e => shade_nil e
  rw [hshade, List.map_id_fun, List.map_id]

@[simp] theorem finding_shade (e : Entry) : (s.shade options names e).finding = e.finding := by
  rcases s.shade_cases options names e with h | h <;> rw [h]
  rfl

theorem shade_eq_of_isVisible (h : (s.shade options names e).isVisible = true) :
    s.shade options names e = e := by
  rcases s.shade_cases options names e with hshade | hshade
  · exact hshade
  · rw [hshade, Entry.isVisible_eq_true_iff] at h
    cases h

namespace NewLocal

variable {v : Symbol} (hv : s.NewLocal v) {o : Outlook} {f : Footing}
  {bound wider : List String}
include hv

/-! ### The footing and the verdicts -/

theorem isStaticFunction : (s.insertSymbol v).isStaticFunction = s.isStaticFunction := by
  funext scope
  rw [Store.isStaticFunction, Store.isStaticFunction]
  cases scope.owner with
  | none => rfl
  | some owner =>
      simp only [Option.bind_some, symbols_insertSymbol]
      by_cases howner : v.id = owner
      · rw [if_pos howner, ← howner, hv.fresh]
        simp only [hv.not_static]
      · rw [if_neg howner]

theorem leave : (s.insertSymbol v).leave = s.leave := by
  funext f scope
  rw [Store.leave, Store.leave, hv.isStaticFunction]

theorem footingAfter (f : Footing) (scopes : List Scope) :
    (s.insertSymbol v).footingAfter f scopes = s.footingAfter f scopes := by
  induction scopes generalizing f with
  | nil => rfl
  | cons scope scopes ih => rw [Store.footingAfter, Store.footingAfter, hv.leave, ih]

theorem foldedName? {e : Entry} {name : String} (h : s.foldedName? options e = some name) :
    (s.insertSymbol v).foldedName? options e = some name := by
  obtain ⟨symbol, hsymbol, rfl⟩ := Option.map_eq_some_iff.1 h
  rw [Store.foldedName?, hv.symbols_of_stored hsymbol]
  rfl

theorem symbol_ne {e : Entry} {name : String} (h : s.foldedName? options e = some name) :
    e.symbol ≠ v.id := by
  intro heq
  rw [Store.foldedName?, heq, hv.fresh] at h
  cases h

/-- The verdict on the variable itself: its name is bound wherever it is not shadowed. -/
theorem scopingVerdict_self (o : Outlook) (f : Footing) :
    ∃ verdict, (s.insertSymbol v).scopingVerdict o f v = .ok verdict ∧
      verdict ≠ .excluded .inaccessible := by
  have hmember : v.kind.isMember = false := by rw [hv.kind]; rfl
  rw [scopingVerdict, hmember]
  split
  · exact ⟨_, rfl, by simp⟩
  · split
    · exact ⟨_, rfl, by simp⟩
    · exact ⟨_, rfl, by simp⟩

variable (hs : s.Indexed)
include hs

theorem scopingVerdict (symbol : Symbol) :
    KeptBy (s.scopingVerdict o f symbol) ((s.insertSymbol v).scopingVerdict o f symbol) := by
  have hmember : KeptBy (s.memberVerdict o f symbol)
      ((s.insertSymbol v).memberVerdict o f symbol) :=
    ((hv.agrees hs).canAccess o.signal o.site symbol).bind fun _ => KeptBy.refl _
  rw [Store.scopingVerdict, Store.scopingVerdict]
  split
  · exact KeptBy.refl _
  · split
    · exact KeptBy.refl _
    · split
      · exact hmember
      · exact KeptBy.refl _

/-! ### Runs in which more names are bound -/

/-- One entry, when more names are bound. -/
theorem entryOf_shade (hwider : WidenedBy bound names wider) {found : Finding} {e : Entry}
    (h : s.entryOf o f bound found = .ok e) :
    (s.insertSymbol v).entryOf o f wider found = .ok (s.shade o.options names e) := by
  obtain ⟨rfl, symbol, hsymbol, hcases⟩ := entryOf_eq_ok_iff.1 h
  have hname : s.foldedName? o.options e = some (o.options.fold symbol.name) := by
    rw [Store.foldedName?, show s.symbols[e.symbol]? = some symbol from hsymbol]
    rfl
  refine entryOf_eq_ok_iff.2 ⟨finding_shade e, symbol, hv.symbols_of_stored hsymbol, ?_⟩
  rw [hwider]
  by_cases hmem : o.options.fold symbol.name ∈ names
  · rw [shade_of_mem hname hmem]
    exact Or.inl ⟨Or.inr hmem, rfl⟩
  · rw [shade_of_not_mem hname hmem]
    rcases hcases with ⟨hbound, hverdict⟩ | ⟨hbound, hverdict⟩
    · exact Or.inl ⟨Or.inl hbound, hverdict⟩
    · exact Or.inr ⟨not_or.2 ⟨hbound, hmem⟩, hv.scopingVerdict hs symbol _ hverdict⟩

omit hs in
/-- After a group, again exactly the additional names are bound besides those of the first run. -/
theorem widenedBy_group (hwider : WidenedBy bound names wider) {es : List Entry}
    (hstored : ∀ e ∈ es, ∃ name, s.foldedName? o.options e = some name) :
    WidenedBy (es.filterMap (s.boundName? o) ++ bound) names
      ((es.map (s.shade o.options names)).filterMap
        ((s.insertSymbol v).boundName? o) ++ wider) := by
  intro name
  simp only [List.mem_append, List.mem_filterMap, List.mem_map, hwider name]
  constructor
  · rintro (⟨_, ⟨e, he, rfl⟩, hbinds⟩ | hbound | hname)
    · obtain ⟨hbinds, hfolded⟩ := boundName?_eq_some.1 hbinds
      obtain ⟨own, hown⟩ := hstored e he
      -- an entry that still binds a name was not shaded
      have hshade : s.shade o.options names e = e := by
        rcases s.shade_cases o.options names e with hshade | hshade
        · exact hshade
        · rw [hshade, Entry.binds_eq_true_iff] at hbinds
          exact absurd rfl hbinds.1
      rw [hshade] at hbinds hfolded
      rw [hv.foldedName? hown] at hfolded
      exact Or.inl (Or.inl ⟨e, he, boundName?_eq_some.2 ⟨hbinds, hown.trans hfolded⟩⟩)
    · exact Or.inl (Or.inr hbound)
    · exact Or.inr hname
  · rintro ((⟨e, he, hbinds⟩ | hbound) | hname)
    · by_cases hname : name ∈ names
      · exact Or.inr (Or.inr hname)
      · obtain ⟨hbinds, hfolded⟩ := boundName?_eq_some.1 hbinds
        refine Or.inl ⟨e, ⟨e, he, shade_of_not_mem hfolded hname⟩, ?_⟩
        exact boundName?_eq_some.2 ⟨hbinds, hv.foldedName? hfolded⟩
    · exact Or.inr (Or.inl hbound)
    · exact Or.inr (Or.inr hname)

/-- The groups of one scope, when more names are bound. -/
theorem entriesOf_shade (hwider : WidenedBy bound names wider) {gs : List (List Finding)}
    {es : List (List Entry)} {after : List String}
    (h : s.entriesOf o f bound gs = .ok (es, after)) :
    ∃ after', (s.insertSymbol v).entriesOf o f wider gs =
        .ok (es.map (List.map (s.shade o.options names)), after') ∧
      WidenedBy after names after' := by
  induction gs generalizing bound wider es with
  | nil =>
      cases h
      exact ⟨wider, rfl, hwider⟩
  | cons g gs ih =>
      obtain ⟨first, later, hfirst, hlater, rfl⟩ := entriesOf_cons_eq_ok.1 h
      obtain ⟨after', hlater', hafter⟩ := ih (hv.widenedBy_group hwider fun _ =>
        exists_foldedName?_of_forall₂ hfirst) hlater
      refine ⟨after', entriesOf_cons_eq_ok.2 ⟨_, _, ?_, hlater', rfl⟩, hafter⟩
      rw [List.forall₂_map_right_iff]
      exact hfirst.imp fun _ _ hmade => hv.entryOf_shade hs hwider hmade

/-- **A run in which more names are bound**, through scopes that contribute what they did before:
the entries that carry one of these names are shadowed, and the others are as before. -/
theorem entriesAlong_shade (hwider : WidenedBy bound names wider) {chain : List ScopeId}
    {out : List (ScopeId × List (List Entry))}
    (hkept : ∀ id ∈ chain, ∀ scope, s.scopes[id]? = some scope →
      KeptBy (s.groupsOf o.signal scope) ((s.insertSymbol v).groupsOf o.signal scope))
    (h : s.entriesAlong o f bound chain = .ok out) :
    ∃ out', (s.insertSymbol v).entriesAlong o f wider chain = .ok out' ∧
      out'.flatMap Prod.snd =
        (out.flatMap Prod.snd).map (List.map (s.shade o.options names)) ∧
      WidenedBy (s.boundAfter o bound (out.flatMap Prod.snd)) names
        ((s.insertSymbol v).boundAfter o wider (out'.flatMap Prod.snd)) := by
  induction chain generalizing f bound wider out with
  | nil =>
      cases h
      exact ⟨[], rfl, rfl, hwider⟩
  | cons id chain ih =>
      obtain ⟨scope, groups, entries, later, hscope, hgroups, hentries, hlater, rfl⟩ :=
        entriesAlong_cons_eq_ok.1 h
      obtain ⟨after', hentries', hafter⟩ := hv.entriesOf_shade hs hwider hentries
      obtain rfl := eq_boundAfter_of_entriesOf hentries'
      obtain ⟨later', hlater', hflat, hbound⟩ :=
        ih hafter (fun id hid => hkept id (List.mem_cons_of_mem _ hid)) hlater
      refine ⟨_, entriesAlong_cons_eq_ok.2 ⟨scope, groups, _, later',
        by rw [scopes_insertSymbol]; exact hscope,
        hkept id (List.mem_cons_self ..) scope hscope groups hgroups, hentries',
        by rw [hv.leave]; exact hlater', rfl⟩, ?_, ?_⟩
      · rw [List.flatMap_cons, List.flatMap_cons, List.map_append, hflat]
      · rw [List.flatMap_cons, List.flatMap_cons, boundAfter_append, boundAfter_append]
        exact hbound

/-! ### The scope of the variable -/

omit hs in
/-- The entry of the variable: after it the name of the variable is bound. -/
theorem entryOf_self (o : Outlook) (f : Footing) (wider : List String) :
    ∃ e, (s.insertSymbol v).entryOf o f wider { symbol := v.id } = .ok e ∧
      (o.options.fold v.name ∈ wider ∨
        (s.insertSymbol v).boundName? o e = some (o.options.fold v.name)) := by
  have hself : (s.insertSymbol v).symbols[v.id]? = some v := by
    rw [symbols_insertSymbol, if_pos rfl]
  obtain ⟨verdict, hverdict, haccess⟩ := hv.scopingVerdict_self o f
  by_cases hname : o.options.fold v.name ∈ wider
  · exact ⟨⟨v.id, none, .excluded .shadowed, .declared⟩,
      entryOf_eq_ok_iff.2 ⟨rfl, v, hself, Or.inl ⟨hname, rfl⟩⟩, Or.inl hname⟩
  · refine ⟨⟨v.id, none, verdict, .declared⟩,
      entryOf_eq_ok_iff.2 ⟨rfl, v, hself, Or.inr ⟨hname, hverdict⟩⟩, Or.inr ?_⟩
    refine boundName?_eq_some.2 ⟨Entry.binds_eq_true_iff.2
      ⟨scopingVerdict_ne_shadowed hverdict, haccess⟩, ?_⟩
    rw [Store.foldedName?, hself]
    rfl

/-- An entry that is made before the variable is inserted is made after it. -/
theorem entryOf_kept (hwider : WidenedBy bound [] wider) {found : Finding} {e : Entry}
    (h : s.entryOf o f bound found = .ok e) :
    (s.insertSymbol v).entryOf o f wider found = .ok e := by
  have hmade := hv.entryOf_shade hs hwider h
  rwa [shade_nil] at hmade

section Join

variable {first first' : List Finding} {own own' : List Entry}
  (hwider : WidenedBy bound [] wider)
  (hjoin : ∀ found, found ∈ first' ↔ found = { symbol := v.id } ∨ found ∈ first)
  (h : List.Forall₂ (fun found e => s.entryOf o f bound found = .ok e) first own)
include hwider hjoin h

theorem exists_join : ∃ own', List.Forall₂
    (fun found e => (s.insertSymbol v).entryOf o f wider found = .ok e) first' own' := by
  simp only [← Answer.mapM_eq_ok]
  refine Answer.exists_mapM_eq_ok fun found hfound => ?_
  rcases (hjoin found).1 hfound with rfl | hfound
  · obtain ⟨self, hself, -⟩ := hv.entryOf_self o f wider
    exact ⟨self, hself⟩
  · rw [← map_finding_of_forall₂ h] at hfound
    obtain ⟨e, he, rfl⟩ := List.mem_map.1 hfound
    exact ⟨e, hv.entryOf_kept hs hwider (entryOf_of_mem_forall₂ h he)⟩

variable (h' : List.Forall₂
  (fun found e => (s.insertSymbol v).entryOf o f wider found = .ok e) first' own')
include h'

theorem mem_join {e : Entry} (hne : e.symbol ≠ v.id) : e ∈ own' ↔ e ∈ own := by
  rw [mem_iff_of_forall₂ h', hjoin, or_iff_right fun heq => hne (congrArg Finding.symbol heq)]
  constructor
  · rintro ⟨hfinding, hmade⟩
    rw [← map_finding_of_forall₂ h] at hfinding
    obtain ⟨e', he', heq⟩ := List.mem_map.1 hfinding
    have hmade' := hv.entryOf_kept hs hwider (entryOf_of_mem_forall₂ h he')
    rw [heq, hmade] at hmade'
    cases hmade'
    exact he'
  · intro he
    obtain ⟨hfinding, hmade⟩ := (mem_iff_of_forall₂ h).1 he
    exact ⟨hfinding, hv.entryOf_kept hs hwider hmade⟩

/-- After the group that the variable joins, its name is bound too. -/
theorem widenedBy_join :
    WidenedBy (own.filterMap (s.boundName? o) ++ bound) [o.options.fold v.name]
      (own'.filterMap ((s.insertSymbol v).boundName? o) ++ wider) := by
  intro name
  simp only [List.mem_append, List.mem_filterMap, List.mem_singleton, hwider name,
    List.not_mem_nil, or_false]
  constructor
  · rintro (⟨e, he, hname⟩ | hbound)
    · obtain ⟨hbinds, hfolded⟩ := boundName?_eq_some.1 hname
      -- the name is bound by the variable itself, or by an entry that was there before
      by_cases heq : e.symbol = v.id
      · rw [Store.foldedName?, heq, symbols_insertSymbol, if_pos rfl] at hfolded
        exact Or.inr (Option.some.inj hfolded).symm
      · rw [hv.mem_join hs hwider hjoin h h' heq] at he
        obtain ⟨known, hknown⟩ := exists_foldedName?_of_forall₂ h he
        rw [hv.foldedName? hknown] at hfolded
        exact Or.inl (Or.inl ⟨e, he, boundName?_eq_some.2 ⟨hbinds, hknown.trans hfolded⟩⟩)
    · exact Or.inl (Or.inr hbound)
  · rintro ((⟨e, he, hname⟩ | hbound) | rfl)
    · obtain ⟨hbinds, hfolded⟩ := boundName?_eq_some.1 hname
      exact Or.inl ⟨e, (hv.mem_join hs hwider hjoin h h' (hv.symbol_ne hfolded)).2 he,
        boundName?_eq_some.2 ⟨hbinds, hv.foldedName? hfolded⟩⟩
    · exact Or.inr hbound
    · -- the variable binds its name unless an inner scope has bound it already
      obtain ⟨self, hself, hbound | hbinds⟩ := hv.entryOf_self o f wider
      · exact Or.inr (((hwider _).1 hbound).resolve_right List.not_mem_nil)
      · refine Or.inl ⟨self, (mem_iff_of_forall₂ h').2 ?_, hbinds⟩
        rw [(entryOf_eq_ok_iff.1 hself).1]
        exact ⟨(hjoin _).2 (Or.inl rfl), hself⟩

end Join

/-- The groups of the variable's own scope: apart from it the first group is as before, and in the
later groups the entries that carry its name are shadowed. -/
theorem entriesOf_join (hwider : WidenedBy bound [] wider) {first first' : List Finding}
    (hjoin : ∀ found, found ∈ first' ↔ found = { symbol := v.id } ∨ found ∈ first)
    {gs : List (List Finding)} {es : List (List Entry)} {after : List String}
    (h : s.entriesOf o f bound (first :: gs) = .ok (es, after)) :
    ∃ own own' later after', es = own :: later ∧
      (s.insertSymbol v).entriesOf o f wider (first' :: gs) =
        .ok (own' :: later.map (List.map (s.shade o.options [o.options.fold v.name])), after') ∧
      (∀ e, e.symbol ≠ v.id → (e ∈ own' ↔ e ∈ own)) ∧
      WidenedBy after [o.options.fold v.name] after' := by
  obtain ⟨own, later, hown, hlater, rfl⟩ := entriesOf_cons_eq_ok.1 h
  obtain ⟨own', hown'⟩ := hv.exists_join hs hwider hjoin hown
  obtain ⟨after', hlater', hafter⟩ :=
    hv.entriesOf_shade hs (hv.widenedBy_join hs hwider hjoin hown hown') hlater
  exact ⟨own, own', later, after', rfl,
    entriesOf_cons_eq_ok.2 ⟨own', _, hown', hlater', rfl⟩,
    fun e => hv.mem_join hs hwider hjoin hown hown', hafter⟩

end NewLocal

end Store

end Ambit
