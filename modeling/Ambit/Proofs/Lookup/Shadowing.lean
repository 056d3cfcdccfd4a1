/-
Shadowing.

A look-up meets symbols group by group, the groups of inner scopes first.  An entry is shadowed
exactly when an entry of an earlier group has its name and binds it; entries that are themselves
shadowed bind nothing, and neither do those that cannot be named from the place.  Entries of one
group never shadow each other.  It follows that the symbols of a name that can be named all stand in
one group, and that the innermost of them is found.

The invariant of the walk is `Ambit.Store.Layered`: in each group exactly those entries are shadowed
whose names are bound before it.

Main definitions:

* `Ambit.Panorama.levels` — the groups of a panorama one after the other, each with its scope;
* `Ambit.Store.SameName` — two entries have the same name, in the form in which names are compared;
* `Ambit.Store.Layered` — the invariant.

Main results:

* `Ambit.Store.layered_of_entriesAlong` — every run has the invariant;
* `Ambit.Store.lookup_shadowed_iff` — **shadowing, exactly**.
-/

import Ambit.Proofs.Lookup.Walk

set_option relaxedAutoImplicit false
set_option autoImplicit false

namespace Ambit

namespace Panorama

/-- The groups of a panorama one after the other, each with its scope. -/
def levels (p : Panorama) : List (ScopeId × List Entry) :=
  p.groups.flatMap fun (id, groups) => groups.map (id, ·)

theorem map_snd_levels (p : Panorama) : p.levels.map Prod.snd = p.groups.flatMap Prod.snd := by
  rw [levels, List.map_flatMap]
  refine List.flatMap_congr fun level _ => ?_
  rw [List.map_map]
  exact List.map_id _

theorem entries_eq_flatten (p : Panorama) : p.entries = (p.levels.map Prod.snd).flatten := by
  rw [map_snd_levels, entries_eq]

end Panorama

namespace Store

variable {s : Store} {o : Outlook} {f : Footing} {bound : List String}

/-- Two entries have the same name, in the form in which names are compared. -/
def SameName (s : Store) (options : Options) (e e' : Entry) : Prop :=
  ∃ name, s.foldedName? options e = some name ∧ s.foldedName? options e' = some name

/-! ### The invariant -/

/-- In each group exactly those entries are shadowed whose names are bound before it. -/
def Layered (s : Store) (o : Outlook) : List String → List (List Entry) → Prop
  | _, [] => True
  | bound, group :: groups =>
      (∀ e ∈ group, e.verdict = .excluded .shadowed ↔
        ∃ name ∈ bound, s.foldedName? o.options e = some name) ∧
      s.Layered o (group.filterMap (s.boundName? o) ++ bound) groups

theorem layered_append {gs hs : List (List Entry)} :
    s.Layered o bound (gs ++ hs) ↔
      s.Layered o bound gs ∧ s.Layered o (s.boundAfter o bound gs) hs := by
  induction gs generalizing bound with
  | nil => simp [Layered, boundAfter]
  | cons g gs ih => rw [List.cons_append, Layered, Layered, boundAfter, ih, and_assoc]

theorem layered_of_entriesOf {gs : List (List Finding)} {es : List (List Entry)}
    {after : List String} (h : s.entriesOf o f bound gs = .ok (es, after)) :
    s.Layered o bound es := by
  induction gs generalizing bound es with
  | nil =>
      cases h
      exact trivial
  | cons g gs ih =>
      obtain ⟨first, later, hfirst, hlater, rfl⟩ := entriesOf_cons_eq_ok.1 h
      refine ⟨fun e he => ?_, ih hlater⟩
      exact entryOf_shadowed_iff (entryOf_of_mem_forall₂ hfirst he)

/-- **Every run has the invariant.** -/
theorem layered_of_entriesAlong {chain : List ScopeId}
    {out : List (ScopeId × List (List Entry))}
    (h : s.entriesAlong o f bound chain = .ok out) :
    s.Layered o bound (out.flatMap Prod.snd) := by
  induction chain generalizing f bound out with
  | nil =>
      cases h
      exact trivial
  | cons id chain ih =>
      obtain ⟨scope, groups, entries, later, -, -, hentries, hlater, rfl⟩ :=
        entriesAlong_cons_eq_ok.1 h
      -- the names after the groups of this scope are those with which the rest of the way starts
      rw [List.flatMap_cons, layered_append]
      exact ⟨layered_of_entriesOf hentries, ih hlater⟩

/-- Under the invariant, and with nothing bound at first, an entry is shadowed exactly when an entry
of an earlier group binds its name. -/
theorem Layered.shadowed_iff {earlier later : List (List Entry)} {group : List Entry}
    (h : s.Layered o [] (earlier ++ group :: later)) {e : Entry} (he : e ∈ group) :
    e.verdict = .excluded .shadowed ↔
      ∃ g ∈ earlier, ∃ e' ∈ g, e'.binds = true ∧ s.SameName o.options e' e := by
  rw [(layered_append.1 h).2.1 e he]
  simp only [mem_boundAfter, boundName?_eq_some, SameName, List.not_mem_nil, false_or]
  constructor
  · rintro ⟨name, ⟨g, hg, e', he', hbinds, hname'⟩, hname⟩
    exact ⟨g, hg, e', he', hbinds, name, hname', hname⟩
  · rintro ⟨g, hg, e', he', hbinds, name, hname', hname⟩
    exact ⟨name, ⟨g, hg, e', he', hbinds, hname'⟩, hname⟩

theorem layered_levels {signal : Signal} {options : Options} {position : UInt64} {p : Panorama}
    (h : s.lookup signal options position = .ok p) :
    ∃ o : Outlook, o.options = options ∧ s.Layered o [] (p.levels.map Prod.snd) := by
  obtain ⟨-, chain, -, hgroups, -, -⟩ := lookup_eq_ok_iff.1 h
  refine ⟨⟨signal, options, position, ⟨chain.filterMap s.typeAround?⟩⟩, rfl, ?_⟩
  rw [Panorama.map_snd_levels]
  exact layered_of_entriesAlong hgroups

/-! ### Shadowing, exactly -/

variable {signal : Signal} {options : Options} {position : UInt64} {p : Panorama}

/-- An entry of a look-up is shadowed exactly when an entry of an earlier level binds its name. -/
theorem shadowed_iff_of_lookup (h : s.lookup signal options position = .ok p)
    {earlier later : List (ScopeId × List Entry)} {level : ScopeId × List Entry}
    (hlevels : p.levels = earlier ++ level :: later) {e : Entry} (he : e ∈ level.2) :
    e.verdict = .excluded .shadowed ↔
      ∃ l ∈ earlier, ∃ e' ∈ l.2, e'.binds = true ∧ s.SameName options e' e := by
  obtain ⟨o, rfl, hlayered⟩ := layered_levels h
  rw [hlevels, List.map_append, List.map_cons] at hlayered
  rw [hlayered.shadowed_iff he]
  simp only [List.mem_map, exists_exists_and_eq_and]

/-- Of two entries of one name that can be named, neither stands on an earlier level. -/
theorem not_lt_of_isVisible (h : s.lookup signal options position = .ok p) {i j : ℕ}
    {level level' : ScopeId × List Entry} (hi : p.levels[i]? = some level)
    (hj : p.levels[j]? = some level') {e e' : Entry} (he : e ∈ level.2) (he' : e' ∈ level'.2)
    (hv : e.isVisible = true) (hv' : e'.isVisible = true) (hname : s.SameName options e e') :
    ¬ i < j := by
  intro hij
  obtain ⟨hj', rfl⟩ := List.getElem?_eq_some_iff.1 hj
  have hsplit := List.take_append_drop j p.levels
  rw [List.drop_eq_getElem_cons hj'] at hsplit
  have hmem : level ∈ p.levels.take j := by
    obtain ⟨hi', rfl⟩ := List.getElem?_eq_some_iff.1 hi
    exact List.mem_take_iff_getElem.2 ⟨i, by omega, rfl⟩
  have hshadowed := (shadowed_iff_of_lookup h hsplit.symm he').2
    ⟨level, hmem, e, he, Entry.binds_of_isVisible hv, hname⟩
  rw [Entry.isVisible_eq_true_iff.1 hv'] at hshadowed
  cases hshadowed

/-- What is looked for by name is an entry that can be named and has the name. -/
theorem findVisible?_eq_find? (p : Panorama) (name : String) :
    p.findVisible? s options name = p.entries.find? fun e =>
      e.isVisible && s.foldedName? options e == some (options.fold name) := by
  rw [Panorama.findVisible?, Panorama.visible, List.find?_filter]
  congr 1
  funext e
  rw [foldedName?, Bool.eq_iff_iff]
  cases s.symbols[e.symbol]? <;> simp

/-- What is found by a name stands on the first level that has an entry of that name that can be
named. -/
theorem exists_level_of_findVisible? {name : String} {e : Entry}
    (h : p.findVisible? s options name = some e) :
    ∃ earlier level later, p.levels = earlier ++ level :: later ∧ e ∈ level.2 ∧
      e.isVisible = true ∧ s.foldedName? options e = some (options.fold name) ∧
      ∀ l ∈ earlier, ∀ e' ∈ l.2, e'.isVisible = true →
        s.foldedName? options e' ≠ some (options.fold name) := by
  rw [findVisible?_eq_find?, Panorama.entries_eq_flatten] at h
  obtain ⟨hfound, before, front, back, after, hlevels, hnone, -⟩ :=
    List.find?_flatten_eq_some_iff.1 h
  obtain ⟨earlier, rest, hsplit, rfl, hrest⟩ := List.map_eq_append_iff.1 hlevels
  obtain ⟨level, later, rfl, hlevel, -⟩ := List.map_eq_cons_iff.1 hrest
  rw [Bool.and_eq_true, beq_iff_eq] at hfound
  refine ⟨earlier, level, later, hsplit, by simp [hlevel], hfound.1, hfound.2, ?_⟩
  intro l hl e' he' hv' hname'
  have hnot := hnone l.2 (List.mem_map_of_mem hl) e' he'
  simp [hv', hname'] at hnot

/-- When nothing is found by a name, no entry of that name can be named. -/
theorem foldedName?_ne_of_findVisible?_eq_none {name : String}
    (h : p.findVisible? s options name = none) :
    ∀ level ∈ p.levels, ∀ e ∈ level.2, e.isVisible = true →
      s.foldedName? options e ≠ some (options.fold name) := by
  intro level hlevel e he hv hname
  rw [findVisible?_eq_find?, Panorama.entries_eq_flatten] at h
  have hnot := List.find?_eq_none.1 h e
    (List.mem_flatten.2 ⟨level.2, List.mem_map_of_mem hlevel, he⟩)
  simp [hv, hname] at hnot

/-- **Shadowing, exactly.**  The groups of a look-up are those of the scopes around the position.
An entry is shadowed exactly when an entry of a strictly earlier group has its name and is neither
shadowed nor inaccessible.  So all entries of a name that can be named stand in one group, and what
is found by the name stands in the first group that has such an entry. -/
theorem lookup_shadowed_iff (h : s.lookup signal options position = .ok p) :
    (∃ chain, s.ancestors (s.scopeAt position) = .ok chain ∧
      List.Forall₂ (fun id level => level.1 = id ∧ ∃ scope, s.scopes[id]? = some scope ∧
        s.groupsOf signal scope = .ok (level.2.map (List.map Entry.finding))) chain p.groups) ∧
    (∀ earlier level later, p.levels = earlier ++ level :: later → ∀ e ∈ level.2,
      (e.verdict = .excluded .shadowed ↔
        ∃ l ∈ earlier, ∃ e' ∈ l.2, s.SameName options e' e ∧
          e'.verdict ≠ .excluded .shadowed ∧ e'.verdict ≠ .excluded .inaccessible)) ∧
    (∀ (i j : ℕ) (level level' : ScopeId × List Entry),
      p.levels[i]? = some level → p.levels[j]? = some level' →
      ∀ e ∈ level.2, ∀ e' ∈ level'.2, e.isVisible = true → e'.isVisible = true →
        s.SameName options e e' → i = j) ∧
    (∀ name, match p.findVisible? s options name with
      | some e => ∃ earlier level later, p.levels = earlier ++ level :: later ∧ e ∈ level.2 ∧
          e.isVisible = true ∧ s.foldedName? options e = some (options.fold name) ∧
          ∀ l ∈ earlier, ∀ e' ∈ l.2, e'.isVisible = true →
            s.foldedName? options e' ≠ some (options.fold name)
      | none => ∀ level ∈ p.levels, ∀ e ∈ level.2, e.isVisible = true →
          s.foldedName? options e ≠ some (options.fold name)) := by
  refine ⟨?_, ?_, ?_, ?_⟩
  · obtain ⟨-, chain, hchain, hgroups, -, -⟩ := lookup_eq_ok_iff.1 h
    exact ⟨chain, hchain, entriesAlong_groupsOf hgroups⟩
  · intro earlier level later hlevels e he
    simp only [shadowed_iff_of_lookup h hlevels he, Entry.binds_eq_true_iff, and_comm]
  · intro i j level level' hi hj e he e' he' hv hv' hname
    -- neither group comes before the other: the earlier entry would shadow the later one
    have hij := not_lt_of_isVisible h hi hj he he' hv hv' hname
    obtain ⟨key, hkey, hkey'⟩ := hname
    have hji := not_lt_of_isVisible h hj hi he' he hv' hv ⟨key, hkey', hkey⟩
    omega
  · intro name
    split
    · rename_i e he
      exact exists_level_of_findVisible? he
    · rename_i he
      exact foldedName?_ne_of_findVisible?_eq_none he

/-- A type with two fields, around a method whose parameter has the name of the first. -/
def overlap : Store :=
  empty.insertScope { id := ⟨0⟩, kind := .nameSpace, span := ⟨0, 60⟩ }
    |>.insertScope { id := ⟨1⟩, kind := .type, span := ⟨10, 50⟩, parent := some ⟨0⟩ }
    |>.insertScope { id := ⟨2⟩, kind := .method, span := ⟨20, 40⟩, parent := some ⟨1⟩ }
    |>.insertSymbol { id := ⟨0⟩, kind := .field, name := "x", scope := ⟨1⟩ }
    |>.insertSymbol { id := ⟨1⟩, kind := .field, name := "y", scope := ⟨1⟩ }
    |>.insertSymbol { id := ⟨2⟩, kind := .parameter, name := "x", scope := ⟨2⟩ }

def overlapView : Panorama where
  scope := ⟨2⟩
  groups := [
    (⟨2⟩, [[⟨⟨2⟩, none, .applicable, .declared⟩]]),
    (⟨1⟩, [[], [⟨⟨0⟩, none, .excluded .shadowed, .declared⟩, ⟨⟨1⟩, none, .applicable, .declared⟩]]),
    (⟨0⟩, [[], []])]
  hasInstance := true

/-- The field that has the parameter's name is shadowed, and an entry of an earlier group is the
reason. -/
theorem lookup_shadowed_iff_overlap :
    overlap.lookup .quiet {} 30 = .ok overlapView ∧
      ∃ l ∈ overlapView.levels.take 2, ∃ e' ∈ l.2,
        overlap.SameName {} e' ⟨⟨0⟩, none, .excluded .shadowed, .declared⟩ ∧
          e'.verdict ≠ .excluded .shadowed ∧ e'.verdict ≠ .excluded .inaccessible := by
  have h : overlap.lookup .quiet {} 30 = .ok overlapView := rfl
  refine ⟨h, ?_⟩
  exact ((lookup_shadowed_iff h).2.1 (overlapView.levels.take 2) _ _ rfl _
    (List.mem_cons_self ..)).1 rfl

end Store

end Ambit
