/-
Symbols that a look-up meets again.

A look-up can meet a symbol several times: a type comes up in its own namespace, and again in each
scope that imports it.  Where a symbol is met again on a later level it cannot be named, because it
was bound before, or shadowed, or is out of reach.  On one level all entries of a symbol carry the
same verdict.  So the symbols that can be named are repeated only inside a level, and of all groups
that a scope contributes only its imported types can repeat a symbol: a namespace that is imported
several times brings its types in as often.

Main definitions:

* `Ambit.Store.Brings` — a scope brings a symbol in that can be named, through one of its imports.

Main results:

* `Ambit.Store.exists_level_iff` — the levels of a look-up are the groups of the scopes around the
  position;
* `Ambit.Store.not_isVisible_of_earlier`, `Ambit.Store.isVisible_of_same_level`,
  `Ambit.Store.pairwise_entries` — a look-up that meets a symbol again has nothing to add to it;
* `Ambit.Store.Built.group_cases` — only imported types are repeated in a group;
* `Ambit.Store.count_visible` — a symbol is repeated on one level;
* `Ambit.Store.Built.count_visibleSymbols` — **how often a symbol is listed**;
* `Ambit.Store.visibleSymbols_repeats` — a list that is not free of repetitions.
-/

import Ambit.Proofs.Lookup.Footing
import Ambit.Proofs.Lookup.Shadowing
import Ambit.Proofs.Member
import Ambit.Proofs.Store.Identity
import Ambit.Proofs.Store.TypeParams

set_option relaxedAutoImplicit false
set_option autoImplicit false

namespace Ambit.Store

variable {s : Store} {signal : Signal} {options : Options} {position : UInt64} {p : Panorama}
  {earlier later : List (ScopeId × List Entry)} {level : ScopeId × List Entry} {e e' : Entry}

/-! ### Levels -/

/-- Every scope on the way is there, and the entries that it has are those of its groups. -/
theorem groupsOf_of_mem_entriesAlong {o : Outlook} {f : Footing} {bound : List String}
    {chain : List ScopeId} {out : List (ScopeId × List (List Entry))}
    (h : s.entriesAlong o f bound chain = .ok out) {l : ScopeId × List (List Entry)}
    (hl : l ∈ out) : ∃ scope, s.scopes[l.1]? = some scope ∧
      s.groupsOf o.signal scope = .ok (l.2.map (List.map Entry.finding)) := by
  have hall := entriesAlong_groupsOf h
  clear h
  induction hall with
  | nil => cases hl
  | cons hfirst _ ih =>
      rcases List.mem_cons.1 hl with rfl | hl
      · obtain ⟨rfl, scope, hscope⟩ := hfirst
        exact ⟨scope, hscope⟩
      · exact ih hl

/-- **The levels of a look-up are the groups of the scopes around the position.** -/
theorem exists_level_iff (h : s.lookup signal options position = .ok p) :
    ∃ chain, s.ancestors (s.scopeAt position) = .ok chain ∧ ∀ id g,
      (∃ level ∈ p.levels, level.1 = id ∧ level.2.map Entry.finding = g) ↔
        id ∈ chain ∧ ∃ scope groups, s.scopes[id]? = some scope ∧
          s.groupsOf signal scope = .ok groups ∧ g ∈ groups := by
  obtain ⟨-, chain, hchain, hgroups, -, -⟩ := lookup_eq_ok_iff.1 h
  refine ⟨chain, hchain, fun id g => ?_⟩
  rw [← map_fst_of_entriesAlong hgroups]
  constructor
  · rintro ⟨level, hlevel, rfl, rfl⟩
    obtain ⟨l, hl, hmap⟩ := List.mem_flatMap.1 hlevel
    obtain ⟨group, hgroup, rfl⟩ := List.mem_map.1 hmap
    obtain ⟨scope, hscope, hof⟩ := groupsOf_of_mem_entriesAlong hgroups hl
    exact ⟨List.mem_map_of_mem hl, scope, _, hscope, hof, List.mem_map_of_mem hgroup⟩
  · rintro ⟨hid, scope, groups, hscope, hof, hg⟩
    obtain ⟨l, hl, rfl⟩ := List.mem_map.1 hid
    obtain ⟨scope', hscope', hof'⟩ := groupsOf_of_mem_entriesAlong hgroups hl
    rw [hscope] at hscope'
    cases hscope'
    rw [hof] at hof'
    cases hof'
    obtain ⟨group, hgroup, rfl⟩ := List.mem_map.1 hg
    exact ⟨(l.1, group), List.mem_flatMap.2 ⟨l, hl, List.mem_map_of_mem hgroup⟩, rfl, rfl⟩

/-! ### Symbols that are met again -/

/-- Every entry is for a symbol that is there, and unless it is shadowed it carries the verdict on
that symbol on some footing. -/
theorem exists_scopingVerdict_of_lookup (h : s.lookup signal options position = .ok p) :
    ∃ o : Outlook, ∀ e ∈ p.entries, ∃ symbol, s.symbols[e.symbol]? = some symbol ∧
      (e.verdict = .excluded .shadowed ∨ ∃ f, s.scopingVerdict o f symbol = .ok e.verdict) := by
  obtain ⟨-, chain, -, hgroups, -, -⟩ := lookup_eq_ok_iff.1 h
  refine ⟨⟨signal, options, position, ⟨chain.filterMap s.typeAround?⟩⟩, fun e he => ?_⟩
  rw [Panorama.entries_eq] at he
  obtain ⟨-, f, names, hmade⟩ := contributes_of_mem hgroups he
  obtain ⟨-, symbol, hstored, hcases⟩ := entryOf_eq_ok_iff.1 hmade
  exact ⟨symbol, hstored, hcases.imp And.right fun hverdict => ⟨f, hverdict.2⟩⟩

theorem sameName_of_lookup (h : s.lookup signal options position = .ok p) (he : e ∈ p.entries)
    (hsymbol : e.symbol = e'.symbol) : s.SameName options e e' := by
  obtain ⟨o, hentries⟩ := exists_scopingVerdict_of_lookup h
  obtain ⟨symbol, hstored, -⟩ := hentries e he
  refine ⟨options.fold symbol.name, ?_, ?_⟩
  · rw [foldedName?, hstored]
    rfl
  · rw [foldedName?, ← hsymbol, hstored]
    rfl

/-- An entry that is out of reach is out of reach wherever its symbol is met. -/
theorem not_isVisible_of_inaccessible (h : s.lookup signal options position = .ok p)
    (he : e ∈ p.entries) (he' : e' ∈ p.entries) (hsymbol : e.symbol = e'.symbol)
    (hv : e.verdict = .excluded .inaccessible) : e'.isVisible = false := by
  obtain ⟨o, hentries⟩ := exists_scopingVerdict_of_lookup h
  obtain ⟨symbol, hstored, hcases⟩ := hentries e he
  obtain ⟨symbol', hstored', hcases'⟩ := hentries e' he'
  rw [← hsymbol, hstored] at hstored'
  cases hstored'
  rw [Bool.eq_false_iff, ne_eq, Entry.isVisible_eq_true_iff]
  rw [hv] at hcases
  rcases hcases with hshadowed | ⟨f, hverdict⟩
  · cases hshadowed
  · -- access is asked of members only, and does not depend on the footing
    have hmember := isMember_of_scopingVerdict hverdict
    rw [scopingVerdict_of_isMember hmember] at hverdict
    obtain ⟨reached, hreached, hverdict⟩ := memberVerdict_eq_ok_iff.1 hverdict
    have hnot : reached ≠ true := by
      rintro rfl
      rw [if_pos rfl, Verdict.requiring] at hverdict
      split at hverdict <;> cases hverdict
    rcases hcases' with hshadowed | ⟨f', hverdict'⟩
    · rw [hshadowed]
      simp
    · rw [scopingVerdict_of_isMember hmember] at hverdict'
      obtain ⟨reached', hreached', hverdict'⟩ := memberVerdict_eq_ok_iff.1 hverdict'
      rw [hreached] at hreached'
      cases hreached'
      rw [hverdict', if_neg hnot]
      simp

theorem mem_entries_of_mem_level {l : ScopeId × List Entry} (hl : l ∈ p.levels) (he : e ∈ l.2) :
    e ∈ p.entries := by
  rw [Panorama.entries_eq_flatten]
  exact List.mem_flatten.2 ⟨l.2, List.mem_map_of_mem hl, he⟩

/-- A symbol that was met on an earlier level cannot be named where it is met again: it was bound
there, or shadowed, or is out of reach. -/
theorem not_isVisible_of_earlier (h : s.lookup signal options position = .ok p)
    (hlevels : p.levels = earlier ++ level :: later) {l : ScopeId × List Entry}
    (hl : l ∈ earlier) (he : e ∈ l.2) (he' : e' ∈ level.2) (hsymbol : e.symbol = e'.symbol) :
    e'.isVisible = false := by
  have hmem : e ∈ p.entries :=
    mem_entries_of_mem_level (by rw [hlevels]; exact List.mem_append_left _ hl) he
  have hmem' : e' ∈ p.entries :=
    mem_entries_of_mem_level (by rw [hlevels]; exact List.mem_append_cons_self) he'
  have hname := sameName_of_lookup h hmem hsymbol
  by_cases hreach : e.verdict = .excluded .inaccessible
  · exact not_isVisible_of_inaccessible h hmem hmem' hsymbol hreach
  · have hshadowed : e'.verdict = .excluded .shadowed := by
      rw [shadowed_iff_of_lookup h hlevels he']
      by_cases hv : e.verdict = .excluded .shadowed
      · -- what shadows the earlier entry comes earlier still
        obtain ⟨front, back, rfl⟩ := List.append_of_mem hl
        rw [List.append_assoc, List.cons_append] at hlevels
        obtain ⟨l₀, hl₀, e₀, he₀, hbinds, name, hname₀, hname₁⟩ :=
          (shadowed_iff_of_lookup h hlevels he).1 hv
        obtain ⟨name', hname₂, hname'⟩ := hname
        rw [hname₁] at hname₂
        cases hname₂
        exact ⟨l₀, List.mem_append_left _ hl₀, e₀, he₀, hbinds, name, hname₀, hname'⟩
      · exact ⟨l, hl, e, he, Entry.binds_eq_true_iff.2 ⟨hv, hreach⟩, hname⟩
    rw [Bool.eq_false_iff, ne_eq, Entry.isVisible_eq_true_iff, hshadowed]
    simp

/-- Entries of one level for one symbol carry the same verdict. -/
theorem isVisible_of_same_level (h : s.lookup signal options position = .ok p)
    (hlevels : p.levels = earlier ++ level :: later) (he : e ∈ level.2) (he' : e' ∈ level.2)
    (hsymbol : e.symbol = e'.symbol) (hv : e'.isVisible = true) : e.isVisible = true := by
  obtain ⟨-, chain, -, hgroups, -, -⟩ := lookup_eq_ok_iff.1 h
  have hlevel : level ∈ p.levels := by
    rw [hlevels]
    exact List.mem_append_cons_self
  obtain ⟨k, hfrom⟩ : ∃ k, ∀ e ∈ level.2, e ∈ p.entriesFrom k := by
    obtain ⟨⟨id, groups⟩, hscope, hmap⟩ := List.mem_flatMap.1 hlevel
    obtain ⟨k, hk⟩ := List.mem_iff_getElem?.1 hscope
    obtain ⟨group, hgroup, rfl⟩ := List.mem_map.1 hmap
    refine ⟨k, fun e he => ?_⟩
    rw [Panorama.entriesFrom, hk]
    exact List.mem_flatten.2 ⟨group, hgroup, he⟩
  rw [Entry.isVisible_eq_true_iff] at hv ⊢
  have hv' : e'.verdict ≠ .excluded .shadowed := by
    rw [hv]
    simp
  have hshadowed : e.verdict ≠ .excluded .shadowed := by
    rw [ne_eq, shadowed_iff_of_lookup h hlevels he]
    rintro ⟨l, hl, e₀, he₀, hbinds, name, hname₀, hname⟩
    refine hv' ((shadowed_iff_of_lookup h hlevels he').2 ⟨l, hl, e₀, he₀, hbinds, name, hname₀, ?_⟩)
    rw [foldedName?, ← hsymbol]
    exact hname
  obtain ⟨scope, hscope, symbol, hstored, hverdict⟩ :=
    scopingVerdict_of_mem_entriesFrom hgroups (hfrom e he) hshadowed
  obtain ⟨scope', hscope', symbol', hstored', hverdict'⟩ :=
    scopingVerdict_of_mem_entriesFrom hgroups (hfrom e' he') hv'
  rw [hscope] at hscope'
  cases hscope'
  rw [← hsymbol, hstored] at hstored'
  cases hstored'
  rw [hverdict] at hverdict'
  exact (Except.ok.inj hverdict').trans hv

/-- **A look-up that meets a symbol again has nothing to add to it**: where the symbol can be named,
it could be named before. -/
theorem pairwise_entries (h : s.lookup signal options position = .ok p) :
    p.entries.Pairwise fun e e' =>
      e.symbol = e'.symbol → e'.isVisible = true → e.isVisible = true := by
  rw [Panorama.entries_eq_flatten, List.pairwise_flatten, List.pairwise_map]
  constructor
  · intro group hgroup
    obtain ⟨level, hlevel, rfl⟩ := List.mem_map.1 hgroup
    obtain ⟨earlier, later, hlevels⟩ := List.append_of_mem hlevel
    exact List.pairwise_of_forall_mem_list fun e he e' he' hsymbol hv =>
      isVisible_of_same_level h hlevels he he' hsymbol hv
  · refine List.pairwise_iff_getElem.2 fun i j hi hj hij e he e' he' hsymbol hv => ?_
    have hsplit := List.take_append_drop j p.levels
    rw [List.drop_eq_getElem_cons hj] at hsplit
    have hmem : p.levels[i] ∈ p.levels.take j := List.mem_take_iff_getElem.2 ⟨i, by omega, rfl⟩
    rw [not_isVisible_of_earlier h hsplit.symm hmem he he' hsymbol] at hv
    cases hv

/-- **A symbol is repeated on one level**: where it can be named, it is listed as often as it is met
there. -/
theorem count_visible (h : s.lookup signal options position = .ok p)
    (hlevels : p.levels = earlier ++ level :: later) (he : e ∈ level.2)
    (hv : e.isVisible = true) :
    (p.visible.map Entry.symbol).count e.symbol = (level.2.map Entry.symbol).count e.symbol := by
  have hearlier : e.symbol ∉
      (((earlier.map Prod.snd).flatten.filter Entry.isVisible).map Entry.symbol) := by
    intro hmem
    obtain ⟨e₀, he₀, hsymbol⟩ := List.mem_map.1 hmem
    obtain ⟨group, hgroup, he₀⟩ := List.mem_flatten.1 (List.mem_filter.1 he₀).1
    obtain ⟨l, hl, rfl⟩ := List.mem_map.1 hgroup
    rw [not_isVisible_of_earlier h hlevels hl he₀ he hsymbol] at hv
    cases hv
  have hlater : e.symbol ∉
      (((later.map Prod.snd).flatten.filter Entry.isVisible).map Entry.symbol) := by
    intro hmem
    obtain ⟨e₁, hfiltered, hsymbol⟩ := List.mem_map.1 hmem
    obtain ⟨hflat, hv₁⟩ := List.mem_filter.1 hfiltered
    obtain ⟨group, hgroup, he₁⟩ := List.mem_flatten.1 hflat
    obtain ⟨l, hl, rfl⟩ := List.mem_map.1 hgroup
    -- seen from the later level, this level is an earlier one
    obtain ⟨front, back, rfl⟩ := List.append_of_mem hl
    have hlevels' : p.levels = (earlier ++ level :: front) ++ l :: back := by
      rw [hlevels, List.append_assoc, List.cons_append]
    rw [not_isVisible_of_earlier h hlevels' List.mem_append_cons_self he he₁ hsymbol.symm] at hv₁
    cases hv₁
  have hlevel : ((level.2.filter Entry.isVisible).map Entry.symbol).count e.symbol =
      (level.2.map Entry.symbol).count e.symbol := by
    simp only [List.count, List.countP_map, List.countP_filter]
    refine List.countP_congr fun e' he' => ?_
    simp only [Function.comp_apply, Bool.and_eq_true, beq_iff_eq, and_iff_left_iff_imp]
    intro hsymbol
    exact isVisible_of_same_level h hlevels he' he hsymbol hv
  rw [Panorama.visible, Panorama.entries_eq_flatten, hlevels, List.map_append, List.map_cons,
    List.flatten_append, List.flatten_cons, List.filter_append, List.filter_append,
    List.map_append, List.map_append, List.count_append, List.count_append, hlevel,
    List.count_eq_zero.2 hearlier, List.count_eq_zero.2 hlater, Nat.zero_add, Nat.add_zero]

/-! ### Groups with and without repetitions -/

theorem Built.nodup_typeParamsOf (hs : s.Built) (owner : SymbolId) :
    (s.typeParamsOf owner).Nodup := by
  induction hs with
  | empty => simp [typeParamsOf, Store.empty]
  | insertTypeParam param _ ih => exact nodup_insertTypeParam ih param
  | insertSymbol symbol _ ih =>
      rw [typeParamsOf, paramLists_insertSymbol]
      exact ih
  | insertScope scope _ ih =>
      rw [typeParamsOf, paramLists_insertScope]
      exact ih
  | drawSymbol _ ih | drawScope _ ih | insertType _ _ ih | insertSignature _ _ ih
  | insertInterception _ _ ih | register _ _ _ ih | setVersion _ _ ih => exact ih

namespace Indexed

variable (hs : s.Indexed)
include hs

theorem nodup_declaredIn (scope : ScopeId) (admits : Symbol → Bool) :
    ((s.declaredIn scope admits).map Finding.symbol).Nodup := by
  rw [declaredIn, List.map_map]
  exact List.pairwise_map.2 ((hs.pairwise_ne_symbolsIn scope).filter admits)

theorem nodup_importedTypes (nameSpace : SymbolId) :
    ((s.importedTypes nameSpace).map Finding.symbol).Nodup := by
  rw [importedTypes]
  split
  · exact .nil
  · rw [List.map_map]
    exact List.pairwise_map.2 ((hs.pairwise_ne_symbolsIn _).filter _)

theorem nodup_memberGroup {scope : Scope} {g : List Finding}
    (h : s.memberGroup signal scope = .ok g) : (g.map Finding.symbol).Nodup := by
  rw [memberGroup] at h
  split at h
  · cases h
    exact hs.nodup_declaredIn _ _
  · obtain ⟨ms, hms, h⟩ := Answer.bind_eq_ok.1 h
    cases h
    rw [List.map_map]
    exact List.pairwise_map.2 (hs.pairwise_typeMembers hms)

end Indexed

theorem Built.nodup_ownGroup (hs : s.Built) (scope : Scope) :
    ((s.ownGroup scope).map Finding.symbol).Nodup := by
  have hdeclared := hs.indexed.nodup_declaredIn scope.id fun _ => true
  rw [ownGroup, List.map_append, List.map_map]
  cases scope.owner with
  | none => simpa using hdeclared
  | some owner =>
      refine List.nodup_append.2 ⟨hdeclared, ?_, ?_⟩
      · exact List.pairwise_map.2 ((hs.nodup_typeParamsOf owner).filter _)
      · rintro a ha b hb rfl
        obtain ⟨found, hfound, rfl⟩ := List.mem_map.1 ha
        obtain ⟨param, hparam, hsame⟩ := List.mem_map.1 hb
        have hnot := (List.mem_filter.1 hparam).2
        simp only [Bool.not_eq_true', List.any_eq_false, beq_iff_eq] at hnot
        exact hnot found hfound hsame.symm

/-- **Only imported types are repeated in a group.** -/
theorem Built.group_cases (hs : s.Built) {scope : Scope} {groups : List (List Finding)}
    {g : List Finding} (hgroups : s.groupsOf signal scope = .ok groups) (hg : g ∈ groups) :
    ((g.map Finding.symbol).Nodup ∧ ∀ found ∈ g, found.origin ≠ .imported) ∨
      (scope.kind = .nameSpace ∧ g = scope.imports.flatMap s.importedTypes) := by
  have hdeclared : ∀ admits, ∀ found ∈ s.declaredIn scope.id admits,
      found.origin ≠ .imported := by
    intro admits found hfound
    obtain ⟨symbol, -, rfl⟩ := List.mem_map.1 hfound
    simp
  rw [groupsOf] at hgroups
  split at hgroups
  · -- the body of a type
    obtain ⟨members, hmembers, hgroups⟩ := Answer.bind_eq_ok.1 hgroups
    cases hgroups
    rcases List.mem_cons.1 hg with rfl | hg
    · exact Or.inl ⟨hs.indexed.nodup_declaredIn _ _, hdeclared _⟩
    · obtain rfl := List.mem_singleton.1 hg
      refine Or.inl ⟨hs.indexed.nodup_memberGroup hmembers, ?_⟩
      rw [memberGroup] at hmembers
      split at hmembers
      · cases hmembers
        exact hdeclared _
      · obtain ⟨ms, -, hmembers⟩ := Answer.bind_eq_ok.1 hmembers
        cases hmembers
        intro found hfound
        obtain ⟨m, -, rfl⟩ := List.mem_map.1 hfound
        dsimp only
        split <;> simp
  · -- a namespace
    rename_i hkind
    cases hgroups
    rcases List.mem_cons.1 hg with rfl | hg
    · exact Or.inl ⟨hs.indexed.nodup_declaredIn _ _, hdeclared _⟩
    · exact Or.inr ⟨hkind, List.mem_singleton.1 hg⟩
  · -- any other scope
    cases hgroups
    obtain rfl := List.mem_singleton.1 hg
    refine Or.inl ⟨hs.nodup_ownGroup scope, ?_⟩
    intro found hfound
    rw [ownGroup] at hfound
    rcases List.mem_append.1 hfound with hfound | hfound
    · exact hdeclared _ found hfound
    · obtain ⟨param, -, rfl⟩ := List.mem_map.1 hfound
      simp

/-- What an imported namespace brings in. -/
theorem mem_importedTypes {nameSpace : SymbolId} {found : Finding} :
    found ∈ s.importedTypes nameSpace ↔
      ∃ body, s.body? nameSpace = some body ∧ ∃ symbol ∈ s.symbolsIn body.id,
        symbol.kind = .type ∧ found = { symbol := symbol.id, origin := .imported } := by
  rw [importedTypes]
  cases s.body? nameSpace with
  | none => simp
  | some body =>
      simp only [List.mem_map, List.mem_filter, beq_iff_eq, Option.some.injEq, exists_eq_left']
      refine exists_congr fun symbol => ?_
      rw [and_assoc, eq_comm (b := found)]

theorem liesIn_of_mem_importedTypes {nameSpace : SymbolId} {found : Finding}
    (h : found ∈ s.importedTypes nameSpace) : s.LiesIn found.symbol nameSpace := by
  obtain ⟨body, hbody, symbol, hin, -, rfl⟩ := mem_importedTypes.1 h
  exact ⟨body, hbody, symbol, hin, rfl⟩

/-- **A type is brought in as often as its namespace is imported.** -/
theorem Built.count_importedTypes (hs : s.Built) {nameSpace : SymbolId} {found : Finding}
    (hfound : found ∈ s.importedTypes nameSpace) (imports : List SymbolId) :
    ((imports.flatMap s.importedTypes).map Finding.symbol).count found.symbol =
      imports.count nameSpace := by
  have hone : ∀ other, ((s.importedTypes other).map Finding.symbol).count found.symbol =
      if other = nameSpace then 1 else 0 := by
    intro other
    split
    · rename_i heq
      subst heq
      exact List.count_eq_one_of_mem (hs.indexed.nodup_importedTypes other)
        (List.mem_map_of_mem hfound)
    · rename_i hne
      refine List.count_eq_zero.2 fun hmem => ?_
      obtain ⟨found', hfound', hsymbol⟩ := List.mem_map.1 hmem
      have hother := liesIn_of_mem_importedTypes hfound'
      rw [hsymbol] at hother
      exact hne (hs.eq_of_liesIn hother (liesIn_of_mem_importedTypes hfound))
  induction imports with
  | nil => rfl
  | cons other imports ih =>
      rw [List.flatMap_cons, List.map_append, List.count_append, ih, hone, List.count_cons,
        Nat.add_comm]
      simp only [beq_iff_eq]

/-! ### The symbols that can be named -/

/-- A scope around the position brings a symbol in that can be named, through one of its imports. -/
def Brings (s : Store) (p : Panorama) (scope : Scope) (nameSpace symbol : SymbolId) : Prop :=
  nameSpace ∈ scope.imports ∧ s.LiesIn symbol nameSpace ∧
    ∃ level ∈ p.levels, s.scopes[level.1]? = some scope ∧
      ∃ e ∈ level.2, e.symbol = symbol ∧ e.origin = .imported ∧ e.isVisible = true

/-- A symbol that can be named is listed once, or as often as the scope that brings it in imports
its namespace. -/
theorem Built.count_visible_cases (hs : s.Built) (h : s.lookup signal options position = .ok p)
    (hlevel : level ∈ p.levels) (he : e ∈ level.2) (hv : e.isVisible = true) :
    (e.origin ≠ .imported ∧ (p.visible.map Entry.symbol).count e.symbol = 1) ∨
      ∃ scope nameSpace, s.scopes[level.1]? = some scope ∧ s.Brings p scope nameSpace e.symbol ∧
        (p.visible.map Entry.symbol).count e.symbol = scope.imports.count nameSpace := by
  obtain ⟨earlier, later, hlevels⟩ := List.append_of_mem hlevel
  obtain ⟨chain, -, hiff⟩ := exists_level_iff h
  obtain ⟨-, scope, groups, hscope, hgroups, hg⟩ := (hiff level.1 _).1 ⟨level, hlevel, rfl, rfl⟩
  have hsymbols : (level.2.map Entry.finding).map Finding.symbol = level.2.map Entry.symbol := by
    rw [List.map_map]
    rfl
  rw [count_visible h hlevels he hv]
  rcases hs.group_cases hgroups hg with ⟨hnodup, horigin⟩ | ⟨-, himports⟩
  · rw [hsymbols] at hnodup
    exact Or.inl ⟨horigin _ (List.mem_map_of_mem he),
      List.count_eq_one_of_mem hnodup (List.mem_map_of_mem he)⟩
  · have hfinding : e.finding ∈ scope.imports.flatMap s.importedTypes := by
      rw [← himports]
      exact List.mem_map_of_mem he
    obtain ⟨nameSpace, hmem, hfound⟩ := List.mem_flatMap.1 hfinding
    have hcount := hs.count_importedTypes hfound scope.imports
    rw [← himports, hsymbols] at hcount
    have horigin : e.origin = .imported := by
      obtain ⟨_, _, _, _, _, heq⟩ := mem_importedTypes.1 hfound
      exact congrArg Finding.origin heq
    exact Or.inr ⟨scope, nameSpace, hscope, ⟨hmem, liesIn_of_mem_importedTypes hfound, level,
      hlevel, hscope, e, he, rfl, horigin, hv⟩, hcount⟩

/-- A symbol that a scope brings in is listed as often as the scope imports its namespace. -/
theorem Built.count_of_brings (hs : s.Built) (h : s.lookup signal options position = .ok p)
    {scope : Scope} {nameSpace symbol : SymbolId} (hbrings : s.Brings p scope nameSpace symbol) :
    (p.visible.map Entry.symbol).count symbol = scope.imports.count nameSpace := by
  obtain ⟨-, hlies, level, hlevel, hscope, e, he, rfl, horigin, hv⟩ := hbrings
  rcases hs.count_visible_cases h hlevel he hv with
    ⟨hnot, -⟩ | ⟨scope', other, hscope', hother, hcount⟩
  · exact absurd horigin hnot
  · rw [hscope] at hscope'
    cases hscope'
    rw [hcount, hs.eq_of_liesIn hlies hother.2.1]

theorem mem_map_symbol_visible {id : SymbolId} :
    id ∈ p.visible.map Entry.symbol ↔ ∃ e ∈ p.entries, e.symbol = id ∧ e.isVisible = true := by
  simp only [Panorama.visible, List.mem_map, List.mem_filter, and_assoc, and_comm]

/-- A symbol that no scope brings in is listed once. -/
theorem Built.count_of_not_brings (hs : s.Built) (h : s.lookup signal options position = .ok p)
    {symbol : SymbolId} (hmem : symbol ∈ p.visible.map Entry.symbol)
    (hnone : ∀ scope nameSpace, ¬ s.Brings p scope nameSpace symbol) :
    (p.visible.map Entry.symbol).count symbol = 1 := by
  obtain ⟨e, he, rfl, hv⟩ := mem_map_symbol_visible.1 hmem
  rw [Panorama.entries_eq_flatten] at he
  obtain ⟨group, hgroup, he⟩ := List.mem_flatten.1 he
  obtain ⟨level, hlevel, rfl⟩ := List.mem_map.1 hgroup
  rcases hs.count_visible_cases h hlevel he hv with
    ⟨-, hcount⟩ | ⟨scope, nameSpace, -, hbrings, -⟩
  · exact hcount
  · exact absurd hbrings (hnone scope nameSpace)

/-- Nothing is listed twice exactly when no scope imports a namespace several times that it brings a
symbol in from. -/
theorem Built.nodup_visible_iff (hs : s.Built) (h : s.lookup signal options position = .ok p) :
    (p.visible.map Entry.symbol).Nodup ↔
      ∀ scope nameSpace symbol, s.Brings p scope nameSpace symbol →
        scope.imports.count nameSpace = 1 := by
  constructor
  · intro hnodup scope nameSpace symbol hbrings
    rw [← hs.count_of_brings h hbrings]
    obtain ⟨-, -, level, hlevel, -, e, he, hsymbol, -, hv⟩ := hbrings
    exact List.count_eq_one_of_mem hnodup
      (mem_map_symbol_visible.2 ⟨e, mem_entries_of_mem_level hlevel he, hsymbol, hv⟩)
  · intro hsingle
    refine List.nodup_iff_count_le_one.2 fun symbol => ?_
    by_cases hmem : symbol ∈ p.visible.map Entry.symbol
    · by_cases hbrings : ∃ scope nameSpace, s.Brings p scope nameSpace symbol
      · obtain ⟨scope, nameSpace, hbrings⟩ := hbrings
        rw [hs.count_of_brings h hbrings, hsingle scope nameSpace symbol hbrings]
      · refine (hs.count_of_not_brings h hmem fun scope nameSpace hb => ?_).le
        exact hbrings ⟨scope, nameSpace, hb⟩
    · rw [List.count_eq_zero.2 hmem]
      exact Nat.zero_le 1

/-- The symbols that can be named are those of the entries that can be named, in order. -/
theorem Indexed.visibleSymbols_eq_ok (hs : s.Indexed) {symbols : List Symbol}
    (h : s.visibleSymbols signal options position = .ok symbols) :
    ∃ p, s.lookup signal options position = .ok p ∧
      symbols.map Symbol.id = p.visible.map Entry.symbol ∧
      (symbols.Nodup ↔ (p.visible.map Entry.symbol).Nodup) := by
  obtain ⟨p, hp, h⟩ := Answer.bind_eq_ok.1 h
  cases h
  have hids : (p.visible.filterMap fun e => s.symbols[e.symbol]?).map Symbol.id =
      p.visible.map Entry.symbol := by
    rw [List.map_filterMap, ← List.filterMap_eq_map]
    refine List.filterMap_congr fun e he => ?_
    obtain ⟨o, hentries⟩ := exists_scopingVerdict_of_lookup hp
    obtain ⟨symbol, hstored, -⟩ := hentries e (List.mem_filter.1 he).1
    simp [hstored, hs.symbol_id _ _ hstored]
  refine ⟨p, hp, hids, ?_⟩
  rw [← hids]
  -- a symbol is stored under its number, so the numbers repeat only with the symbols
  refine ⟨List.Nodup.map_on fun a ha b hb hid => ?_, List.Nodup.of_map _⟩
  obtain ⟨e, -, ha⟩ := List.mem_filterMap.1 ha
  obtain ⟨e', -, hb⟩ := List.mem_filterMap.1 hb
  rw [hs.symbol_id _ _ ha, hs.symbol_id _ _ hb] at hid
  rw [hid, hb] at ha
  exact (Option.some.inj ha).symm

/-- **How often a symbol is listed.**  The symbols that can be named are those of the entries that
can be named.  One that a scope around the position brings in is listed as often as the scope
imports its namespace, and every other one is listed once.  So nothing is listed twice exactly when
no scope imports a namespace several times that it brings a symbol in from. -/
theorem Built.count_visibleSymbols (hs : s.Built) {symbols : List Symbol}
    (h : s.visibleSymbols signal options position = .ok symbols) :
    ∃ p, s.lookup signal options position = .ok p ∧
      (∀ id, id ∈ symbols.map Symbol.id ↔
        ∃ e ∈ p.entries, e.symbol = id ∧ e.isVisible = true) ∧
      (∀ scope nameSpace id, s.Brings p scope nameSpace id →
        (symbols.map Symbol.id).count id = scope.imports.count nameSpace) ∧
      (∀ id ∈ symbols.map Symbol.id, (∀ scope nameSpace, ¬ s.Brings p scope nameSpace id) →
        (symbols.map Symbol.id).count id = 1) ∧
      (symbols.Nodup ↔
        ∀ scope nameSpace id, s.Brings p scope nameSpace id →
          scope.imports.count nameSpace = 1) := by
  obtain ⟨p, hp, hids, hnodup⟩ := hs.indexed.visibleSymbols_eq_ok h
  rw [hids, hnodup]
  refine ⟨p, hp, fun id => mem_map_symbol_visible, ?_, ?_, hs.nodup_visible_iff hp⟩
  · intro scope nameSpace id hbrings
    exact hs.count_of_brings hp hbrings
  · intro id hid hnone
    exact hs.count_of_not_brings hp hid hnone

/-- A namespace that imports another one twice. -/
def importedTwice : Store :=
  empty.insertScope { id := ⟨0⟩, kind := .nameSpace, span := ⟨0, 90⟩, imports := [⟨0⟩, ⟨0⟩] }
    |>.insertScope { id := ⟨1⟩, kind := .nameSpace, span := ⟨10, 40⟩, parent := some ⟨0⟩,
                     owner := some ⟨0⟩ }
    |>.insertSymbol { id := ⟨0⟩, kind := .nameSpace, name := "N", scope := ⟨0⟩ }
    |>.insertSymbol { id := ⟨1⟩, kind := .type, name := "A", scope := ⟨1⟩ }

def importedTwiceView : Panorama where
  scope := ⟨0⟩
  groups := [
    (⟨0⟩, [[⟨⟨0⟩, none, .applicable, .declared⟩],
      [⟨⟨1⟩, none, .applicable, .imported⟩, ⟨⟨1⟩, none, .applicable, .imported⟩]])]

theorem built_importedTwice : importedTwice.Built :=
  .insertSymbol _ (.insertSymbol _ (.insertScope _ (.insertScope _ .empty)))

/-- The type of the namespace is listed twice, which is how often it is imported. -/
theorem count_visibleSymbols_importedTwice :
    importedTwice.Built ∧ ∃ symbols scope,
      importedTwice.visibleSymbols .quiet {} 50 = .ok symbols ∧
      importedTwice.Brings importedTwiceView scope ⟨0⟩ ⟨1⟩ ∧
      scope.imports.count ⟨0⟩ = 2 ∧ (symbols.map Symbol.id).count ⟨1⟩ = 2 := by
  have hbrings : importedTwice.Brings importedTwiceView
      { id := ⟨0⟩, kind := .nameSpace, span := ⟨0, 90⟩, imports := [⟨0⟩, ⟨0⟩] } ⟨0⟩ ⟨1⟩ := by
    refine ⟨List.mem_cons_self .., ⟨_, rfl, _, List.mem_singleton.2 rfl, rfl⟩, _,
      List.mem_cons_of_mem _ (List.mem_cons_self ..), rfl, _, List.mem_cons_self .., rfl, rfl, rfl⟩
  obtain ⟨symbols, hsymbols⟩ : ∃ symbols,
      importedTwice.visibleSymbols .quiet {} 50 = .ok symbols := ⟨_, rfl⟩
  obtain ⟨p, hp, -, hcount, -, -⟩ := built_importedTwice.count_visibleSymbols hsymbols
  have hview : importedTwice.lookup .quiet {} 50 = .ok importedTwiceView := rfl
  rw [hview] at hp
  cases hp
  exact ⟨built_importedTwice, symbols, _, hsymbols, hbrings, rfl, hcount _ _ _ hbrings⟩

/-- **The symbols that can be named are not free of repetitions.** -/
theorem visibleSymbols_repeats :
    importedTwice.Built ∧ ∃ symbols, importedTwice.visibleSymbols .quiet {} 50 = .ok symbols ∧
      symbols.map Symbol.id = [⟨0⟩, ⟨1⟩, ⟨1⟩] ∧ ¬ symbols.Nodup := by
  refine ⟨built_importedTwice, _, rfl, rfl, fun hnodup => ?_⟩
  exact absurd hnodup (by decide)

end Ambit.Store
