/-
A look-up before and after a new variable is inserted.

The way outwards from a position is cut at the scope of the variable.  Inside that scope, and in the
group that the variable joins, all other entries are as before.  Behind that group an entry is as
before unless it carries the name of the variable: then it is shadowed.  Where the scope is the body
of a type the variable is not met at all, and nothing changes.

Main results:

* `Ambit.Store.NewLocal.entriesAlong_join` — the way outwards, cut at the scope of the variable;
* `Ambit.Store.NewLocal.lookup_insertSymbol` — **a look-up after a new variable is inserted**.
-/

import Ambit.Proofs.Lookup.Shading
import Ambit.Proofs.Lookup.View

set_option relaxedAutoImplicit false
set_option autoImplicit false

namespace Ambit

namespace Store.NewLocal

open Answer (KeptBy)

variable {s : Store} {v : Symbol} (hv : s.NewLocal v) (hs : s.Indexed) {o : Outlook} {f : Footing}
  {inner outer : List ScopeId} {out : List (ScopeId × List (List Entry))}

include hv hs

/-- Scopes other than the one of the variable contribute what they did before. -/
theorem groupsOf_kept {chain : List ScopeId} (hchain : v.scope ∉ chain) :
    ∀ id ∈ chain, ∀ scope, s.scopes[id]? = some scope →
      KeptBy (s.groupsOf o.signal scope) ((s.insertSymbol v).groupsOf o.signal scope) := by
  intro id hid scope hscope
  refine hv.groupsOf_of_ne hs o.signal fun heq => hchain ?_
  rw [← heq, hs.scope_id id scope hscope]
  exact hid

/-- Where the scope of the variable is the body of a type, every entry is as before. -/
theorem entriesAlong_type {scope : Scope} (hscope : s.scopes[v.scope]? = some scope)
    (htype : scope.kind = .type) {chain : List ScopeId}
    (h : s.entriesAlong o f [] chain = .ok out) :
    ∃ out', (s.insertSymbol v).entriesAlong o f [] chain = .ok out' ∧
      out'.flatMap Prod.snd = out.flatMap Prod.snd := by
  have hkept : ∀ id ∈ chain, ∀ scope, s.scopes[id]? = some scope →
      KeptBy (s.groupsOf o.signal scope) ((s.insertSymbol v).groupsOf o.signal scope) := by
    intro id _ scope' hscope'
    by_cases hid : scope'.id = v.scope
    · rw [← hs.scope_id id scope' hscope', hid, hscope] at hscope'
      cases hscope'
      exact hv.groupsOf_type hs o.signal htype
    · exact hv.groupsOf_of_ne hs o.signal hid
  obtain ⟨out', hout', hflat, -⟩ := hv.entriesAlong_shade hs (.refl []) hkept h
  exact ⟨out', hout', hflat.trans (map_shade_nil _)⟩

/-- **The way outwards, cut at the scope of the variable**: the entries before the cut are as
before, those after it are as before unless they carry the name of the variable, and all of these
are contributed by the scope of the variable and the scopes around it. -/
theorem entriesAlong_join (hinner : v.scope ∉ inner) (houter : v.scope ∉ outer)
    (h : s.entriesAlong o f [] (inner ++ v.scope :: outer) = .ok out) :
    ∃ out' early late,
      (s.insertSymbol v).entriesAlong o f [] (inner ++ v.scope :: outer) = .ok out' ∧
      (out.flatMap Prod.snd).flatten = early ++ late ∧
      (∀ e ∈ late, ∃ id ∈ v.scope :: outer, s.Contributes o.signal id e.finding) ∧
      ∀ e, e.symbol ≠ v.id → (e ∈ (out'.flatMap Prod.snd).flatten ↔
        e ∈ early ∨ e ∈ late.map (s.shade o.options [o.options.fold v.name])) := by
  obtain ⟨before, after, hbefore, hafter, rfl⟩ := entriesAlong_append_eq_ok.1 h
  obtain ⟨scope, groups, entries, later, hscope, hgroups, hentries, hlater, rfl⟩ :=
    entriesAlong_cons_eq_ok.1 hafter
  by_cases htype : scope.kind = .type
  · obtain ⟨out', hout', hflat⟩ := hv.entriesAlong_type hs hscope htype h
    exact ⟨out', _, [], hout', (List.append_nil _).symm, by simp, by simp [hflat]⟩
  · -- inside the scope of the variable no further names are bound
    obtain ⟨before', hbefore', hflat, hwider⟩ :=
      hv.entriesAlong_shade hs (.refl []) (hv.groupsOf_kept hs hinner) hbefore
    rw [map_shade_nil] at hflat
    -- in its scope it joins the first group
    obtain ⟨first, first', rest, hfirst, hfirst', hjoin⟩ :=
      hv.groupsOf_scope hs o.signal (hs.scope_id _ _ hscope) htype
    rw [hgroups] at hfirst
    cases hfirst
    obtain ⟨own, own', more, bound', rfl, hentries', hsame, hbound⟩ :=
      hv.entriesOf_join hs hwider hjoin hentries
    obtain rfl := eq_boundAfter_of_entriesOf hentries'
    -- from there on its name is bound
    obtain ⟨later', hlater', hflat', -⟩ :=
      hv.entriesAlong_shade hs hbound (hv.groupsOf_kept hs houter) hlater
    refine ⟨before' ++ (v.scope, own' ::
        more.map (List.map (s.shade o.options [o.options.fold v.name]))) :: later',
      (before.flatMap Prod.snd).flatten ++ own, more.flatten ++ (later.flatMap Prod.snd).flatten,
      ?_, ?_, ?_, ?_⟩
    · refine entriesAlong_append_eq_ok.2 ⟨before', _, hbefore', entriesAlong_cons_eq_ok.2
        ⟨scope, _, _, later', by rw [scopes_insertSymbol]; exact hscope, hfirst', ?_, ?_, rfl⟩, rfl⟩
      · rw [hv.footingAfter, scopesOf, scopes_insertSymbol]
        exact hentries'
      · rw [hv.footingAfter, hv.leave, scopesOf, scopes_insertSymbol]
        exact hlater'
    · simp
    · intro e he
      refine (contributes_of_mem hafter ?_).1
      simp only [List.flatMap_cons, List.cons_append, List.flatten_cons, List.flatten_append]
      exact List.mem_append_right _ he
    · intro e hne
      simp only [List.flatMap_append, List.flatMap_cons, hflat, hflat', List.flatten_append,
        List.flatten_cons, List.cons_append, List.mem_append, hsame e hne, List.map_append,
        List.map_flatten, or_assoc]

/-- **A look-up after a new variable is inserted.**  From every position whose way outwards passes
through the scope of the variable, a look-up that succeeded succeeds again.  The entries that it
made fall into an early and a late part: apart from the variable, the early ones are as before, and
the late ones are as before unless they carry the name of the variable. -/
theorem lookup_insertSymbol {signal : Signal} {options : Options} {position : UInt64}
    {before : Panorama} (h : s.lookup signal options position = .ok before)
    (hchain : s.ancestors (s.scopeAt position) = .ok (inner ++ v.scope :: outer)) :
    ∃ after early late, (s.insertSymbol v).lookup signal options position = .ok after ∧
      before.entries = early ++ late ∧
      (∀ e ∈ late, ∃ id ∈ v.scope :: outer, s.Contributes signal id e.finding) ∧
      ∀ e, e.symbol ≠ v.id → (e ∈ after.entries ↔
        e ∈ early ∨ e ∈ late.map (s.shade options [options.fold v.name])) := by
  obtain ⟨hsignal, chain, hchain', hgroups, -, -⟩ := lookup_eq_ok_iff.1 h
  rw [hchain] at hchain'
  cases hchain'
  have hnodup := (outward_of_ancestors_of_mem hchain
    (List.mem_append_right inner (List.mem_cons_self ..))).nodup
  obtain ⟨-, hscopes, hdisjoint⟩ := List.nodup_append.1 hnodup
  have hinner : v.scope ∉ inner := fun hmem => hdisjoint _ hmem _ (List.mem_cons_self ..) rfl
  obtain ⟨groups, early, late, hgroups', hentries, hlate, hmem⟩ :=
    hv.entriesAlong_join hs hinner (List.nodup_cons.1 hscopes).1 hgroups
  have hsame := scopes_insertSymbol s v
  have hscope : (s.insertSymbol v).scopeAt position = s.scopeAt position := by
    rw [scopeAt_of_scopes hsame]
  refine ⟨⟨s.scopeAt position, groups, _⟩, early, late,
    lookup_eq_ok_iff.2 ⟨hsignal, inner ++ v.scope :: outer, ?_, ?_, hscope.symm, rfl⟩,
    ?_, hlate, ?_⟩
  · rw [hscope, ancestors_of_scopes hsame]
    exact hchain
  · rw [typeAround?_of_scopes hsame]
    exact hgroups'
  · rw [Panorama.entries_eq]
    exact hentries
  · intro e hne
    rw [Panorama.entries_eq]
    exact hmem e hne

end Store.NewLocal

end Ambit
