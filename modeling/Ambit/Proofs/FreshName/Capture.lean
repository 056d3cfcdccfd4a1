/-
A fresh name captures nothing.

A name for a new variable is asked for at one position, and the variable is then declared in the
innermost scope around the position in which variables can be declared.  The name was chosen to
avoid what is met from that one position.  But the variable is also met from every other position in
its scope, and there it could shadow a symbol that the name was not checked against.

It never shadows a symbol that competes with variables.  Such a symbol would be contributed by the
scope of the variable or by a scope around it, so it is met from the first position too.  There it
can be named at least as well, since the first position is surrounded by all types that surround
the other one.  So the symbol was among the rivals of the name.

Main results:

* `Ambit.Store.exists_chain_of_enclosingSpace` — the scope of a variable is on the way outwards;
* `Ambit.Store.fold_ne_of_freshLocal` — a fresh name avoids what is met at its position;
* `Ambit.Store.scopingVerdict_inward` — what can be named further out is not out of reach further
  in;
* `Ambit.Store.freshLocal_captures_nothing` — **a fresh name captures nothing**.
-/

import Ambit.FreshName
import Ambit.Proofs.Access
import Ambit.Proofs.Lookup.Insertion
import Ambit.Proofs.NameSupply

set_option relaxedAutoImplicit false
set_option autoImplicit false

namespace Ambit.Store

open Ambit.Text (Span)

variable {s : Store} {signal : Signal} {options : Options} {position : UInt64}

/-! ### The position of the name -/

/-- The scope that a variable is declared in is on the way outwards from its position. -/
theorem exists_chain_of_enclosingSpace {space : ScopeId}
    (h : s.enclosingSpace signal position none = .ok space) (hspace : space ≠ .outside) :
    ∃ inner outer, s.ancestors (s.scopeAt position) = .ok (inner ++ space :: outer) := by
  rw [enclosingSpace] at h
  dsimp only at h
  split at h
  · rename_i hstart
    cases h
    exact absurd hstart hspace
  · rename_i hstart
    obtain ⟨chain, hchain, h⟩ := Answer.bind_eq_ok.1 h
    obtain ⟨-, -, h⟩ := Answer.bind_eq_ok.1 h
    have hstart : s.scopeAt position ∈ chain := by
      obtain ⟨rest, rfl⟩ := (outward_of_ancestors hchain hstart).exists_cons
      exact List.mem_cons_self ..
    have hpick : ∀ isSpace, (chain.find? isSpace).getD (s.scopeAt position) ∈ chain := by
      intro isSpace
      cases hfound : chain.find? isSpace with
      | none => exact hstart
      | some id => exact List.mem_of_find?_eq_some hfound
    have hmem : space ∈ chain := by
      cases h
      exact hpick _
    obtain ⟨inner, outer, rfl⟩ := List.append_of_mem hmem
    exact ⟨inner, outer, hchain⟩

/-- A fresh name avoids every symbol that competes with variables and that is met from its position,
unless it cannot be named from there. -/
theorem fold_ne_of_freshLocal {space : ScopeId} {base : String} {used : List String}
    {fresh : FreshName} (hspace : s.enclosingSpace signal position none = .ok space)
    (houtside : space ≠ .outside)
    (h : s.freshLocal signal options position base used = .ok fresh) :
    ∃ found, s.lookup signal options position = .ok found ∧
      ∀ e ∈ found.entries, e.verdict ≠ .excluded .inaccessible →
        ∀ symbol, s.symbols[e.symbol]? = some symbol → symbol.rivalsLocal = true →
          options.fold symbol.name ≠ options.fold fresh.name := by
  obtain ⟨supply, hsupply, hfresh⟩ := Answer.bind_eq_ok.1 h
  obtain ⟨rivals, hrivals, hsupply⟩ := Answer.bind_eq_ok.1 hsupply
  rw [Store.rivals, hspace] at hrivals
  obtain ⟨space', hspace', hrivals⟩ := Answer.bind_eq_ok.1 hrivals
  cases hspace'
  rw [if_neg houtside] at hrivals
  obtain ⟨found, hfound, hrivals⟩ := Answer.bind_eq_ok.1 hrivals
  cases hrivals
  cases hsupply
  cases hfresh
  refine ⟨found, hfound, fun e he haccess symbol hsymbol hrival => ?_⟩
  have hmet : e.symbol ∈ metOutwards found :=
    List.mem_map.2 ⟨e, List.mem_filter.2 ⟨he, by simpa using haccess⟩, rfl⟩
  have hmem : symbol ∈ (metOutwards found ++ s.declaredWithin space).eraseDups.filterMap
      (s.symbols[·]?) :=
    List.mem_filterMap.2 ⟨e.symbol, List.mem_eraseDups.2 (List.mem_append_left _ hmet), hsymbol⟩
  have hfold : ∀ (names : List String) (name : String),
      (used.foldl NameSupply.take (.ofNames options.caseSensitive names)).fold name =
        options.fold name := by
    intro names name
    rw [NameSupply.fold, NameSupply.caseSensitive_foldl_take, NameSupply.caseSensitive_ofNames]
    rfl
  rw [← hfold, ← hfold]
  refine NameSupply.fold_ne_fold_fresh (NameSupply.isTaken_foldl_take.2 (Or.inr ?_)) _
  exact NameSupply.isTaken_ofNames.2 ⟨symbol.name,
    List.mem_map_of_mem (List.mem_filter.2 ⟨hmem, hrival⟩), rfl⟩

/-! ### Reach -/

/-- What can be named further out is not out of reach further in. -/
theorem scopingVerdict_inward {o o' : Outlook} {f f' : Footing} {symbol : Symbol}
    {verdict : Verdict} (hsignal : o'.signal = o.signal)
    (hsite : o.site.types <:+ o'.site.types)
    (h : s.scopingVerdict o f symbol = .ok .applicable)
    (h' : s.scopingVerdict o' f' symbol = .ok verdict) : verdict ≠ .excluded .inaccessible := by
  rintro rfl
  have hmember := isMember_of_scopingVerdict h'
  rw [scopingVerdict_of_isMember hmember] at h h'
  obtain ⟨reached, hreached, hverdict⟩ := memberVerdict_eq_ok_iff.1 h
  obtain ⟨reached', hreached', hverdict'⟩ := memberVerdict_eq_ok_iff.1 h'
  have htrue : reached = true := by
    by_contra hnot
    rw [if_neg hnot] at hverdict
    cases hverdict
  rw [htrue, ← hsignal] at hreached
  rw [canAccess_of_suffix hsite hreached hreached', if_pos rfl, Verdict.requiring] at hverdict'
  split at hverdict' <;> cases hverdict'

/-- An entry of a symbol that can be named further out does not say that the symbol is out of
reach. -/
theorem verdict_inward {o o' : Outlook} {f f' : Footing} {names names' : List String}
    {e e' : Entry} (h : s.entryOf o f names e.finding = .ok e) (hvisible : e.isVisible = true)
    (h' : s.entryOf o' f' names' e.finding = .ok e') (hsignal : o'.signal = o.signal)
    (hsite : o.site.types <:+ o'.site.types) :
    e'.verdict ≠ .excluded .inaccessible := by
  rw [Entry.isVisible_eq_true_iff] at hvisible
  obtain ⟨-, symbol, hsymbol, ⟨-, hshadowed⟩ | ⟨-, hverdict⟩⟩ := entryOf_eq_ok_iff.1 h
  · rw [hvisible] at hshadowed
    cases hshadowed
  · rw [hvisible] at hverdict
    obtain ⟨-, symbol', hsymbol', ⟨-, hshadowed⟩ | ⟨-, hverdict'⟩⟩ := entryOf_eq_ok_iff.1 h'
    · rw [hshadowed]
      simp
    · rw [hsymbol] at hsymbol'
      cases hsymbol'
      exact scopingVerdict_inward hsignal hsite hverdict hverdict'

/-- Where no type lies inside a scope on the way outwards, the types around the position are those
around the scope. -/
theorem types_suffix {inner outer inner' : List ScopeId} {space : ScopeId}
    (hinner : ∀ id ∈ inner, ∀ scope, s.scopes[id]? = some scope → scope.kind ≠ .type) :
    (inner ++ space :: outer).filterMap s.typeAround? <:+
      (inner' ++ space :: outer).filterMap s.typeAround? := by
  have hnone : inner.filterMap s.typeAround? = [] := by
    refine List.filterMap_eq_nil_iff.2 fun id hid => ?_
    rw [typeAround?]
    split
    · rename_i scope hscope
      exact if_neg (hinner id hid scope hscope)
    · rfl
  rw [List.filterMap_append, hnone, List.nil_append, List.filterMap_append]
  exact List.suffix_append _ _

/-! ### Captures -/

section Captures

variable {position' : UInt64} {signal' : Signal} {space : ScopeId} {base : String}
  {used : List String} {fresh : FreshName} {inner outer : List ScopeId} {before : Panorama}

/-- A fresh name avoids every symbol that competes with variables, can be named from some position
in the scope of the variable, and comes from that scope or a scope around it. -/
theorem fold_ne_of_contributes (hspace : s.enclosingSpace signal position none = .ok space)
    (houtside : space ≠ .outside)
    (hname : s.freshLocal signal options position base used = .ok fresh)
    (hchain : s.ancestors (s.scopeAt position') = .ok (inner ++ space :: outer))
    (hinner : ∀ id ∈ inner, ∀ scope, s.scopes[id]? = some scope → scope.kind ≠ .type)
    (hbefore : s.lookup signal' options position' = .ok before) {e : Entry}
    (he : e ∈ before.entries) (hvisible : e.isVisible = true) {id : ScopeId}
    (hid : id ∈ space :: outer) (hcontributes : s.Contributes signal' id e.finding)
    {symbol : Symbol} (hsymbol : s.symbols[e.symbol]? = some symbol)
    (hrival : symbol.rivalsLocal = true) : options.fold symbol.name ≠ options.fold fresh.name := by
  obtain ⟨found, hfound, havoids⟩ := fold_ne_of_freshLocal hspace houtside hname
  -- both ways outwards go on together from the scope of the variable
  obtain ⟨inner', outer', hchain'⟩ := exists_chain_of_enclosingSpace hspace houtside
  have hspaceMem : ∀ l m : List ScopeId, space ∈ l ++ space :: m :=
    fun l m => List.mem_append_right l (List.mem_cons_self ..)
  obtain rfl := (outward_of_ancestors_of_mem hchain (hspaceMem inner outer)).tail_eq
    (outward_of_ancestors_of_mem hchain' (hspaceMem inner' outer'))
  obtain ⟨hquiet, _, heq, hrun, -, -⟩ := lookup_eq_ok_iff.1 hbefore
  rw [hchain] at heq
  cases heq
  obtain ⟨hquiet', _, heq, hrun', -, -⟩ := lookup_eq_ok_iff.1 hfound
  rw [hchain'] at heq
  cases heq
  obtain rfl := Signal.eq_quiet_of_check hquiet
  obtain rfl := Signal.eq_quiet_of_check hquiet'
  -- so the symbol is met from the position of the name too
  obtain ⟨e', he', hfinding⟩ :=
    exists_mem_of_contributes hrun' (List.mem_append_right inner' hid) hcontributes
  rw [Panorama.entries_eq] at he
  obtain ⟨-, footing, names, hmade⟩ := contributes_of_mem hrun he
  obtain ⟨-, footing', names', hmade'⟩ := contributes_of_mem hrun' he'
  rw [hfinding] at hmade'
  refine havoids e' (by rw [Panorama.entries_eq]; exact he') ?_ symbol ?_ hrival
  · exact verdict_inward hmade hvisible hmade' rfl (types_suffix hinner)
  · rw [← e'.finding_symbol, hfinding]
    exact hsymbol

/-- **A fresh name captures nothing.**  A name is made for a variable at one position, and a
variable of that name is inserted in the scope that variables at this position are declared in.
From every position whose way outwards passes through that scope, with no type on it inside that
scope, a look-up that succeeded succeeds again, and reports the same symbols that compete with
variables as visible, with the same entries. -/
theorem freshLocal_captures_nothing (hs : s.Built)
    (hspace : s.enclosingSpace signal position none = .ok space) (houtside : space ≠ .outside)
    (hname : s.freshLocal signal options position base used = .ok fresh) {new : SymbolId}
    (hnew : s.symbols[new]? = none) (span : Option Span)
    (hchain : s.ancestors (s.scopeAt position') = .ok (inner ++ space :: outer))
    (hinner : ∀ id ∈ inner, ∀ scope, s.scopes[id]? = some scope → scope.kind ≠ .type)
    (hbefore : s.lookup signal' options position' = .ok before) :
    ∃ after,
      (s.insertSymbol
          { id := new, kind := .localVariable, name := fresh.name, scope := space, span }).lookup
        signal' options position' = .ok after ∧
      ∀ id symbol, s.symbols[id]? = some symbol → symbol.rivalsLocal = true →
        ∀ e : Entry, e.symbol = id → (e ∈ before.visible ↔ e ∈ after.visible) := by
  have hv : s.NewLocal
      { id := new, kind := .localVariable, name := fresh.name, scope := space, span } :=
    ⟨hnew, rfl, rfl, rfl⟩
  obtain ⟨after, early, late, hafter, hentries, hlate, hmem⟩ :=
    hv.lookup_insertSymbol hs.indexed hbefore hchain
  refine ⟨after, hafter, fun id symbol hsymbol hrival e hid => ?_⟩
  subst hid
  have hne : e.symbol ≠ new := by
    intro heq
    rw [heq, hnew] at hsymbol
    cases hsymbol
  rw [Panorama.visible, Panorama.visible, List.mem_filter, List.mem_filter, hmem e hne, hentries,
    List.mem_append]
  refine and_congr_left fun hvisible => or_congr_right ?_
  -- a late entry that carries the name would be one that the name was chosen to avoid
  constructor
  · intro he
    obtain ⟨id, hid, hcontributes⟩ := hlate e he
    have hfolded : s.foldedName? options e = some (options.fold symbol.name) := by
      rw [foldedName?, hsymbol]
      rfl
    refine List.mem_map.2 ⟨e, he, shade_of_not_mem hfolded ?_⟩
    rw [List.mem_singleton]
    refine fold_ne_of_contributes hspace houtside hname hchain hinner hbefore ?_ hvisible hid
      hcontributes hsymbol hrival
    rw [hentries]
    exact List.mem_append_right _ he
  · intro he
    obtain ⟨e', he', rfl⟩ := List.mem_map.1 he
    rw [shade_eq_of_isVisible hvisible]
    exact he'

end Captures

/-- A type with a field, around a method, around a block with a variable. -/
def crowded : Store :=
  empty.insertScope { id := ⟨0⟩, kind := .nameSpace, span := ⟨0, 100⟩ }
    |>.insertSymbol { id := ⟨0⟩, kind := .type, name := "Account", scope := ⟨0⟩ }
    |>.insertScope
      { id := ⟨1⟩, kind := .type, span := ⟨10, 90⟩, parent := some ⟨0⟩, owner := some ⟨0⟩ }
    |>.insertSymbol
      { id := ⟨1⟩, kind := .field, name := "Total", scope := ⟨1⟩, container := some ⟨0⟩,
        access := .container }
    |>.insertScope { id := ⟨2⟩, kind := .method, span := ⟨20, 80⟩, parent := some ⟨1⟩ }
    |>.insertScope { id := ⟨3⟩, kind := .block, span := ⟨40, 60⟩, parent := some ⟨2⟩ }
    |>.insertSymbol { id := ⟨2⟩, kind := .localVariable, name := "total1", scope := ⟨3⟩ }

def crowdedView : Panorama where
  scope := ⟨3⟩
  groups := [
    (⟨3⟩, [[⟨⟨2⟩, none, .applicable, .declared⟩]]),
    (⟨2⟩, [[]]),
    (⟨1⟩, [[], [⟨⟨1⟩, some (.plain ⟨0⟩), .applicable, .declared⟩]]),
    (⟨0⟩, [[⟨⟨0⟩, none, .applicable, .declared⟩], []])]
  hasInstance := true

theorem built_crowded : crowded.Built :=
  .insertSymbol _ (.insertScope _ (.insertScope _ (.insertSymbol _ (.insertScope _
    (.insertSymbol _ (.insertScope _ .empty))))))

/-- Where case does not count, a name for a variable of the method avoids the field and the variable
of the block, and the field can still be named inside the block. -/
theorem freshLocal_captures_nothing_crowded :
    crowded.freshLocal .quiet { caseSensitive := false } 30 "total" [] =
        .ok ⟨"total2", "total2"⟩ ∧
      crowded.lookup .quiet { caseSensitive := false } 50 = .ok crowdedView ∧
      ∃ after,
        (crowded.insertSymbol
            { id := ⟨3⟩, kind := .localVariable, name := "total2", scope := ⟨2⟩ }).lookup
          .quiet { caseSensitive := false } 50 = .ok after ∧
        ⟨⟨1⟩, some (.plain ⟨0⟩), .applicable, .declared⟩ ∈ after.visible := by
  have hname : crowded.freshLocal .quiet { caseSensitive := false } 30 "total" [] =
      .ok ⟨"total2", "total2"⟩ := rfl
  have hspace : crowded.enclosingSpace .quiet 30 none = .ok ⟨2⟩ := rfl
  have hnew : crowded.symbols[(⟨3⟩ : SymbolId)]? = none := rfl
  have hchain : crowded.ancestors (crowded.scopeAt 50) = .ok ([⟨3⟩] ++ ⟨2⟩ :: [⟨1⟩, ⟨0⟩]) := rfl
  have hbefore : crowded.lookup .quiet { caseSensitive := false } 50 = .ok crowdedView := rfl
  have hblock : ∀ id ∈ [(⟨3⟩ : ScopeId)], ∀ scope, crowded.scopes[id]? = some scope →
      scope.kind ≠ .type := by
    intro id hid scope hscope
    obtain rfl := List.mem_singleton.1 hid
    obtain rfl : _ = scope := Option.some.inj hscope
    decide
  obtain ⟨after, hafter, hvisible⟩ := freshLocal_captures_nothing built_crowded hspace (by decide)
    hname hnew none hchain hblock hbefore
  exact ⟨hname, hbefore, after, hafter, (hvisible ⟨1⟩ _ rfl rfl _ rfl).1 (by decide)⟩

end Ambit.Store
