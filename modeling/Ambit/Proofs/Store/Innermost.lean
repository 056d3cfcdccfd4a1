/-
The innermost scope at a position.

Of the scopes of the text that hold a position, the search picks a shortest one, and of several such
the one with the most parents above it.  Neither length nor depth speaks of nesting.  In a store
whose facts fit together the two give the innermost scope all the same: a scope of the text is no
longer than its parent, and it has one more parent above it, so no scope beneath the one that is
picked can hold the position.  This needs scopes of the text all the way, since a scope of metadata
may hold scopes of any length.

The depth is counted with a bound.  The way outwards meets every scope once, so the bound is never
reached, with one exception: the check lets the place outside every scope lie in itself.  No other
scope lies beneath it then.

Main definitions:

* `Ambit.Store.Beneath` — a scope lies in another, with scopes of the text on the way.

Main results:

* `Ambit.Store.innermost?_eq_none_iff`, `Ambit.Store.innermost?_eq_some` — what the search picks;
* `Ambit.Store.Outward.depth_eq` — the depth of a scope is the length of the way outwards;
* `Ambit.Store.Built.outward_or_loop` — the scopes from which no way leads outwards;
* `Ambit.Store.Built.depth_lt_of_beneath`, `Ambit.Store.Built.length_le_of_beneath` — a scope beneath
  another is deeper, and no longer;
* `Ambit.Store.innermost?_innermost` — **the search finds the innermost scope**.
-/

import Ambit.Proofs.Store.WellFormed

set_option relaxedAutoImplicit false
set_option autoImplicit false

namespace Ambit

theorem Text.Span.length_le_of_covers {outer inner : Text.Span} (h : outer.Covers inner) :
    inner.length ≤ outer.length := by
  have hstart := UInt64.le_iff_toNat_le.1 h.1
  have hstop := UInt64.le_iff_toNat_le.1 h.2
  rw [length, length]
  omega

namespace Store

variable {s : Store} {position : UInt64}

/-! ### What the search picks -/

/-- There is no innermost scope exactly when no scope holds the position. -/
theorem innermost?_eq_none_iff :
    s.innermost? position = none ↔ ∀ scope ∈ s.scopes.values, scope.holds position = false := by
  rw [innermost?]
  generalize hholding : s.scopes.values.filter (fun scope => scope.holds position) = holding
  have hnil : holding = [] ↔ ∀ scope ∈ s.scopes.values, scope.holds position = false := by
    rw [← hholding, List.filter_eq_nil_iff]
    simp only [Bool.not_eq_true]
  rw [← hnil]
  constructor
  · intro hnone
    by_contra hsome
    obtain ⟨shortest, hshortest⟩ := Option.isSome_iff_exists.1
      (List.isSome_minOn?_iff (f := fun scope => scope.span.length) |>.2 hsome)
    -- the shortest scope is one of the shortest, so there is a deepest of these
    have hmem : shortest ∈
        holding.filter fun scope => scope.span.length == shortest.span.length :=
      List.mem_filter.2 ⟨List.minOn?_mem hshortest, beq_self_eq_true _⟩
    have hdeepest := List.isSome_maxOn?_of_mem (f := fun scope => s.depth scope.id) hmem
    rw [hshortest, Option.bind_some] at hnone
    rw [hnone] at hdeepest
    cases hdeepest
  · rintro rfl
    rfl

/-- **What the search picks** is a scope that holds the position, a shortest such scope, and a
deepest of the shortest. -/
theorem innermost?_eq_some {r : Scope} (h : s.innermost? position = some r) :
    r ∈ s.scopes.values ∧ r.holds position = true ∧
      ∀ scope ∈ s.scopes.values, scope.holds position = true →
        r.span.length ≤ scope.span.length ∧
          (scope.span.length = r.span.length → s.depth scope.id ≤ s.depth r.id) := by
  obtain ⟨shortest, hshortest, hdeepest⟩ := Option.bind_eq_some_iff.1 h
  obtain ⟨hmem, hlength⟩ := List.mem_filter.1 (List.maxOn?_mem hdeepest)
  rw [beq_iff_eq] at hlength
  obtain ⟨hr, hholds⟩ := List.mem_filter.1 hmem
  refine ⟨hr, hholds, fun scope hscope hscopeHolds => ?_⟩
  have hholding : scope ∈ s.scopes.values.filter fun scope => scope.holds position :=
    List.mem_filter.2 ⟨hscope, hscopeHolds⟩
  constructor
  · rw [hlength, ← List.minOn_eq_of_minOn?_eq_some hshortest]
    exact List.apply_minOn_le_of_mem (f := fun scope => scope.span.length) hholding
  · intro hsame
    rw [← List.maxOn_eq_of_maxOn?_eq_some hdeepest]
    refine List.le_apply_maxOn_of_mem (f := fun scope : Scope => s.depth scope.id) ?_
    exact List.mem_filter.2 ⟨hholding, beq_iff_eq.2 (hsame.trans hlength)⟩

/-! ### Depths -/

namespace Outward

variable {id : ScopeId} {chain : List ScopeId}

/-- The parents counted with enough steps are those on the way outwards. -/
theorem parentsAbove_eq (h : s.Outward id chain) {fuel : ℕ} (hfuel : chain.length ≤ fuel) :
    s.parentsAbove fuel (some id) = chain.length := by
  induction h generalizing fuel with
  | last hscope hparent =>
      obtain ⟨fuel, rfl⟩ := Nat.exists_eq_add_of_le' hfuel
      simp [parentsAbove, hscope, hparent]
  | step hscope hparent _ ih =>
      cases fuel with
      | zero => cases hfuel
      | succ fuel =>
          have hrest := ih (Nat.le_of_succ_le_succ hfuel)
          simp [parentsAbove, hscope, hparent, hrest]

/-- **The depth of a scope is the length of the way outwards**, the scope itself not counted. -/
theorem depth_eq (h : s.Outward id chain) : s.depth id + 1 = chain.length := by
  have hlength := length_le_size h.nodup h.mem_scopes
  cases h with
  | last hscope hparent => simp [depth, hscope, hparent, parentsAbove]
  | step hscope hparent hrest =>
      have habove := hrest.parentsAbove_eq (Nat.le_of_succ_le hlength)
      simp [depth, hscope, hparent, habove]

end Outward

/-! ### Scopes of the text beneath a scope -/

/-- A scope lies in another, not necessarily directly, and it and the scopes between them are scopes
of the text. -/
inductive Beneath (s : Store) : ScopeId → ScopeId → Prop
  | child {id around : ScopeId} {scope : Scope} :
      s.scopes[id]? = some scope → scope.fromMetadata = false → scope.parent = some around →
      Beneath s id around
  | deeper {id between around : ScopeId} {scope : Scope} :
      s.scopes[id]? = some scope → scope.fromMetadata = false → scope.parent = some between →
      Beneath s between around → Beneath s id around

namespace Beneath

variable {id around : ScopeId} {chain : List ScopeId} {scope : Scope}

theorem exists_outward (h : s.Beneath id around) (hchain : s.Outward id chain) :
    ∃ rest, s.Outward around rest ∧ rest.length < chain.length := by
  induction h generalizing chain with
  | child hscope _ hparent =>
      obtain ⟨rest, hrest⟩ := hchain.of_parent hscope hparent
      obtain rfl := hchain.unique (.step hscope hparent hrest)
      exact ⟨rest, hrest, Nat.lt_succ_self _⟩
  | deeper hscope _ hparent _ ih =>
      obtain ⟨middle, hmiddle⟩ := hchain.of_parent hscope hparent
      obtain rfl := hchain.unique (.step hscope hparent hmiddle)
      obtain ⟨rest, hrest, hlt⟩ := ih hmiddle
      exact ⟨rest, hrest, Nat.lt_succ_of_lt hlt⟩

/-- A scope that is its own parent lies in no other scope. -/
theorem eq_of_loop (h : s.Beneath id around) (hscope : s.scopes[id]? = some scope)
    (hloop : scope.parent = some id) : around = id := by
  induction h with
  | child hscope' _ hparent =>
      rw [hscope] at hscope'
      cases hscope'
      rw [hloop] at hparent
      cases hparent
      rfl
  | deeper hscope' _ hparent _ ih =>
      rw [hscope] at hscope'
      cases hscope'
      rw [hloop] at hparent
      cases hparent
      exact ih hscope hloop

end Beneath

/-! ### Stores that pass the check -/

namespace Built

variable {id around : ScopeId} {scope outer : Scope}

theorem checkScope_of_check (hs : s.Built) (hcheck : s.check = .ok ())
    (hscope : s.scopes[id]? = some scope) : scope.id = id ∧ s.checkScope scope = .ok () :=
  ⟨hs.indexed.scope_id id scope hscope,
    (check_eq_ok_iff.1 hcheck).2.1 scope (Table.mem_values.2 ⟨id, hscope⟩)⟩

/-- The parent of a scope is there, and a scope of the text lies in it. -/
theorem exists_parent_of_check (hs : s.Built) (hcheck : s.check = .ok ())
    (hscope : s.scopes[id]? = some scope) (hparent : scope.parent = some around) :
    ∃ parent, s.scopes[around]? = some parent ∧
      (scope.fromMetadata = false → parent.fromMetadata = false →
        parent.span.Covers scope.span) := by
  obtain ⟨_, -, hnested⟩ := Answer.bind_eq_ok.1 (hs.checkScope_of_check hcheck hscope).2
  simp only [hparent] at hnested
  cases haround : s.scopes[around]? with
  | none =>
      rw [haround] at hnested
      cases hnested
  | some parent =>
      rw [haround] at hnested
      exact ⟨parent, rfl, checkNesting_eq_ok_iff.1 hnested⟩

/-- From every scope there is a way outwards; the place outside every scope is no scope. -/
theorem exists_outward_of_check (hs : s.Built) (hcheck : s.check = .ok ())
    (hscope : s.scopes[id]? = some scope) (hid : id ≠ .outside) : ∃ chain, s.Outward id chain := by
  obtain ⟨rfl, hpass⟩ := hs.checkScope_of_check hcheck hscope
  obtain ⟨chain, hchain, -⟩ := Answer.bind_eq_ok.1 hpass
  exact ⟨chain, outward_of_ancestors hchain hid⟩

/-- **From every scope there is a way outwards**, unless it is its own parent. -/
theorem outward_or_loop (hs : s.Built) (hcheck : s.check = .ok ())
    (hscope : s.scopes[id]? = some scope) :
    (∃ chain, s.Outward id chain) ∨ scope.parent = some id := by
  by_cases hid : id = .outside
  · subst hid
    -- the walk is not begun there, but it is from the parent
    cases hparent : scope.parent with
    | none => exact Or.inl ⟨_, .last hscope hparent⟩
    | some around =>
        by_cases haround : around = .outside
        · exact Or.inr (congrArg some haround)
        · obtain ⟨parent, hfound, -⟩ := hs.exists_parent_of_check hcheck hscope hparent
          obtain ⟨rest, hrest⟩ := hs.exists_outward_of_check hcheck hfound haround
          exact Or.inl ⟨_, .step hscope hparent hrest⟩
  · exact Or.inl (hs.exists_outward_of_check hcheck hscope hid)

/-- **A scope beneath another is deeper.** -/
theorem depth_lt_of_beneath (hs : s.Built) (hcheck : s.check = .ok ())
    (h : s.Beneath id around) (hne : id ≠ around) (hscope : s.scopes[id]? = some scope) :
    s.depth around < s.depth id := by
  rcases hs.outward_or_loop hcheck hscope with ⟨chain, hchain⟩ | hloop
  · obtain ⟨rest, hrest, hlt⟩ := h.exists_outward hchain
    have hinner := hchain.depth_eq
    have houter := hrest.depth_eq
    omega
  · exact absurd (h.eq_of_loop hscope hloop).symm hne

/-- **A scope beneath another is no longer.** -/
theorem length_le_of_beneath (hs : s.Built) (hcheck : s.check = .ok ())
    (h : s.Beneath id around) (hscope : s.scopes[id]? = some scope)
    (houter : s.scopes[around]? = some outer) (hsource : outer.fromMetadata = false) :
    scope.span.length ≤ outer.span.length := by
  induction h generalizing scope with
  | child hscope' hsource' hparent =>
      rw [hscope] at hscope'
      cases hscope'
      obtain ⟨parent, hfound, hcovers⟩ := hs.exists_parent_of_check hcheck hscope hparent
      rw [houter] at hfound
      cases hfound
      exact Text.Span.length_le_of_covers (hcovers hsource' hsource)
  | deeper hscope' hsource' hparent hbetween ih =>
      rw [hscope] at hscope'
      cases hscope'
      obtain ⟨parent, hfound, hcovers⟩ := hs.exists_parent_of_check hcheck hscope hparent
      have hsourceBetween : parent.fromMetadata = false := by
        cases hbetween with
        | child hfound' hsource' _ | deeper hfound' hsource' _ _ =>
            rw [hfound] at hfound'
            cases hfound'
            exact hsource'
      exact (Text.Span.length_le_of_covers (hcovers hsource' hsourceBetween)).trans
        (ih hfound houter)

end Built

/-! ### The innermost scope -/

/-- **The search finds the innermost scope.**  In a store that passes the check there is an
innermost scope at a position exactly when a scope of the text holds the position.  It holds the
position, it is at most as long as every scope that does, and no other scope beneath it holds the
position. -/
theorem innermost?_innermost (hs : s.Built) (hcheck : s.check = .ok ()) (position : UInt64) :
    ((∃ r, s.innermost? position = some r) ↔
        ∃ (id : ScopeId) (scope : Scope), s.scopes[id]? = some scope ∧
          scope.fromMetadata = false ∧ scope.span.Holds position) ∧
      ∀ r, s.innermost? position = some r →
        s.scopes[r.id]? = some r ∧ r.fromMetadata = false ∧ r.span.Holds position ∧
          ∀ (id : ScopeId) (scope : Scope), s.scopes[id]? = some scope →
            scope.fromMetadata = false → scope.span.Holds position →
            r.span.length ≤ scope.span.length ∧ (s.Beneath id r.id → id = r.id) := by
  have hholds : ∀ scope : Scope, scope.holds position = true ↔
      scope.fromMetadata = false ∧ scope.span.Holds position := by
    intro scope
    simp [Scope.holds]
  constructor
  · rw [← Option.isSome_iff_exists, ← Option.ne_none_iff_isSome, ne_eq, innermost?_eq_none_iff]
    simp only [Table.mem_values, ← hholds]
    push Not
    constructor
    · rintro ⟨scope, ⟨id, hscope⟩, hno⟩
      exact ⟨id, scope, hscope, by simpa using hno⟩
    · rintro ⟨id, scope, hscope, hyes⟩
      exact ⟨scope, ⟨id, hscope⟩, by simp [hyes]⟩
  · intro r hr
    obtain ⟨hmem, hrHolds, hbest⟩ := innermost?_eq_some hr
    have hfound := (Table.mem_values_iff hs.indexed.scope_id).1 hmem
    obtain ⟨hsource, hspan⟩ := (hholds r).1 hrHolds
    refine ⟨hfound, hsource, hspan, fun id scope hscope hsource' hspan' => ?_⟩
    obtain ⟨hshortest, hdeepest⟩ := hbest scope (Table.mem_values.2 ⟨id, hscope⟩)
      ((hholds scope).2 ⟨hsource', hspan'⟩)
    refine ⟨hshortest, fun hbeneath => ?_⟩
    -- a scope beneath would be as short, and deeper
    by_contra hne
    have hlength := hs.length_le_of_beneath hcheck hbeneath hscope hfound hsource
    have hdepth := hs.depth_lt_of_beneath hcheck hbeneath hne hscope
    have hid := hs.indexed.scope_id id scope hscope
    rw [hid] at hdeepest
    exact absurd (hdeepest (Nat.le_antisymm hlength hshortest)) (Nat.not_le.2 hdepth)

/-- A method and its body with one span, a block beside them that is as long, and a scope of the
text that lies in a scope of metadata and is longer than everything. -/
def crossing : Store :=
  empty.insertScope { id := ⟨0⟩, kind := .nameSpace, span := ⟨0, 100⟩ }
    |>.insertScope { id := ⟨1⟩, kind := .method, span := ⟨20, 80⟩, parent := some ⟨0⟩ }
    |>.insertScope { id := ⟨2⟩, kind := .block, span := ⟨20, 80⟩, parent := some ⟨1⟩ }
    |>.insertScope { id := ⟨3⟩, kind := .block, span := ⟨10, 70⟩, parent := some ⟨0⟩ }
    |>.insertScope { id := ⟨4⟩, kind := .type, span := ⟨0, 0⟩, parent := some ⟨2⟩,
                     fromMetadata := true }
    |>.insertScope { id := ⟨5⟩, kind := .method, span := ⟨0, 200⟩, parent := some ⟨4⟩ }

/-- At a position that all of them hold, the body is found, and nothing beneath it holds the
position. -/
theorem innermost?_innermost_crossing :
    crossing.check = .ok () ∧ crossing.Beneath ⟨2⟩ ⟨1⟩ ∧
      ∃ r, crossing.innermost? 30 = some r ∧ r.id = ⟨2⟩ ∧
        ∀ (id : ScopeId) (scope : Scope), crossing.scopes[id]? = some scope →
          scope.fromMetadata = false → scope.span.Holds 30 →
          r.span.length ≤ scope.span.length ∧ (crossing.Beneath id r.id → id = r.id) := by
  have hbuilt : crossing.Built :=
    .insertScope _ (.insertScope _ (.insertScope _ (.insertScope _ (.insertScope _
      (.insertScope _ .empty)))))
  have hcheck : crossing.check = .ok () := by decide +kernel
  have hfound : (crossing.innermost? 30).map Scope.id = some ⟨2⟩ := by decide +kernel
  obtain ⟨r, hr, hid⟩ := Option.map_eq_some_iff.1 hfound
  have hbody : crossing.scopes[(⟨2⟩ : ScopeId)]? =
      some { id := ⟨2⟩, kind := .block, span := ⟨20, 80⟩, parent := some ⟨1⟩ } := rfl
  exact ⟨hcheck, .child hbody rfl rfl, r, hr, hid,
    ((innermost?_innermost hbuilt hcheck 30).2 r hr).2.2.2⟩

end Store

end Ambit
