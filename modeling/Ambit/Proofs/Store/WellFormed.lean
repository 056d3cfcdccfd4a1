/-
What the check decides.

The check goes through the facts of a store and stops at the first one that does not fit.  It
succeeds exactly on the stores whose facts fit together, and what that means can be said without a
walk: among other things, from every scope the parents lead to a scope without one.

The walk outwards stops when it meets a scope again or a scope that is not there.  It is written
down here as a relation without a bound on its steps, so that a derivation is a walk that comes to
an end.  The scopes it has met are different scopes of the store, so it never takes more steps than
there are scopes, and it answers exactly where there is a way outwards.  The place outside every
scope is no scope; it has no scopes around it, and the walk is not even begun there.

Main definitions:

* `Ambit.Store.Climbs` — the walk outwards, without a bound;
* `Ambit.Store.WellFormed` — **the facts of a store fit together**.

Main results:

* `Ambit.Store.climbs_outwards` — the bounded walk is the unbounded one;
* `Ambit.Store.ancestors_eq_ok_iff` — the walk answers exactly where there is a way outwards;
* `Ambit.Store.Built.check_eq_ok_iff_wellFormed` — the check succeeds exactly when the facts fit
  together;
* `Ambit.Store.check_and_ancestors_decide` — **what the check and the walk outwards decide**;
* `Ambit.Store.ancestors_outside_of_no_way` — the answer outside every scope.
-/

import Ambit.Proofs.Store.Facts
import Ambit.Proofs.Table
import Mathlib.Data.List.Perm.Subperm

set_option relaxedAutoImplicit false
set_option autoImplicit false

namespace Ambit.Store

/-! ### The walk outwards -/

/-- **The walk outwards** from a scope, when `seen` are the scopes met before, ends with a
result. -/
inductive Climbs (s : Store) : List ScopeId → ScopeId → Answer (List ScopeId) → Prop
  /-- The scope was met before. -/
  | again {seen : List ScopeId} {id : ScopeId} (hseen : id ∈ seen) :
      Climbs s seen id (.error (.breach (.scopeCycle id)))
  /-- The scope is not there. -/
  | missing {seen : List ScopeId} {id : ScopeId} (hseen : id ∉ seen)
      (hscope : s.scopes[id]? = none) : Climbs s seen id (.error (.breach (.missingScope id)))
  /-- The scope has no parent. -/
  | last {seen : List ScopeId} {id : ScopeId} {scope : Scope} (hseen : id ∉ seen)
      (hscope : s.scopes[id]? = some scope) (hparent : scope.parent = none) :
      Climbs s seen id (.ok [id])
  /-- The walk goes on from the parent. -/
  | step {seen : List ScopeId} {id parent : ScopeId} {scope : Scope}
      {result : Answer (List ScopeId)} (hseen : id ∉ seen) (hscope : s.scopes[id]? = some scope)
      (hparent : scope.parent = some parent) (rest : Climbs s (id :: seen) parent result) :
      Climbs s seen id (result.map (id :: ·))

variable {s : Store} {id : ScopeId} {seen chain : List ScopeId}

theorem mem_scopes_of_getElem? {scope : Scope} (h : s.scopes[id]? = some scope) :
    id ∈ s.scopes := Std.ExtTreeMap.mem_iff_isSome_getElem?.2 (by rw [h]; rfl)

/-- Different scopes of a store are at most as many as it has. -/
theorem length_le_size (hnodup : seen.Nodup) (hseen : ∀ id ∈ seen, id ∈ s.scopes) :
    seen.length ≤ s.scopes.size := by
  have hsub : seen ⊆ s.scopes.keys := fun id hid => Std.ExtTreeMap.mem_keys.2 (hseen id hid)
  rw [← Std.ExtTreeMap.length_keys]
  exact (hnodup.subperm hsub).length_le

/-- **The bounded walk is the unbounded one**, if the steps left and the scopes met are together
more than the scopes of the store. -/
theorem climbs_outwards {fuel : ℕ} (hnodup : seen.Nodup) (hseen : ∀ id ∈ seen, id ∈ s.scopes)
    (hfuel : s.scopes.size < fuel + seen.length) :
    s.Climbs seen id (s.outwards fuel seen id) := by
  induction fuel generalizing seen id with
  | zero =>
      have hlength := length_le_size hnodup hseen
      omega
  | succ fuel ih =>
      rw [outwards]
      simp only [List.contains_iff_mem]
      split
      · rename_i hmem
        exact .again hmem
      · rename_i hmem
        cases hscope : s.scopes[id]? with
        | none => exact .missing hmem hscope
        | some scope =>
            dsimp only
            cases hparent : scope.parent with
            | none => exact .last hmem hscope hparent
            | some parent =>
                refine .step hmem hscope hparent (ih (List.nodup_cons.2 ⟨hmem, hnodup⟩) ?_ ?_)
                · exact List.forall_mem_cons.2 ⟨mem_scopes_of_getElem? hscope, hseen⟩
                · rw [List.length_cons]
                  omega

theorem climbs_ancestors (hid : id ≠ .outside) : s.Climbs [] id (s.ancestors id) := by
  rw [ancestors, if_neg hid]
  exact climbs_outwards List.nodup_nil (by simp) (Nat.lt_succ_self _)

/-! ### Ways outwards -/

namespace Outward

theorem mem_scopes (h : s.Outward id chain) : ∀ around ∈ chain, around ∈ s.scopes := by
  induction h with
  | last hscope _ => simpa using mem_scopes_of_getElem? hscope
  | step hscope _ _ ih => exact List.forall_mem_cons.2 ⟨mem_scopes_of_getElem? hscope, ih⟩

theorem exists_scope (h : s.Outward id chain) : ∃ scope, s.scopes[id]? = some scope := by
  cases h with
  | last hscope _ => exact ⟨_, hscope⟩
  | step hscope _ _ => exact ⟨_, hscope⟩

theorem of_parent (h : s.Outward id chain) {scope : Scope} {around : ScopeId}
    (hscope : s.scopes[id]? = some scope) (hparent : scope.parent = some around) :
    ∃ rest, s.Outward around rest := by
  cases h with
  | last hscope' hparent' =>
      rw [hscope] at hscope'
      cases hscope'
      rw [hparent] at hparent'
      cases hparent'
  | step hscope' hparent' hrest =>
      rw [hscope] at hscope'
      cases hscope'
      rw [hparent] at hparent'
      cases hparent'
      exact ⟨_, hrest⟩

/-- A walk with enough steps follows a way that meets none of the scopes met before. -/
theorem outwards_eq (h : s.Outward id chain) {fuel : ℕ} (hfuel : chain.length ≤ fuel)
    (hseen : ∀ around ∈ chain, around ∉ seen) : s.outwards fuel seen id = .ok chain := by
  induction h generalizing fuel seen with
  | last hscope hparent =>
      obtain ⟨fuel, rfl⟩ := Nat.exists_eq_add_of_le' hfuel
      have hid := hseen _ (List.mem_singleton_self _)
      simp [outwards, hid, hscope, hparent]
  | @step id parent scope rest hscope hparent hrest ih =>
      have hnodup := (Outward.step hscope hparent hrest).nodup
      obtain ⟨hid, hseen⟩ := List.forall_mem_cons.1 hseen
      cases fuel with
      | zero => cases hfuel
      | succ fuel =>
          -- the scopes further out are other scopes than this one
          have hrest' : s.outwards fuel (id :: seen) parent = .ok rest := by
            refine ih (Nat.le_of_succ_le_succ hfuel) fun around haround hmem => ?_
            rcases List.mem_cons.1 hmem with rfl | hmem
            · exact (List.nodup_cons.1 hnodup).1 haround
            · exact hseen around haround hmem
          simp [outwards, hid, hscope, hparent, hrest', Except.map]

end Outward

/-- **The walk answers exactly where there is a way outwards**, with that way. -/
theorem ancestors_eq_ok_iff (hid : id ≠ .outside) :
    s.ancestors id = .ok chain ↔ s.Outward id chain := by
  constructor
  · intro h
    exact outward_of_ancestors h hid
  · intro h
    rw [ancestors, if_neg hid]
    refine h.outwards_eq (Nat.le_succ_of_le ?_) (by simp)
    exact length_le_size h.nodup h.mem_scopes

/-! ### The check -/

/-- **The facts of a store fit together.** -/
structure WellFormed (s : Store) : Prop where
  /-- Every symbol is declared in a scope that is there. -/
  symbol : ∀ (id : SymbolId) (symbol : Symbol), s.symbols[id]? = some symbol →
    symbol.scope ∈ s.scopes
  /-- From every scope there is a way outwards. -/
  outward : ∀ id ∈ s.scopes, ∃ chain, s.Outward id chain
  /-- A scope of the text lies in its parent, if that is one too. -/
  nested : ∀ (id : ScopeId) (scope : Scope) (around : ScopeId) (parent : Scope),
    s.scopes[id]? = some scope → scope.parent = some around → s.scopes[around]? = some parent →
    scope.fromMetadata = false → parent.fromMetadata = false → parent.span.Covers scope.span
  /-- Every type declaration belongs to a type. -/
  type : ∀ (id : SymbolId) (decl : TypeDecl), s.types[id]? = some decl →
    ∃ symbol, s.symbols[decl.id]? = some symbol ∧ symbol.kind = .type
  /-- Every type parameter belongs to a symbol that is there. -/
  typeParam : ∀ (id : SymbolId) (param : TypeParam), s.typeParams[id]? = some param →
    param.owner ∈ s.symbols

theorem checkSymbol_eq_ok_iff {symbol : Symbol} :
    s.checkSymbol symbol = .ok () ↔ symbol.scope ∈ s.scopes := by
  rw [checkSymbol]
  split <;> simp_all

theorem checkNesting_eq_ok_iff {scope parent : Scope} :
    checkNesting scope parent = .ok () ↔
      (scope.fromMetadata = false → parent.fromMetadata = false →
        parent.span.Covers scope.span) := by
  rw [checkNesting]
  cases scope.fromMetadata <;> cases parent.fromMetadata <;> simp

theorem checkType_eq_ok_iff {decl : TypeDecl} :
    s.checkType decl = .ok () ↔
      ∃ symbol, s.symbols[decl.id]? = some symbol ∧ symbol.kind = .type := by
  rw [checkType]
  cases s.symbols[decl.id]? with
  | none => simp
  | some symbol =>
      dsimp only
      split <;> simp_all

theorem checkTypeParam_eq_ok_iff {param : TypeParam} :
    s.checkTypeParam param = .ok () ↔ param.owner ∈ s.symbols := by
  rw [checkTypeParam]
  split <;> simp_all

/-- A scope passes when it has a way outwards and lies in its parent. -/
theorem checkScope_eq_ok_iff {scope : Scope} (hscope : s.scopes[scope.id]? = some scope)
    (hid : scope.id ≠ .outside) :
    s.checkScope scope = .ok () ↔
      (∃ chain, s.Outward scope.id chain) ∧
        ∀ around parent, scope.parent = some around → s.scopes[around]? = some parent →
          scope.fromMetadata = false → parent.fromMetadata = false →
          parent.span.Covers scope.span := by
  rw [checkScope, Answer.bind_eq_ok]
  simp only [ancestors_eq_ok_iff hid]
  rw [exists_and_right]
  refine and_congr_right fun hreaches => ?_
  obtain ⟨chain, hchain⟩ := hreaches
  cases hparent : scope.parent with
  | none => simp
  | some around =>
      obtain ⟨rest, hrest⟩ := hchain.of_parent hscope hparent
      obtain ⟨parent, haround⟩ := hrest.exists_scope
      dsimp only
      rw [haround]
      dsimp only
      rw [checkNesting_eq_ok_iff]
      constructor
      · intro h around' parent' haround' hparent'
        cases haround'
        rw [haround] at hparent'
        cases hparent'
        exact h
      · intro h
        exact h around parent rfl haround

theorem check_eq_ok_iff :
    s.check = .ok () ↔
      (∀ symbol ∈ s.symbols.values, s.checkSymbol symbol = .ok ()) ∧
        (∀ scope ∈ s.scopes.values, s.checkScope scope = .ok ()) ∧
        (∀ decl ∈ s.types.values, s.checkType decl = .ok ()) ∧
        ∀ param ∈ s.typeParams.values, s.checkTypeParam param = .ok () := by
  simp only [check, Answer.bind_eq_ok, Unique.exists_iff]
  exact and_congr Answer.forM_eq_ok
    (and_congr Answer.forM_eq_ok (and_congr Answer.forM_eq_ok Answer.forM_eq_ok))

/-- **The check succeeds exactly when the facts fit together.** -/
theorem Built.check_eq_ok_iff_wellFormed (hs : s.Built) (hout : ScopeId.outside ∉ s.scopes) :
    s.check = .ok () ↔ s.WellFormed := by
  -- a scope is kept under its own number, and none has the number of the place outside
  have hscope : ∀ {id : ScopeId} {scope : Scope}, s.scopes[id]? = some scope →
      scope.id = id ∧ (s.checkScope scope = .ok () ↔ (∃ chain, s.Outward id chain) ∧
        ∀ around parent, scope.parent = some around → s.scopes[around]? = some parent →
          scope.fromMetadata = false → parent.fromMetadata = false →
          parent.span.Covers scope.span) := by
    intro id scope hscope
    obtain rfl := hs.indexed.scope_id id scope hscope
    refine ⟨rfl, checkScope_eq_ok_iff hscope fun hid => hout ?_⟩
    rw [← hid]
    exact mem_scopes_of_getElem? hscope
  simp only [check_eq_ok_iff, Table.mem_values, forall_exists_index, checkSymbol_eq_ok_iff,
    checkType_eq_ok_iff, checkTypeParam_eq_ok_iff]
  constructor
  · rintro ⟨hsymbols, hscopes, htypes, hparams⟩
    refine ⟨fun id symbol h => hsymbols symbol id h, ?_, ?_, fun id decl h => htypes decl id h,
      fun id param h => hparams param id h⟩
    · intro id hid
      obtain ⟨scope, hid⟩ :=
        Option.isSome_iff_exists.1 (Std.ExtTreeMap.mem_iff_isSome_getElem?.1 hid)
      exact ((hscope hid).2.1 (hscopes scope id hid)).1
    · intro id scope around parent hid
      exact ((hscope hid).2.1 (hscopes scope id hid)).2 around parent
  · intro h
    refine ⟨fun symbol id hid => h.symbol id symbol hid, ?_, fun decl id hid => h.type id decl hid,
      fun param id hid => h.typeParam id param hid⟩
    intro scope id hid
    refine (hscope hid).2.2 ⟨h.outward id (mem_scopes_of_getElem? hid), fun around parent => ?_⟩
    exact h.nested id scope around parent hid

/-- **What the check and the walk outwards decide.**  The check succeeds exactly on the stores whose
facts fit together.  Outside every scope there are no scopes around.  From everywhere else the walk
outwards comes to an end; it succeeds exactly where there is a way outwards, and then it is that
way, which meets every scope once. -/
theorem check_and_ancestors_decide (s : Store) :
    (s.Built → ScopeId.outside ∉ s.scopes → (s.check = .ok () ↔ s.WellFormed)) ∧
      s.ancestors .outside = .ok [] ∧
      ∀ id, id ≠ ScopeId.outside →
        s.Climbs [] id (s.ancestors id) ∧
          ((∃ chain, s.ancestors id = .ok chain) ↔ ∃ chain, s.Outward id chain) ∧
          ∀ chain, s.ancestors id = .ok chain → s.Outward id chain ∧ chain.Nodup := by
  refine ⟨fun hs hout => hs.check_eq_ok_iff_wellFormed hout, rfl, fun id hid => ?_⟩
  refine ⟨climbs_ancestors hid, ?_, fun chain h => ?_⟩
  · simp only [ancestors_eq_ok_iff hid]
  · have hway := (ancestors_eq_ok_iff hid).1 h
    exact ⟨hway, hway.nodup⟩

/-- A generic class in a namespace of the text, and a scope of metadata inside it. -/
def outline : Store :=
  empty.insertScope { id := ⟨2⟩, kind := .type, span := ⟨5, 5⟩, parent := some ⟨1⟩,
                      fromMetadata := true }
    |>.insertScope { id := ⟨1⟩, kind := .type, span := ⟨10, 40⟩, parent := some ⟨0⟩,
                     owner := some ⟨0⟩ }
    |>.insertScope { id := ⟨0⟩, kind := .nameSpace, span := ⟨0, 90⟩ }
    |>.insertSymbol { id := ⟨0⟩, kind := .type, name := "Box", scope := ⟨0⟩, arity := 1 }
    |>.insertType { id := ⟨0⟩, kind := .classType }
    |>.insertTypeParam { id := ⟨1⟩, owner := ⟨0⟩, ordinal := 0 }

/-- The check succeeds, so its facts fit together; and the walk from the innermost scope is the way
outwards. -/
theorem check_and_ancestors_decide_outline :
    outline.check = .ok () ∧ outline.WellFormed ∧
      outline.ancestors ⟨2⟩ = .ok [⟨2⟩, ⟨1⟩, ⟨0⟩] ∧ outline.Outward ⟨2⟩ [⟨2⟩, ⟨1⟩, ⟨0⟩] := by
  have hbuilt : outline.Built :=
    .insertTypeParam _ (.insertType _ (.insertSymbol _ (.insertScope _ (.insertScope _
      (.insertScope _ .empty)))))
  have hcheck : outline.check = .ok () := rfl
  have hancestors : outline.ancestors ⟨2⟩ = .ok [⟨2⟩, ⟨1⟩, ⟨0⟩] := rfl
  obtain ⟨hdecides, -, hwalk⟩ := check_and_ancestors_decide outline
  exact ⟨hcheck, (hdecides hbuilt (by decide)).1 hcheck, hancestors,
    ((hwalk ⟨2⟩ (by decide)).2.2 _ hancestors).1⟩

/-- Outside every scope the question succeeds, although there is no scope and no way outwards. -/
theorem ancestors_outside_of_no_way :
    empty.ancestors .outside = .ok [] ∧ ¬ ∃ chain, empty.Outward .outside chain := by
  refine ⟨rfl, ?_⟩
  rintro ⟨chain, hchain⟩
  obtain ⟨scope, hscope⟩ := hchain.exists_scope
  simp [empty] at hscope

end Ambit.Store
