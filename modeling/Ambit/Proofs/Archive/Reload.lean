/-
What a store answers after it was restored from its archive.

Restoring inserts the facts in the order of their identities, whatever the order was in which they
came into the store.  Most answers do not depend on that order.  Two do.  Of several scopes with one
owner the body is the one that was inserted last, so after restoring it is the last in the order of
numbers.  And the list of type parameters of an owner keeps the order of insertion among equal
places, and keeps what has moved to another owner; after restoring it has what the owner has, in the
order of places and then of numbers.  A store that has these answers already is settled, and exactly
the settled stores answer everything after restoring as before.

Main definitions:

* `Ambit.Store.lastBody?` — the last scope that a symbol owns;
* `Ambit.Store.paramsInOrder` — the type parameters that a symbol owns, in their order;
* `Ambit.Store.Settled` — the answers do not depend on the order of insertion;
* `Ambit.Store.SameAnswers` — two stores answer everything alike.

Main results:

* `Ambit.Store.getElem?_bodies_foldl_insertScope` — the bodies after scopes are inserted in order;
* `Ambit.Store.pairwise_before_foldl_insertTypeParam` — the lists after type parameters are;
* `Ambit.Store.Built.restore_answers_iff` — **what a store answers after it was restored, and when
  this is what it answered before**;
* `Ambit.Store.restore_exchanges_imports` — a store that answers differently.
-/

import Ambit.Proofs.Alike
import Ambit.Proofs.Archive.Restore
import Ambit.Proofs.Store.Identity
import Ambit.Proofs.Store.TypeParams

set_option relaxedAutoImplicit false
set_option autoImplicit false

namespace Ambit.Store

variable {s r : Store}

/-! ### Bodies -/

/-- The last scope that a symbol owns, in the order of their numbers. -/
def lastBody? (s : Store) (owner : SymbolId) : Option Scope :=
  (s.scopes.values.filter fun scope => scope.owner == some owner).getLast?

theorem unlistScope_of_fresh {id : ScopeId} (h : s.scopes[id]? = none) : s.unlistScope id = s := by
  rw [unlistScope, h]

theorem getElem?_scopes_foldl_insertScope {xs : List Scope} {id : ScopeId}
    (h : ∀ x ∈ xs, x.id ≠ id) : (xs.foldl insertScope empty).scopes[id]? = none := by
  have hscopes : (xs.foldl insertScope empty).scopes =
      (xs.map fun x => (x.id, x)).foldl (fun t e => t.insert e.1 e.2) ∅ := by
    rw [List.foldl_map]
    exact congrArg Facts.scopes (Archive.facts_foldl_insertScope xs empty)
  have hother : ∀ e ∈ xs.map fun x => (x.id, x), e.1 ≠ id := by
    intro e he
    obtain ⟨x, hx, rfl⟩ := List.mem_map.1 he
    exact h x hx
  rw [hscopes, Table.getElem?_foldl_insert_of_forall_ne hother]
  exact Std.ExtTreeMap.getElem?_empty

/-- **When different scopes are inserted, the body of a symbol is the last one that it owns.** -/
theorem getElem?_bodies_foldl_insertScope {xs : List Scope}
    (hids : xs.Pairwise fun a b => a.id ≠ b.id) (owner : SymbolId) :
    (xs.foldl insertScope empty).bodies[owner]? =
      (xs.filter fun scope => scope.owner == some owner).getLast?.map Scope.id := by
  induction xs using List.reverseRecOn with
  | nil => simp [empty]
  | append_singleton xs x ih =>
      obtain ⟨hxs, -, hx⟩ := List.pairwise_append.1 hids
      -- the scope is new, so nothing is taken out before it is inserted
      have hfresh : (xs.foldl insertScope empty).scopes[x.id]? = none :=
        getElem?_scopes_foldl_insertScope fun a ha => hx a ha x (List.mem_singleton_self x)
      rw [List.foldl_append, List.foldl_cons, List.foldl_nil, bodies_insertScope,
        unlistScope_of_fresh hfresh, List.filter_append]
      cases howner : x.owner with
      | none => simp [howner, ih hxs]
      | some owner' =>
          dsimp only
          rw [Std.ExtTreeMap.getElem?_insert]
          by_cases heq : owner' = owner
          · rw [if_pos (Std.LawfulEqCmp.compare_eq_iff_eq.2 heq)]
            simp [howner, heq]
          · rw [if_neg (mt Std.LawfulEqCmp.compare_eq_iff_eq.1 heq), ih hxs]
            simp [howner, heq]

/-! ### Lists of type parameters -/

/-- The type parameters that a symbol owns, in the order of their places, and at one place in the
order of their numbers. -/
def paramsInOrder (s : Store) (owner : SymbolId) : List SymbolId :=
  sortedIn s.typeParams
    ((s.typeParams.values.filter fun param => param.owner == owner).map TypeParam.id)

/-- One type parameter comes before another: its place is before, or it is the same place and its
number is before. -/
def Before (typeParams : SymbolTable TypeParam) (a b : SymbolId) : Prop :=
  placeIn typeParams a < placeIn typeParams b ∨
    placeIn typeParams a = placeIn typeParams b ∧ a.val < b.val

theorem Before.antisymm {typeParams : SymbolTable TypeParam} {a b : SymbolId}
    (hab : Before typeParams a b) : ¬ Before typeParams b a := by
  simp only [Before, UInt32.lt_iff_toNat_lt, ← UInt32.toNat_inj] at hab ⊢
  omega

theorem eq_of_pairwise_before {typeParams : SymbolTable TypeParam} {xs ys : List SymbolId}
    (hxs : xs.Pairwise (Before typeParams)) (hys : ys.Pairwise (Before typeParams))
    (h : ∀ a, a ∈ xs ↔ a ∈ ys) : xs = ys := by
  have hirrefl : Std.Irrefl (Before typeParams) := ⟨fun a ha => ha.antisymm ha⟩
  have hantisymm : Std.Antisymm (Before typeParams) := ⟨fun a b hab hba => absurd hba hab.antisymm⟩
  exact hxs.eq_of_mem_iff hys h

/-- If what has one place is in the order of numbers, sorting by places gives this order. -/
theorem pairwise_before_sortedIn {typeParams : SymbolTable TypeParam} {listed : List SymbolId}
    (hties : listed.Pairwise fun a b => placeIn typeParams a = placeIn typeParams b →
      a.val < b.val) :
    (sortedIn typeParams listed).Pairwise (Before typeParams) := by
  have hsorted := pairwise_sortedIn typeParams listed
  rw [List.pairwise_iff_forall_sublist] at hsorted hties ⊢
  intro a b hab
  rcases UInt32.lt_or_eq_of_le (hsorted hab) with hlt | htie
  · exact Or.inl hlt
  · -- two of one place stand in the list as they did before it was sorted
    have htied := hab.filter fun c => placeIn typeParams c == placeIn typeParams b
    rw [filter_sortedIn] at htied
    simp only [List.filter_cons, List.filter_nil, htie, beq_self_eq_true, if_true] at htied
    exact Or.inr ⟨htie, hties (htied.trans List.filter_sublist) htie⟩

/-- **When type parameters are inserted in the order of their numbers, the lists come out in
order.** -/
theorem pairwise_before_foldl_insertTypeParam {xs : List TypeParam}
    (hids : xs.Pairwise fun a b => a.id.val < b.id.val) (owner : SymbolId) :
    ((xs.foldl insertTypeParam empty).typeParamsOf owner).Pairwise
      (Before (xs.foldl insertTypeParam empty).typeParams) := by
  induction xs using List.reverseRecOn with
  | nil => simp [typeParamsOf, empty]
  | append_singleton xs p ih =>
      obtain ⟨hxs, -, hp⟩ := List.pairwise_append.1 hids
      rw [List.foldl_append, List.foldl_cons, List.foldl_nil]
      have hlists := listsInserted_foldl xs
      have ih := ih hxs
      generalize xs.foldl insertTypeParam empty = s at hlists ih
      -- what is listed has smaller numbers, so its places are as before
      have hsmaller : ∀ a ∈ s.typeParamsOf owner, a.val < p.id.val := by
        intro a ha
        obtain ⟨q, hq, rfl, -⟩ := (hlists.mem_iff owner a).1 ha
        exact hp q hq p (List.mem_singleton_self p)
      have hplace : ∀ a ∈ s.typeParamsOf owner,
          placeIn (s.insertTypeParam p).typeParams a = placeIn s.typeParams a := by
        intro a ha
        have hne : p.id ≠ a := by
          rintro rfl
          exact UInt32.lt_irrefl _ (hsmaller _ ha)
        rw [placeIn, placeIn, typeParams_insertTypeParam, if_neg hne]
      have hold : (s.typeParamsOf owner).Pairwise (Before (s.insertTypeParam p).typeParams) := by
        refine ih.imp_of_mem fun {a b} ha hb hab => ?_
        rw [Before, hplace a ha, hplace b hb]
        exact hab
      rw [typeParamsOf_insertTypeParam]
      split
      · have hnew : withListed (s.typeParamsOf owner) p.id = s.typeParamsOf owner ++ [p.id] := by
          refine if_neg fun hmem => ?_
          exact UInt32.lt_irrefl _ (hsmaller p.id (List.contains_iff_mem.1 hmem))
        rw [hnew]
        refine pairwise_before_sortedIn
          (List.pairwise_append.2 ⟨?_, List.pairwise_singleton _ _, ?_⟩)
        · refine hold.imp fun {a b} hab htie => ?_
          rcases hab with hlt | ⟨-, hlt⟩
          · rw [htie] at hlt
            exact absurd hlt (UInt32.lt_irrefl _)
          · exact hlt
        · intro a ha b hb _
          obtain rfl := List.mem_singleton.1 hb
          exact hsmaller a ha
      · exact hold

theorem Keyed.pairwise_before_paramsInOrder (h : s.Keyed) (owner : SymbolId) :
    (s.paramsInOrder owner).Pairwise (Before s.typeParams) := by
  refine pairwise_before_sortedIn (List.pairwise_map.2 ?_)
  refine ((Table.pairwise_values h.typeParam_id).filter _).imp fun hab _ => ?_
  exact SymbolId.compare_eq_lt.1 hab

theorem mem_paramsInOrder {owner id : SymbolId} :
    id ∈ s.paramsInOrder owner ↔ ∃ p ∈ s.typeParams.values, p.id = id ∧ p.owner = owner := by
  rw [paramsInOrder, (perm_sortedIn _ _).mem_iff, List.mem_map]
  simp only [List.mem_filter, beq_iff_eq]
  constructor
  · rintro ⟨p, ⟨hp, howner⟩, hid⟩
    exact ⟨p, hp, hid, howner⟩
  · rintro ⟨p, hp, hid, howner⟩
    exact ⟨p, ⟨hp, howner⟩, hid⟩

/-! ### Rebuilding -/

/-- A pass that leaves something as it is in every step leaves it as it is. -/
theorem foldl_kept {α β : Type} (f : Store → α → Store) (get : Store → β)
    (hstep : ∀ s x, get (f s x) = get s) (xs : List α) (s : Store) :
    get (xs.foldl f s) = get s := by
  induction xs generalizing s with
  | nil => rfl
  | cons x xs ih => rw [List.foldl_cons, ih, hstep]

/-- The lists only depend on the lists and the type parameters that are there before. -/
theorem paramLists_foldl_insertTypeParam {s s' : Store} (xs : List TypeParam)
    (htypeParams : s'.typeParams = s.typeParams) (hparamLists : s'.paramLists = s.paramLists) :
    (xs.foldl insertTypeParam s').paramLists = (xs.foldl insertTypeParam s).paramLists := by
  induction xs generalizing s s' with
  | nil => exact hparamLists
  | cons x xs ih =>
      refine ih ?_ ?_
      · rw [insertTypeParam, insertTypeParam, htypeParams]
      · rw [insertTypeParam, insertTypeParam, htypeParams, hparamLists]

theorem bodies_rebuild (a : Archive) :
    a.rebuild.bodies = (a.scopes.foldl insertScope empty).bodies := by
  rw [Archive.rebuild,
    foldl_kept (fun s (r : WellKnown × SymbolId) => register s r.1 r.2) Store.bodies fun _ _ => rfl,
    foldl_kept insertInterception Store.bodies fun _ _ => rfl,
    foldl_kept insertSignature Store.bodies fun _ _ => rfl,
    foldl_kept insertTypeParam Store.bodies fun _ _ => rfl,
    foldl_kept insertType Store.bodies fun _ _ => rfl,
    foldl_kept insertSymbol Store.bodies bodies_insertSymbol]

theorem paramLists_rebuild (a : Archive) :
    a.rebuild.paramLists = (a.typeParams.foldl insertTypeParam empty).paramLists := by
  -- the passes before that of the type parameters neither have nor list any
  have hsymbol : ∀ s symbol, ((insertSymbol s symbol).typeParams,
      (insertSymbol s symbol).paramLists) = (s.typeParams, s.paramLists) := by
    intro s symbol
    rw [insertSymbol_eq]
  have hscope : ∀ s scope, ((insertScope s scope).typeParams, (insertScope s scope).paramLists) =
      (s.typeParams, s.paramLists) := by
    intro s scope
    rw [insertScope, unlistScope]
    cases s.scopes[scope.id]? with
    | none => rfl
    | some old => rfl
  have hbefore := foldl_kept insertType (fun s => (s.typeParams, s.paramLists)) (fun _ _ => rfl)
    a.types (a.symbols.foldl insertSymbol (a.scopes.foldl insertScope empty))
  rw [foldl_kept insertSymbol (fun s => (s.typeParams, s.paramLists)) hsymbol,
    foldl_kept insertScope (fun s => (s.typeParams, s.paramLists)) hscope] at hbefore
  rw [Archive.rebuild,
    foldl_kept (fun s (r : WellKnown × SymbolId) => register s r.1 r.2) Store.paramLists
      fun _ _ => rfl,
    foldl_kept insertInterception Store.paramLists fun _ _ => rfl,
    foldl_kept insertSignature Store.paramLists fun _ _ => rfl]
  exact paramLists_foldl_insertTypeParam a.typeParams (congrArg Prod.fst hbefore)
    (congrArg Prod.snd hbefore)

theorem Built.body?_rebuild (h : s.Built) (hversion : s.version = Archive.currentVersion)
    (owner : SymbolId) : s.archive.rebuild.body? owner = s.lastBody? owner := by
  have hids : s.scopes.values.Pairwise fun a b => a.id ≠ b.id := by
    refine (Table.pairwise_values h.indexed.scope_id).imp fun {a b} hab heq => ?_
    have hlt := ScopeId.compare_eq_lt.1 hab
    rw [heq] at hlt
    exact UInt32.lt_irrefl _ hlt
  have hbody : s.archive.rebuild.bodies[owner]? = (s.lastBody? owner).map Scope.id := by
    rw [bodies_rebuild]
    exact getElem?_bodies_foldl_insertScope hids owner
  have hscopes := scopes_of_facts (h.facts_rebuild hversion)
  cases hlast : s.lastBody? owner with
  | none =>
      rw [hlast] at hbody
      rw [body?, hbody]
      rfl
  | some scope =>
      have hmem : scope ∈ s.scopes.values := List.mem_of_mem_filter (List.mem_of_getLast? hlast)
      rw [hlast] at hbody
      rw [body?, hbody, hscopes]
      exact (Table.mem_values_iff h.indexed.scope_id).1 hmem

theorem Built.typeParamsOf_rebuild (h : s.Built) (owner : SymbolId) :
    s.archive.rebuild.typeParamsOf owner = s.paramsInOrder owner := by
  have hids : s.typeParams.values.Pairwise fun a b => a.id.val < b.id.val :=
    (Table.pairwise_values h.keyed.typeParam_id).imp SymbolId.compare_eq_lt.1
  have htypeParams : (s.typeParams.values.foldl Store.insertTypeParam Store.empty).typeParams =
      s.typeParams := by
    refine Eq.trans ?_ (Table.foldl_insert_values h.keyed.typeParam_id)
    exact congrArg Facts.typeParams
      (Archive.facts_foldl_insertTypeParam s.typeParams.values Store.empty)
  have hlisted : s.archive.rebuild.typeParamsOf owner =
      (s.typeParams.values.foldl Store.insertTypeParam Store.empty).typeParamsOf owner := by
    rw [typeParamsOf, typeParamsOf, paramLists_rebuild]
    rfl
  have hordered := pairwise_before_foldl_insertTypeParam hids owner
  rw [htypeParams] at hordered
  rw [hlisted]
  refine eq_of_pairwise_before hordered (h.keyed.pairwise_before_paramsInOrder owner) fun id => ?_
  rw [(listsInserted_foldl s.typeParams.values).mem_iff, mem_paramsInOrder]

/-! ### Answers after restoring -/

/-- The answers do not depend on the order in which facts were inserted: the body of a symbol is the
last scope that it owns, and its type parameters are those that it owns, in order. -/
structure Settled (s : Store) : Prop where
  body? : ∀ owner, s.body? owner = s.lastBody? owner
  typeParamsOf : ∀ owner, s.typeParamsOf owner = s.paramsInOrder owner

theorem Built.settled_rebuild (h : s.Built) (hversion : s.version = Archive.currentVersion) :
    s.archive.rebuild.Settled := by
  have hfacts := h.facts_rebuild hversion
  constructor
  · intro owner
    rw [h.body?_rebuild hversion, lastBody?, lastBody?, scopes_of_facts hfacts]
  · intro owner
    rw [h.typeParamsOf_rebuild, paramsInOrder, paramsInOrder, typeParams_of_facts hfacts]

/-- Two stores answer everything alike. -/
structure SameAnswers (s s' : Store) : Prop where
  symbolsIn : ∀ scope, s'.symbolsIn scope = s.symbolsIn scope
  childScopes : ∀ scope, s'.childScopes scope = s.childScopes scope
  body? : ∀ owner, s'.body? owner = s.body? owner
  typeParamsOf : ∀ owner, s'.typeParamsOf owner = s.typeParamsOf owner
  membersOf : ∀ type, s'.membersOf type = s.membersOf type
  typeMembers : ∀ signal t, s'.typeMembers signal t = s.typeMembers signal t
  lookup : ∀ signal options position,
    s'.lookup signal options position = s.lookup signal options position
  complete : ∀ text version signal options request,
    (⟨s', text, version⟩ : Snapshot).complete signal options request =
      (⟨s, text, version⟩ : Snapshot).complete signal options request

theorem Alike.sameAnswers (h : s.Alike r) (hchildren : r.childScopes = s.childScopes) :
    s.SameAnswers r where
  symbolsIn := congrFun h.symbolsIn
  childScopes := congrFun hchildren
  body? := congrFun h.body?
  typeParamsOf := congrFun h.typeParamsOf
  membersOf := congrFun h.membersOf
  typeMembers signal t := by rw [h.typeMembers]
  lookup signal options position := by rw [h.lookup]
  complete := h.complete

/-- **What a store answers after it was restored from its archive.**  Restoring succeeds.  The
symbols in a scope and of a name and the scopes in a scope are as before.  The body of a symbol is
now the last scope that it owns, and its type parameters are those that it owns, in order.  The
restored store answers everything as before exactly if the store was settled, and it is settled
itself, so that restoring again changes nothing. -/
theorem Built.restore_answers_iff (h : s.Built) (hversion : s.version = Archive.currentVersion)
    (hcheck : s.check = .ok ()) :
    ∃ r, s.archive.restore = .ok r ∧
      (∀ scope, r.symbolsIn scope = s.symbolsIn scope) ∧
      (∀ name, r.symbolsNamed name = s.symbolsNamed name) ∧
      (∀ scope, r.childScopes scope = s.childScopes scope) ∧
      (∀ owner, r.body? owner = s.lastBody? owner) ∧
      (∀ owner, r.typeParamsOf owner = s.paramsInOrder owner) ∧
      (s.SameAnswers r ↔ s.Settled) ∧ r.Settled := by
  have hfacts := h.facts_rebuild hversion
  have hindexed := (Archive.built_rebuild s.archive).indexed
  have hsymbols := symbolsIn_of_facts hfacts h.indexed hindexed
  have hnamed := symbolsNamed_of_facts hfacts h.indexed hindexed
  have hchildren := childScopes_of_facts hfacts h.indexed hindexed
  have hbody := h.body?_rebuild hversion
  have hparams := h.typeParamsOf_rebuild
  refine ⟨s.archive.rebuild, h.restore_archive hversion hcheck, congrFun hsymbols, congrFun hnamed,
    congrFun hchildren, hbody, hparams, ⟨fun hsame => ?_, fun hsettled => ?_⟩,
    h.settled_rebuild hversion⟩
  · exact ⟨fun owner => (hsame.body? owner).symm.trans (hbody owner),
      fun owner => (hsame.typeParamsOf owner).symm.trans (hparams owner)⟩
  · refine Alike.sameAnswers ⟨hfacts, hsymbols, ?_, ?_⟩ hchildren
    · funext owner
      rw [hbody, hsettled.body?]
    · funext owner
      rw [hparams, hsettled.typeParamsOf]

/-- A namespace with two bodies, of which the second in number was inserted first, and a scope that
imports it. -/
def splitNamespace : Store :=
  empty
    |>.insertScope { id := ⟨0⟩, kind := .nameSpace, span := ⟨0, 90⟩, imports := [⟨0⟩] }
    |>.insertScope
      { id := ⟨2⟩, kind := .nameSpace, span := ⟨50, 80⟩, parent := some ⟨0⟩, owner := some ⟨0⟩ }
    |>.insertScope
      { id := ⟨1⟩, kind := .nameSpace, span := ⟨10, 40⟩, parent := some ⟨0⟩, owner := some ⟨0⟩ }
    |>.insertSymbol { id := ⟨0⟩, kind := .nameSpace, name := "N", scope := ⟨0⟩ }
    |>.insertSymbol { id := ⟨1⟩, kind := .type, name := "A", scope := ⟨1⟩ }
    |>.insertSymbol { id := ⟨2⟩, kind := .type, name := "B", scope := ⟨2⟩ }

theorem built_splitNamespace : splitNamespace.Built :=
  .insertSymbol _ (.insertSymbol _ (.insertSymbol _ (.insertScope _ (.insertScope _
    (.insertScope _ .empty)))))

/-- After restoring it, the other body is imported: `A` cannot be named any more, and `B` can. -/
theorem restore_exchanges_imports :
    splitNamespace.Built ∧ splitNamespace.version = Archive.currentVersion ∧
      splitNamespace.check = .ok () ∧
      (splitNamespace.visibleSymbols .quiet {} 45).map (List.map Symbol.name) = .ok ["N", "A"] ∧
      (splitNamespace.archive.restore >>= fun r =>
        (r.visibleSymbols .quiet {} 45).map (List.map Symbol.name)) = .ok ["N", "B"] :=
  ⟨built_splitNamespace, rfl, rfl, rfl, rfl⟩

/-- When what was restored is restored again, it answers everything as before. -/
theorem restore_answers_iff_again :
    splitNamespace.archive.rebuild.Built ∧
      splitNamespace.archive.rebuild.version = Archive.currentVersion ∧
      splitNamespace.archive.rebuild.check = .ok () ∧
      ∃ r, splitNamespace.archive.rebuild.archive.restore = .ok r ∧
        splitNamespace.archive.rebuild.SameAnswers r := by
  have hbuilt : splitNamespace.archive.rebuild.Built := Archive.built_rebuild _
  have hversion : splitNamespace.archive.rebuild.version = Archive.currentVersion := rfl
  have hcheck : splitNamespace.archive.rebuild.check = .ok () := rfl
  have hsettled : splitNamespace.archive.rebuild.Settled :=
    built_splitNamespace.settled_rebuild rfl
  obtain ⟨r, hrestore, -, -, -, -, -, hsame, -⟩ := hbuilt.restore_answers_iff hversion hcheck
  exact ⟨hbuilt, hversion, hcheck, r, hrestore, hsame.2 hsettled⟩

end Ambit.Store
