/-
The footing of code, read off the scopes around it.

On the way outwards three marks are switched at different moments: inside an attribute argument
there is no instance, on entering it; after a type or a static function there is none either, on
leaving it; after a static lambda or local function no variable can be captured, on leaving it; and
inside the operand of `nameof` neither is needed, on entering it.  None of the marks is ever
switched back.  So the footing inside the `k`-th scope can be read off the scopes up to it without
following the walk, and with it the verdicts that depend on it.

Main definitions:

* `Ambit.Store.EndsInstance`, `Ambit.Store.EndsCapture` — leaving the scope takes away the instance,
  or the variables around it;
* `Ambit.Panorama.entriesFrom` — the entries of the `k`-th scope.

Main results:

* `Ambit.Store.hasInstance_footingAfter`, `Ambit.Store.mayCapture_footingAfter`,
  `Ambit.Store.inNameOf_footingAfter` — the marks after some scopes;
* `Ambit.Store.instanceWithin_eq_true_iff`, `Ambit.Store.instanceWithin_start_iff` — when there is
  an instance of the innermost type;
* `Ambit.Store.lookup_staticContext_iff` — **static context and captures, exactly**.
-/

import Ambit.Proofs.Lookup.Walk

set_option relaxedAutoImplicit false
set_option autoImplicit false

namespace Ambit

/-- The entries of the `k`-th scope around the position. -/
def Panorama.entriesFrom (p : Panorama) (k : ℕ) : List Entry :=
  match p.groups[k]? with
  | some (_, groups) => groups.flatten
  | none => []

namespace Store

variable {s : Store} {f : Footing}

/-- Leaving the scope takes away the instance: it is a type or the body of a static function. -/
def EndsInstance (s : Store) (scope : Scope) : Prop :=
  scope.kind = .type ∨ s.isStaticFunction scope = true

/-- Leaving the scope takes away the variables around it: it is the body of a static lambda or of a
static local function. -/
def EndsCapture (s : Store) (scope : Scope) : Prop :=
  (scope.kind = .lambda ∨ scope.kind = .localFunction) ∧ s.isStaticFunction scope = true

/-! ### One scope -/

theorem hasInstance_enter {scope : Scope} :
    (f.enter scope).hasInstance = true ↔
      f.hasInstance = true ∧ scope.kind ≠ .attributeArgument := by
  rw [Footing.enter]
  split <;> simp_all

theorem inNameOf_enter {scope : Scope} :
    (f.enter scope).inNameOf = true ↔ f.inNameOf = true ∨ scope.kind = .nameOf := by
  rw [Footing.enter]
  split <;> simp_all

theorem mayCapture_enter (scope : Scope) : (f.enter scope).mayCapture = f.mayCapture := by
  rw [Footing.enter]
  split <;> rfl

theorem hasInstance_leave {scope : Scope} :
    (s.leave f scope).hasInstance = true ↔ f.hasInstance = true ∧ ¬ s.EndsInstance scope := by
  simp [leave, EndsInstance]

theorem mayCapture_leave {scope : Scope} :
    (s.leave f scope).mayCapture = true ↔ f.mayCapture = true ∧ ¬ s.EndsCapture scope := by
  simp only [leave, EndsCapture]
  cases scope.kind <;> simp

/-! ### Several scopes -/

/-- There is an instance after some scopes exactly when there was one before and none of them takes
it away, on entering it or on leaving it. -/
theorem hasInstance_footingAfter {scopes : List Scope} :
    (s.footingAfter f scopes).hasInstance = true ↔
      f.hasInstance = true ∧
        ∀ scope ∈ scopes, ¬ s.EndsInstance scope ∧ scope.kind ≠ .attributeArgument := by
  induction scopes generalizing f with
  | nil => simp [footingAfter]
  | cons scope scopes ih =>
      rw [footingAfter, ih, hasInstance_leave, hasInstance_enter, List.forall_mem_cons]
      tauto

/-- Variables can be captured after some scopes exactly when they could before and none of the
scopes takes them away. -/
theorem mayCapture_footingAfter {scopes : List Scope} :
    (s.footingAfter f scopes).mayCapture = true ↔
      f.mayCapture = true ∧ ∀ scope ∈ scopes, ¬ s.EndsCapture scope := by
  induction scopes generalizing f with
  | nil => simp [footingAfter]
  | cons scope scopes ih =>
      rw [footingAfter, ih, mayCapture_leave, mayCapture_enter, List.forall_mem_cons, and_assoc]

/-- After some scopes the code only names symbols exactly when it did before or one of the scopes is
the operand of `nameof`. -/
theorem inNameOf_footingAfter {scopes : List Scope} :
    (s.footingAfter f scopes).inNameOf = true ↔
      f.inNameOf = true ∨ ∃ scope ∈ scopes, scope.kind = .nameOf := by
  induction scopes generalizing f with
  | nil => simp [footingAfter]
  | cons scope scopes ih =>
      have hleave : (s.leave (f.enter scope) scope).inNameOf = (f.enter scope).inNameOf := rfl
      rw [footingAfter, ih, hleave, inNameOf_enter, List.exists_mem_cons_iff, or_assoc]

/-- There is an instance of the innermost type exactly when the footing on reaching it has one. -/
theorem instanceWithin_eq_true_iff {scopes : List Scope} :
    s.instanceWithin f scopes = true ↔
      ∃ (k : ℕ) (scope : Scope), scopes[k]? = some scope ∧ scope.kind = .type ∧
        (∀ inner ∈ scopes.take k, inner.kind ≠ .type) ∧
        (s.footingAfter f (scopes.take k)).hasInstance = true := by
  induction scopes generalizing f with
  | nil => simp [instanceWithin]
  | cons scope scopes ih =>
      -- the innermost type is the first scope, or it is the innermost one of the others
      rw [instanceWithin]
      split
      · rename_i htype
        constructor
        · intro h
          exact ⟨0, scope, rfl, htype, by simp, h⟩
        · rintro ⟨k, scope', hk, -, hinner, h⟩
          cases k with
          | zero => exact h
          | succ k => exact absurd htype (hinner scope (by simp))
      · rename_i htype
        rw [ih]
        constructor
        · rintro ⟨k, scope', hk, htype', hinner, h⟩
          refine ⟨k + 1, scope', hk, htype', ?_, h⟩
          rw [List.take_succ_cons, List.forall_mem_cons]
          exact ⟨htype, hinner⟩
        · rintro ⟨k, scope', hk, htype', hinner, h⟩
          cases k with
          | zero =>
              cases hk
              exact absurd htype' htype
          | succ k =>
              rw [List.take_succ_cons, List.forall_mem_cons] at hinner
              exact ⟨k, scope', hk, htype', hinner.2, h⟩

/-- From the start, there is an instance of the innermost type exactly when no scope inside it takes
the instance away. -/
theorem instanceWithin_start_iff {scopes : List Scope} :
    s.instanceWithin {} scopes = true ↔
      ∃ (k : ℕ) (scope : Scope), scopes[k]? = some scope ∧ scope.kind = .type ∧
        ∀ inner ∈ scopes.take k, inner.kind ≠ .type ∧ s.isStaticFunction inner = false ∧
          inner.kind ≠ .attributeArgument := by
  rw [instanceWithin_eq_true_iff]
  refine exists₂_congr fun k scope => and_congr_right fun _ => and_congr_right fun _ => ?_
  rw [hasInstance_footingAfter]
  simp only [EndsInstance]
  constructor
  · rintro ⟨htype, -, hall⟩ inner hinner
    obtain ⟨hends, hattribute⟩ := hall inner hinner
    exact ⟨htype inner hinner, Bool.eq_false_iff.2 fun hstatic => hends (Or.inr hstatic),
      hattribute⟩
  · intro hall
    refine ⟨fun inner hinner => (hall inner hinner).1, trivial, fun inner hinner => ?_⟩
    obtain ⟨htype, hstatic, hattribute⟩ := hall inner hinner
    refine ⟨?_, hattribute⟩
    rintro (hends | hends)
    · exact htype hends
    · rw [hstatic] at hends
      cases hends

/-! ### Inside the `k`-th scope -/

section Inside

variable {scopes : List Scope} {k : ℕ} {scope : Scope}

theorem exists_mem_take_succ (hk : scopes[k]? = some scope) {P : Scope → Prop} :
    (∃ inner ∈ scopes.take (k + 1), P inner) ↔ (∃ inner ∈ scopes.take k, P inner) ∨ P scope := by
  rw [List.take_add_one, hk]
  simp [or_and_right, exists_or]

/-- Inside the `k`-th scope there is no instance exactly when one was left behind or the code is
inside an attribute argument. -/
theorem not_hasInstance_inside (hk : scopes[k]? = some scope) :
    ¬ ((s.footingAfter {} (scopes.take k)).enter scope).hasInstance = true ↔
      (∃ inner ∈ scopes.take k, s.EndsInstance inner) ∨
        ∃ inner ∈ scopes.take (k + 1), inner.kind = .attributeArgument := by
  rw [hasInstance_enter, hasInstance_footingAfter, exists_mem_take_succ hk]
  constructor
  · intro h
    by_contra hnone
    push Not at hnone
    exact h ⟨⟨rfl, fun inner hinner => ⟨hnone.1 inner hinner, hnone.2.1 inner hinner⟩⟩, hnone.2.2⟩
  · rintro (⟨inner, hinner, hends⟩ | ⟨inner, hinner, hkind⟩ | hkind) ⟨⟨-, hall⟩, hscope⟩
    · exact (hall inner hinner).1 hends
    · exact (hall inner hinner).2 hkind
    · exact hscope hkind

/-- Inside the `k`-th scope no variable can be captured exactly when a scope that forbids it was
left behind. -/
theorem not_mayCapture_inside (scope : Scope) :
    ¬ ((s.footingAfter {} (scopes.take k)).enter scope).mayCapture = true ↔
      ∃ inner ∈ scopes.take k, s.EndsCapture inner := by
  rw [mayCapture_enter, mayCapture_footingAfter]
  simp

/-- Inside the `k`-th scope the code only names symbols exactly when that scope or one inside it is
the operand of `nameof`. -/
theorem inNameOf_inside (hk : scopes[k]? = some scope) :
    ((s.footingAfter {} (scopes.take k)).enter scope).inNameOf = true ↔
      ∃ inner ∈ scopes.take (k + 1), inner.kind = .nameOf := by
  rw [inNameOf_enter, inNameOf_footingAfter, exists_mem_take_succ hk]
  simp

end Inside

/-! ### Verdicts that depend on the footing -/

variable {o : Outlook} {symbol : Symbol} {v : Verdict}

theorem requiring_eq_excluded_iff {holds : Bool} {reason : Exclusion} :
    Verdict.requiring holds reason = .excluded reason ↔ holds = false := by
  cases holds <;> simp [Verdict.requiring]

/-- An instance member that can be accessed is excluded exactly when there is no instance and the
code does more than name it. -/
theorem scopingVerdict_instance_iff (hsymbol : symbol.isInstanceMember = true)
    (haccess : s.canAccess o.signal o.site symbol = .ok true)
    (h : s.scopingVerdict o f symbol = .ok v) :
    v = .excluded .instanceInStaticContext ↔ ¬ f.hasInstance = true ∧ ¬ f.inNameOf = true := by
  have hmember : symbol.kind.isMember = true := by
    rw [Symbol.isInstanceMember, Bool.and_eq_true] at hsymbol
    exact hsymbol.1
  rw [scopingVerdict_of_isMember hmember] at h
  obtain ⟨b, hb, rfl⟩ := memberVerdict_eq_ok_iff.1 h
  rw [haccess] at hb
  cases hb
  rw [if_pos rfl, requiring_eq_excluded_iff, hsymbol]
  simp

/-- A variable that is not a constant and not declared further on is excluded as captured exactly
when it cannot be captured and the code does more than name it. -/
theorem scopingVerdict_captured_iff (hkind : symbol.kind.isCapturable = true)
    (hconstant : symbol.isConstant = false) (h : s.scopingVerdict o f symbol = .ok v)
    (hlater : v ≠ .excluded .declaredLater) :
    v = .excluded .capturedInStaticFunction ↔ ¬ f.mayCapture = true ∧ ¬ f.inNameOf = true := by
  have hmember : symbol.kind.isMember = false := by
    by_contra hmember
    rw [(kind_of_isMember (Bool.of_not_eq_false hmember)).2] at hkind
    cases hkind
  rw [scopingVerdict, hkind, hconstant, hmember] at h
  split at h
  · cases h
    exact absurd rfl hlater
  · split at h
    · rename_i hcapture
      cases h
      simpa using hcapture
    · rename_i hcapture
      cases h
      simpa using hcapture

/-! ### Static context and captures, exactly -/

theorem exists_group_of_mem_entriesFrom {p : Panorama} {k : ℕ} {e : Entry}
    (he : e ∈ p.entriesFrom k) :
    ∃ level, p.groups[k]? = some level ∧ ∃ group ∈ level.2, e ∈ group := by
  rw [Panorama.entriesFrom] at he
  split at he
  · rename_i id groups hk
    exact ⟨(id, groups), hk, List.mem_flatten.1 he⟩
  · simp at he

/-- An entry of the `k`-th scope that is not shadowed carries the verdict of its symbol on the
footing inside that scope. -/
theorem scopingVerdict_of_mem_entriesFrom {p : Panorama} {chain : List ScopeId}
    (hgroups : s.entriesAlong o {} [] chain = .ok p.groups) {k : ℕ} {e : Entry}
    (he : e ∈ p.entriesFrom k) (hv : e.verdict ≠ .excluded .shadowed) :
    ∃ scope, (s.scopesOf chain)[k]? = some scope ∧ ∃ symbol, s.symbols[e.symbol]? = some symbol ∧
      s.scopingVerdict o ((s.footingAfter {} ((s.scopesOf chain).take k)).enter scope) symbol =
        .ok e.verdict := by
  obtain ⟨level, hk, group, hgroup, he⟩ := exists_group_of_mem_entriesFrom he
  obtain ⟨scope, names, groups, after, hscope, hentries⟩ := entriesAlong_getElem? hgroups hk
  obtain ⟨bound, hmade⟩ := entryOf_of_mem_entriesOf hentries hgroup he
  obtain ⟨-, symbol, hsymbol, hcases⟩ := entryOf_eq_ok_iff.1 hmade
  refine ⟨scope, hscope, symbol, hsymbol, ?_⟩
  rcases hcases with ⟨-, hshadowed⟩ | ⟨-, hverdict⟩
  · exact absurd hshadowed hv
  · exact hverdict

/-- **Static context and captures, exactly.**  Let `scopes` be the scopes around the position, the
innermost first.  An accessible instance member that is met in the `k`-th of them and is not
shadowed lacks an instance exactly when no scope up to the `k`-th is the operand of `nameof` and
either a scope before it is a type or a static function or a scope up to it is an attribute
argument.  A variable is captured in a static function exactly when no scope up to the `k`-th is the
operand of `nameof` and one before it is a static lambda or local function.  And there is an
instance exactly when there is a type around the position and neither a static function nor an
attribute argument lies inside the innermost one. -/
theorem lookup_staticContext_iff {signal : Signal} {options : Options} {position : UInt64}
    {p : Panorama} (h : s.lookup signal options position = .ok p) :
    ∃ (chain : List ScopeId) (scopes : List Scope) (site : Site),
      s.ancestors (s.scopeAt position) = .ok chain ∧
      chain.map (s.scopes[·]?) = scopes.map some ∧
      s.siteAt (s.scopeAt position) = .ok site ∧
      p.groups.map Prod.fst = chain ∧
      (∀ k, ∀ e ∈ p.entriesFrom k, e.verdict ≠ .excluded .shadowed →
        ∃ symbol, s.symbols[e.symbol]? = some symbol ∧
          (symbol.isInstanceMember = true → s.canAccess signal site symbol = .ok true →
            (e.verdict = .excluded .instanceInStaticContext ↔
              (¬ ∃ scope ∈ scopes.take (k + 1), scope.kind = .nameOf) ∧
                ((∃ scope ∈ scopes.take k,
                    scope.kind = .type ∨ s.isStaticFunction scope = true) ∨
                  ∃ scope ∈ scopes.take (k + 1), scope.kind = .attributeArgument))) ∧
          (symbol.kind.isCapturable = true → symbol.isConstant = false →
            e.verdict ≠ .excluded .declaredLater →
            (e.verdict = .excluded .capturedInStaticFunction ↔
              (¬ ∃ scope ∈ scopes.take (k + 1), scope.kind = .nameOf) ∧
                ∃ scope ∈ scopes.take k, (scope.kind = .lambda ∨ scope.kind = .localFunction) ∧
                  s.isStaticFunction scope = true))) ∧
      (p.hasInstance = true ↔
        ∃ (k : ℕ) (scope : Scope), scopes[k]? = some scope ∧ scope.kind = .type ∧
          ∀ inner ∈ scopes.take k, inner.kind ≠ .type ∧ s.isStaticFunction inner = false ∧
            inner.kind ≠ .attributeArgument) := by
  obtain ⟨-, chain, hchain, hgroups, -, hinstance⟩ := lookup_eq_ok_iff.1 h
  refine ⟨chain, s.scopesOf chain, ⟨chain.filterMap s.typeAround?⟩, hchain,
    map_scopes_of_entriesAlong hgroups, ?_, ?_, ?_, ?_⟩
  · rw [siteAt, hchain]
    rfl
  · exact map_fst_of_entriesAlong hgroups
  · intro k e he hv
    obtain ⟨scope, hk, symbol, hsymbol, hverdict⟩ := scopingVerdict_of_mem_entriesFrom hgroups he hv
    refine ⟨symbol, hsymbol, fun hmember haccess => ?_, fun hkind hconstant hlater => ?_⟩
    · rw [scopingVerdict_instance_iff hmember haccess hverdict, not_hasInstance_inside hk,
        inNameOf_inside hk, and_comm]
      rfl
    · rw [scopingVerdict_captured_iff hkind hconstant hverdict hlater,
        not_mayCapture_inside scope, inNameOf_inside hk, and_comm]
      rfl
  · rw [hinstance]
    exact instanceWithin_start_iff

/-- A type with a field, around a static method with a parameter, around a static lambda. -/
def sealedOff : Store :=
  empty.insertScope { id := ⟨0⟩, kind := .type, span := ⟨0, 60⟩ }
    |>.insertScope
      { id := ⟨1⟩, kind := .method, span := ⟨10, 50⟩, parent := some ⟨0⟩, isStatic := true }
    |>.insertScope
      { id := ⟨2⟩, kind := .lambda, span := ⟨20, 40⟩, parent := some ⟨1⟩, isStatic := true }
    |>.insertSymbol { id := ⟨0⟩, kind := .field, name := "total", scope := ⟨0⟩ }
    |>.insertSymbol { id := ⟨1⟩, kind := .parameter, name := "step", scope := ⟨1⟩ }

def sealedOffView : Panorama where
  scope := ⟨2⟩
  groups := [
    (⟨2⟩, [[]]),
    (⟨1⟩, [[⟨⟨1⟩, none, .excluded .capturedInStaticFunction, .declared⟩]]),
    (⟨0⟩, [[], [⟨⟨0⟩, none, .excluded .instanceInStaticContext, .declared⟩]])]
  hasInstance := false

/-- The field lacks an instance, and the scopes inside the type are the reason; the parameter is
captured, and the lambda inside the method is the reason. -/
theorem lookup_staticContext_iff_sealedOff :
    sealedOff.lookup .quiet {} 30 = .ok sealedOffView ∧
      ∃ scopes : List Scope,
        sealedOffView.groups.map (sealedOff.scopes[·.1]?) = scopes.map some ∧
        ((¬ ∃ scope ∈ scopes.take 3, scope.kind = .nameOf) ∧
          ((∃ scope ∈ scopes.take 2,
              scope.kind = .type ∨ sealedOff.isStaticFunction scope = true) ∨
            ∃ scope ∈ scopes.take 3, scope.kind = .attributeArgument)) ∧
        (¬ ∃ scope ∈ scopes.take 2, scope.kind = .nameOf) ∧
          ∃ scope ∈ scopes.take 1, (scope.kind = .lambda ∨ scope.kind = .localFunction) ∧
            sealedOff.isStaticFunction scope = true := by
  have h : sealedOff.lookup .quiet {} 30 = .ok sealedOffView := rfl
  refine ⟨h, ?_⟩
  obtain ⟨chain, scopes, site, -, hscopes, hsite, rfl, hentries, -⟩ := lookup_staticContext_iff h
  obtain ⟨field, hfield, hmember, -⟩ := hentries 2 _ (List.mem_cons_self ..) (by simp)
  obtain ⟨parameter, hparameter, -, hcaptured⟩ := hentries 1 _ (List.mem_cons_self ..) (by simp)
  cases hfield
  cases hparameter
  cases hsite
  rw [List.map_map] at hscopes
  exact ⟨scopes, hscopes, (hmember rfl rfl).1 rfl, (hcaptured rfl rfl (by simp)).1 rfl⟩

end Store

end Ambit
