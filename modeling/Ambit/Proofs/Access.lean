/-
Access grows inwards.

Code that stands further inside is surrounded by more types.  Whether a symbol can be named is asked
of all the types around the code, so a symbol that can be named from a place can also be named from
every place inside it, unless the question has no answer there.  A type inside may come from types
of its own, and these only add to what can be named.

Main definitions:

* `Ambit.Store.canAccessFrom` — whether a symbol can be named from a scope.

Main results:

* `Ambit.Store.canAccess_cases` — what access depends on;
* `Ambit.Store.canAccess_of_suffix` — what can be named inside some types can be named inside more;
* `Ambit.Store.types_suffix_of_mem_ancestors` — the types around a scope are around every scope
  inside it;
* `Ambit.Store.canAccess_grows_inward` — **what can be named further out can be named further in**.
-/

import Ambit.Access
import Ambit.Proofs.Answer
import Ambit.Proofs.Store.Outward
import Mathlib.Data.List.Basic

set_option relaxedAutoImplicit false
set_option autoImplicit false

namespace Ambit.Store

variable {s : Store} {signal : Signal} {types around : List SymbolId} {b : Bool}

/-! ### What is asked of the types around -/

/-- **What access depends on**: nothing but the symbol, or whether its container is around the code,
or whether it is or a type around the code comes from it.  Which of these it is, the symbol decides
alone. -/
theorem canAccess_cases (symbol : Symbol) :
    (∃ b, ∀ (s : Store) signal site, s.canAccess signal site symbol = .ok b) ∨
      ∃ container, symbol.container = some container ∧
        ((∀ (s : Store) signal site,
            s.canAccess signal site symbol = .ok (site.types.contains container)) ∨
          ∀ (s : Store) signal site,
            s.canAccess signal site symbol = s.canAccessProtected signal site container) := by
  unfold canAccess
  cases symbol.container with
  | none => exact .inl ⟨_, fun _ _ _ => rfl⟩
  | some container =>
      cases symbol.access with
      | everywhere | assembly => exact .inl ⟨_, fun _ _ _ => rfl⟩
      | container => exact .inr ⟨container, rfl, .inl fun _ _ _ => rfl⟩
      | derived => exact .inr ⟨container, rfl, .inr fun _ _ _ => rfl⟩
      | assemblyOrDerived =>
          cases symbol.fromMetadata with
          | false => exact .inl ⟨true, fun _ _ _ => rfl⟩
          | true => exact .inr ⟨container, rfl, .inr fun _ _ _ => rfl⟩
      | assemblyAndDerived =>
          cases symbol.fromMetadata with
          | false => exact .inr ⟨container, rfl, .inr fun _ _ _ => rfl⟩
          | true => exact .inl ⟨false, fun _ _ _ => rfl⟩

/-! ### More types around -/

/-- If one of some types comes from a container, then so does one of more types. -/
theorem anyDerivesFrom_append {container : SymbolId} (inside : List SymbolId)
    (h : s.anyDerivesFrom signal container types = .ok true)
    (hinside : s.anyDerivesFrom signal container (inside ++ types) = .ok b) : b = true := by
  induction inside with
  | nil =>
      rw [List.nil_append, h] at hinside
      cases hinside
      rfl
  | cons type inside ih =>
      rw [List.cons_append, anyDerivesFrom] at hinside
      split at hinside
      · exact ih hinside
      · obtain ⟨derives, -, hrest⟩ := Answer.bind_eq_ok.1 hinside
        split at hrest
        · cases hrest
          rfl
        · exact ih hrest

theorem canAccessProtected_of_suffix {container : SymbolId} (hsuffix : types <:+ around)
    (h : s.canAccessProtected signal ⟨types⟩ container = .ok true)
    (haround : s.canAccessProtected signal ⟨around⟩ container = .ok b) : b = true := by
  rw [canAccessProtected] at h haround
  split at haround
  · cases haround
    rfl
  · rename_i hnot
    rw [if_neg fun hmem => hnot (List.contains_iff_mem.2
      (hsuffix.subset (List.contains_iff_mem.1 hmem)))] at h
    obtain ⟨inside, rfl⟩ := hsuffix
    exact anyDerivesFrom_append inside h haround

/-- What can be named inside some types can be named inside more types around the code, where the
question has an answer. -/
theorem canAccess_of_suffix {symbol : Symbol} (hsuffix : types <:+ around)
    (h : s.canAccess signal ⟨types⟩ symbol = .ok true)
    (haround : s.canAccess signal ⟨around⟩ symbol = .ok b) : b = true := by
  rcases canAccess_cases symbol with ⟨fixed, hfixed⟩ | ⟨container, -, hcontains | hprotected⟩
  · rw [hfixed] at h haround
    exact Except.ok.inj (haround.symm.trans h)
  · rw [hcontains, Except.ok.injEq, List.contains_iff_mem] at h
    rw [hcontains, Except.ok.injEq] at haround
    rw [← haround]
    exact List.contains_iff_mem.2 (hsuffix.subset h)
  · rw [hprotected] at h haround
    exact canAccessProtected_of_suffix hsuffix h haround

/-! ### Answers of stopped work -/

/-- Stopped work finds out about no type that there is, so what it answers is the answer. -/
theorem anyDerivesFrom_quiet {container : SymbolId}
    (h : s.anyDerivesFrom signal container types = .ok b) :
    s.anyDerivesFrom .quiet container types = .ok b := by
  cases signal with
  | quiet => exact h
  | stop =>
      induction types with
      | nil => exact h
      | cons type types ih =>
          rw [anyDerivesFrom] at h
          cases htype : s.typeOf? type with
          | none =>
              simp only [htype] at h
              simp only [anyDerivesFrom, htype]
              exact ih h
          | some self =>
              simp only [htype] at h
              cases h

theorem canAccessProtected_quiet {site : Site} {container : SymbolId}
    (h : s.canAccessProtected signal site container = .ok b) :
    s.canAccessProtected .quiet site container = .ok b := by
  rw [canAccessProtected] at h ⊢
  split at h
  · rename_i hmem
    rw [if_pos hmem]
    exact h
  · rename_i hmem
    rw [if_neg hmem]
    exact anyDerivesFrom_quiet h

/-- **An answer that stopped work finds is the answer.** -/
theorem canAccess_quiet {site : Site} {symbol : Symbol}
    (h : s.canAccess signal site symbol = .ok b) : s.canAccess .quiet site symbol = .ok b := by
  rcases canAccess_cases symbol with ⟨fixed, hfixed⟩ | ⟨container, -, hcontains | hprotected⟩
  · rwa [hfixed] at h ⊢
  · rwa [hcontains] at h ⊢
  · rw [hprotected] at h ⊢
    exact canAccessProtected_quiet h

/-! ### From one scope to another -/

/-- Whether a symbol can be named from a scope. -/
def canAccessFrom (s : Store) (signal : Signal) (scope : ScopeId) (symbol : Symbol) :
    Answer Bool := do
  s.canAccess signal (← s.siteAt scope) symbol

/-- **The types around a scope are around every scope inside it**, behind those in between. -/
theorem types_suffix_of_mem_ancestors {inner outer : ScopeId} {chain : List ScopeId}
    {site site' : Site} (hchain : s.ancestors inner = .ok chain) (houter : outer ∈ chain)
    (hsite : s.siteAt outer = .ok site) (hsite' : s.siteAt inner = .ok site') :
    site.types <:+ site'.types := by
  obtain ⟨way, hway, hsite⟩ := Answer.bind_eq_ok.1 hsite
  cases hsite
  rw [siteAt, hchain] at hsite'
  cases hsite'
  obtain ⟨between, around, rfl⟩ := List.append_of_mem houter
  by_cases houtside : outer = .outside
  · -- nothing is around the place outside every scope
    rw [houtside, ancestors, if_pos rfl] at hway
    cases hway
    exact List.nil_suffix
  · have hrest := (outward_of_ancestors_of_mem hchain houter).rest
    rw [(outward_of_ancestors hway houtside).unique hrest, List.filterMap_append]
    exact List.suffix_append _ _

/-- **Access grows inwards.**  What can be named from a scope can be named from every scope inside
it where the question has an answer, also if the work was stopped in between. -/
theorem canAccess_grows_inward {signal' : Signal} {inner outer : ScopeId} {chain : List ScopeId}
    (hchain : s.ancestors inner = .ok chain) (houter : outer ∈ chain) {symbol : Symbol}
    (h : s.canAccessFrom signal outer symbol = .ok true)
    (hinner : s.canAccessFrom signal' inner symbol = .ok b) : b = true := by
  obtain ⟨site, hsite, haccess⟩ := Answer.bind_eq_ok.1 h
  obtain ⟨site', hsite', haccess'⟩ := Answer.bind_eq_ok.1 hinner
  exact canAccess_of_suffix (types_suffix_of_mem_ancestors hchain houter hsite hsite')
    (canAccess_quiet haccess) (canAccess_quiet haccess')

def guardedField : Symbol where
  id := ⟨4⟩
  kind := .field
  name := "guarded"
  scope := ⟨1⟩
  container := some ⟨0⟩
  access := .derived

/-- A class that comes from the one with the protected field, and in it a class that comes from
another one, with a method. -/
def nestedDerivation : Store :=
  empty.insertScope { id := ⟨0⟩, kind := .nameSpace, span := ⟨0, 90⟩ }
    |>.insertScope { id := ⟨1⟩, kind := .type, span := ⟨0, 10⟩, parent := some ⟨0⟩,
                     owner := some ⟨0⟩ }
    |>.insertScope { id := ⟨2⟩, kind := .type, span := ⟨20, 80⟩, parent := some ⟨0⟩,
                     owner := some ⟨1⟩ }
    |>.insertScope { id := ⟨3⟩, kind := .type, span := ⟨30, 70⟩, parent := some ⟨2⟩,
                     owner := some ⟨2⟩ }
    |>.insertScope { id := ⟨4⟩, kind := .method, span := ⟨40, 60⟩, parent := some ⟨3⟩ }
    |>.insertSymbol { id := ⟨0⟩, kind := .type, name := "Base", scope := ⟨0⟩ }
    |>.insertSymbol { id := ⟨1⟩, kind := .type, name := "Derived", scope := ⟨0⟩ }
    |>.insertSymbol { id := ⟨2⟩, kind := .type, name := "Inner", scope := ⟨2⟩,
                      container := some ⟨1⟩ }
    |>.insertSymbol { id := ⟨3⟩, kind := .type, name := "Other", scope := ⟨0⟩ }
    |>.insertSymbol guardedField
    |>.insertType { id := ⟨0⟩, kind := .classType }
    |>.insertType { id := ⟨1⟩, kind := .classType, base := some (.plain ⟨0⟩) }
    |>.insertType { id := ⟨2⟩, kind := .classType, base := some (.plain ⟨3⟩) }
    |>.insertType { id := ⟨3⟩, kind := .classType }

/-- The field can be named in the derived class, and so in the method of the class inside it, which
comes from another class; outside of them it cannot. -/
theorem canAccess_grows_inward_nestedDerivation :
    nestedDerivation.ancestors ⟨4⟩ = .ok [⟨4⟩, ⟨3⟩, ⟨2⟩, ⟨0⟩] ∧
      nestedDerivation.canAccessFrom .quiet ⟨0⟩ guardedField = .ok false ∧
      nestedDerivation.canAccessFrom .quiet ⟨2⟩ guardedField = .ok true ∧
      nestedDerivation.canAccessFrom .quiet ⟨4⟩ guardedField = .ok true := by
  have hchain : nestedDerivation.ancestors ⟨4⟩ = .ok [⟨4⟩, ⟨3⟩, ⟨2⟩, ⟨0⟩] := by decide +kernel
  have houter : nestedDerivation.canAccessFrom .quiet ⟨2⟩ guardedField = .ok true := by
    decide +kernel
  obtain ⟨b, hb⟩ : ∃ b, nestedDerivation.canAccessFrom .quiet ⟨4⟩ guardedField = .ok b := by
    decide +kernel
  refine ⟨hchain, by decide +kernel, houter, ?_⟩
  rw [hb, canAccess_grows_inward hchain (by decide) houter hb]

end Ambit.Store
