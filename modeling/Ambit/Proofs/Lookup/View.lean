/-
Stores that look the same from a position.

A look-up goes outwards from the innermost scope.  Besides the scopes it reads the groups of symbols
that they contribute, the footing after them, the entry of each symbol that is met and the names
that entries bind.  Two stores in which these are the same, for an outlook from the position, have
the same look-up there, faults included.

Main definitions:

* `Ambit.Store.SameView` — stores that look the same from a position.

Main results:

* `Ambit.Store.siteAt_of_scopes`, `Ambit.Store.scopeAt_of_scopes` — what only depends on the scopes;
* `Ambit.Store.SameView.entriesAlong` — the same entries along every way outwards;
* `Ambit.Store.SameView.lookup` — **the same look-up**.
-/

import Ambit.Lookup
import Ambit.Proofs.Store.Outward

set_option relaxedAutoImplicit false
set_option autoImplicit false

namespace Ambit.Store

section SameScopes

variable {s s' : Store} (h : s'.scopes = s.scopes)
include h

theorem typeAround?_of_scopes : s'.typeAround? = s.typeAround? := by
  funext scope
  rw [typeAround?, typeAround?, h]

/-- The site of a scope only depends on the scopes. -/
theorem siteAt_of_scopes : s'.siteAt = s.siteAt := by
  funext scope
  rw [siteAt, siteAt, ancestors_of_scopes h, typeAround?_of_scopes h]

theorem scopeAt_of_scopes : s'.scopeAt = s.scopeAt := by
  funext position
  rw [scopeAt, scopeAt, innermost?_of_scopes h]

end SameScopes

/-- Stores that look the same from a position: the same is met on the way outwards, and it has the
same verdicts. -/
structure SameView (position : UInt64) (s s' : Store) : Prop where
  scopes : s'.scopes = s.scopes
  groupsOf : s'.groupsOf = s.groupsOf
  leave : s'.leave = s.leave
  entryOf : ∀ o : Outlook, o.position = position → s'.entryOf o = s.entryOf o
  boundName? : s'.boundName? = s.boundName?

namespace SameView

variable {s s' : Store} {position : UInt64} (h : s.SameView position s')
include h

theorem instanceWithin (f : Footing) (scopes : List Scope) :
    s'.instanceWithin f scopes = s.instanceWithin f scopes := by
  induction scopes generalizing f with
  | nil => rfl
  | cons scope scopes ih => rw [Store.instanceWithin, Store.instanceWithin, h.leave, ih]

variable {o : Outlook} (ho : o.position = position)
include ho

theorem entriesOf (f : Footing) (bound : List String) (groups : List (List Finding)) :
    s'.entriesOf o f bound groups = s.entriesOf o f bound groups := by
  induction groups generalizing bound with
  | nil => rfl
  | cons group groups ih => simp only [Store.entriesOf, h.entryOf o ho, h.boundName?, ih]

/-- The same entries are made along every way outwards. -/
theorem entriesAlong (f : Footing) (bound : List String) (way : List ScopeId) :
    s'.entriesAlong o f bound way = s.entriesAlong o f bound way := by
  induction way generalizing f bound with
  | nil => rfl
  | cons id way ih =>
      simp only [Store.entriesAlong, h.scopes, h.groupsOf, h.entriesOf ho, h.leave, ih]

omit ho

/-- **Stores that look the same from a position have the same look-up there.** -/
theorem lookup (signal : Signal) (options : Options) :
    s'.lookup signal options position = s.lookup signal options position := by
  have halong : ∀ site, s'.entriesAlong ⟨signal, options, position, site⟩ =
      s.entriesAlong ⟨signal, options, position, site⟩ := by
    intro site
    funext f bound way
    exact h.entriesAlong rfl f bound way
  simp only [Store.lookup, scopeAt_of_scopes h.scopes, siteAt_of_scopes h.scopes,
    ancestors_of_scopes h.scopes, halong, h.instanceWithin, h.scopes]

end SameView

end Ambit.Store
