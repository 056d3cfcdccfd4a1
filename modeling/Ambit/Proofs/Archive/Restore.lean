/-
A store that is restored from its archive has the same facts.

Restoring inserts the facts of an archive one after the other, table by table.  Each of these
passes fills one table, together with the indexes that belong to it, and leaves the other tables as
they are.  Since facts are kept under their own identities and the archive lists them in that order,
every table comes out as it was.  The check only reads tables, so it passes again.

Main results:

* `Ambit.Archive.facts_foldl` — a pass fills one table;
* `Ambit.Archive.built_rebuild` — a store that is rebuilt is a store that is built;
* `Ambit.Store.Built.facts_rebuild` — **rebuilding from the archive of a store gives its facts**;
* `Ambit.Store.Built.restore_archive` — restoring from the archive of a store succeeds.
-/

import Ambit.Archive
import Ambit.Proofs.Store.Facts
import Ambit.Proofs.Table

set_option relaxedAutoImplicit false
set_option autoImplicit false

namespace Ambit

theorem Store.archive_of_facts {s r : Store} (h : r.facts = s.facts) : r.archive = s.archive := by
  have hversion : r.version = s.version := congrArg Facts.version h
  have hinterceptions : r.interceptions = s.interceptions := congrArg Facts.interceptions h
  rw [archive, archive, hversion, symbols_of_facts h, scopes_of_facts h, types_of_facts h,
    typeParams_of_facts h, signatures_of_facts h, hinterceptions, wellKnown_of_facts h]

namespace Archive

open Store (insertScope insertSymbol insertType insertTypeParam insertSignature insertInterception)

/-! ### The passes -/

/-- **A pass fills one table.**  The table is read by `get` and replaced by `put`, each step adds
one fact to it and leaves the other tables as they are, and so does the whole pass. -/
theorem facts_foldl {α τ : Type} {f : Store → α → Store} (get : Facts → τ)
    (put : Facts → τ → Facts) (add : τ → α → τ)
    (hget : ∀ t u, get (put t u) = u) (hput : ∀ t u v, put (put t u) v = put t v)
    (hself : ∀ t, put t (get t) = t)
    (hstep : ∀ s x, (f s x).facts = put s.facts (add (get s.facts) x)) (xs : List α) (s : Store) :
    (xs.foldl f s).facts = put s.facts (xs.foldl add (get s.facts)) := by
  induction xs generalizing s with
  | nil => exact (hself s.facts).symm
  | cons x xs ih => rw [List.foldl_cons, ih, hstep, hget, hput, List.foldl_cons]

theorem facts_foldl_insertScope (xs : List Scope) (s : Store) :
    (xs.foldl insertScope s).facts =
      { s.facts with scopes := xs.foldl (fun t x => t.insert x.id x) s.facts.scopes } := by
  refine facts_foldl Facts.scopes (fun t u => { t with scopes := u }) _ (fun _ _ => rfl)
    (fun _ _ _ => rfl) (fun _ => rfl) (fun s x => ?_) xs s
  rw [insertScope, Store.unlistScope]
  cases s.scopes[x.id]? with
  | none => rfl
  | some old => rfl

theorem facts_foldl_insertSymbol (xs : List Symbol) (s : Store) :
    (xs.foldl insertSymbol s).facts =
      { s.facts with symbols := xs.foldl (fun t x => t.insert x.id x) s.facts.symbols } := by
  refine facts_foldl Facts.symbols (fun t u => { t with symbols := u }) _ (fun _ _ => rfl)
    (fun _ _ _ => rfl) (fun _ => rfl) (fun s x => ?_) xs s
  rw [Store.insertSymbol_eq]
  rfl

theorem facts_foldl_insertTypeParam (xs : List TypeParam) (s : Store) :
    (xs.foldl insertTypeParam s).facts =
      { s.facts with typeParams := xs.foldl (fun t x => t.insert x.id x) s.facts.typeParams } :=
  facts_foldl Facts.typeParams (fun t u => { t with typeParams := u }) _ (fun _ _ => rfl)
    (fun _ _ _ => rfl) (fun _ => rfl) (fun _ _ => rfl) xs s

/-- The facts of a store that is rebuilt. -/
theorem facts_rebuild (a : Archive) :
    a.rebuild.facts =
      { version := currentVersion
        symbols := a.symbols.foldl (fun t x => t.insert x.id x) ∅
        scopes := a.scopes.foldl (fun t x => t.insert x.id x) ∅
        types := a.types.foldl (fun t x => t.insert x.id x) ∅
        typeParams := a.typeParams.foldl (fun t x => t.insert x.id x) ∅
        signatures := a.signatures.foldl (fun t x => t.insert x.id x) ∅
        interceptions := a.interceptions
        wellKnown := a.wellKnown.foldl (fun t r => t.insert r.1 r.2) ∅ } := by
  have hinterceptions :
      a.interceptions.foldl (fun is i => is ++ [i]) [] = a.interceptions := by
    rw [List.foldl_append_eq_append, ← List.flatMap_def, List.flatMap_singleton', List.nil_append]
  rw [rebuild,
    facts_foldl Facts.wellKnown (fun t u => { t with wellKnown := u })
      (fun t r => t.insert r.1 r.2) (fun _ _ => rfl) (fun _ _ _ => rfl) (fun _ => rfl)
      (fun _ _ => rfl),
    facts_foldl Facts.interceptions (fun t u => { t with interceptions := u })
      (fun t i => t ++ [i]) (fun _ _ => rfl) (fun _ _ _ => rfl) (fun _ => rfl) (fun _ _ => rfl),
    facts_foldl Facts.signatures (fun t u => { t with signatures := u })
      (fun t x => t.insert x.id x) (fun _ _ => rfl) (fun _ _ _ => rfl) (fun _ => rfl)
      (fun _ _ => rfl),
    facts_foldl_insertTypeParam,
    facts_foldl Facts.types (fun t u => { t with types := u })
      (fun t x => t.insert x.id x) (fun _ _ => rfl) (fun _ _ _ => rfl) (fun _ => rfl)
      (fun _ _ => rfl),
    facts_foldl_insertSymbol, facts_foldl_insertScope]
  exact congrArg (fun is => Facts.mk _ _ _ _ _ _ is _) hinterceptions

/-! ### Rebuilding -/

/-- A store that is rebuilt is a store that is built. -/
theorem built_rebuild (a : Archive) : a.rebuild.Built := by
  have hfold : ∀ {α : Type} {f : Store → α → Store}, (∀ s x, s.Built → (f s x).Built) →
      ∀ (xs : List α) (s : Store), s.Built → (xs.foldl f s).Built := by
    intro α f hf xs
    induction xs with
    | nil => exact fun s hs => hs
    | cons x xs ih => exact fun s hs => ih _ (hf s x hs)
  refine hfold (fun _ r hs => hs.register r.1 r.2) _ _ ?_
  refine hfold (fun _ x hs => hs.insertInterception x) _ _ ?_
  refine hfold (fun _ x hs => hs.insertSignature x) _ _ ?_
  refine hfold (fun _ x hs => hs.insertTypeParam x) _ _ ?_
  refine hfold (fun _ x hs => hs.insertType x) _ _ ?_
  refine hfold (fun _ x hs => hs.insertSymbol x) _ _ ?_
  exact hfold (fun _ x hs => hs.insertScope x) _ _ .empty

end Archive

namespace Store.Built

variable {s : Store} (h : s.Built) (hversion : s.version = Archive.currentVersion)
include h hversion

/-- **Rebuilding from the archive of a store gives its facts.** -/
theorem facts_rebuild : s.archive.rebuild.facts = s.facts := by
  rw [Archive.facts_rebuild, archive, facts, hversion,
    Table.foldl_insert_values h.indexed.symbol_id, Table.foldl_insert_values h.indexed.scope_id,
    Table.foldl_insert_values h.keyed.type_id, Table.foldl_insert_values h.keyed.typeParam_id,
    Table.foldl_insert_values h.keyed.signature_id, Table.foldl_insert_toList]

/-- Restoring from the archive of a store that passes the check succeeds. -/
theorem restore_archive (hcheck : s.check = .ok ()) :
    s.archive.restore = .ok s.archive.rebuild := by
  have hversion' : s.archive.version = Archive.currentVersion := hversion
  have hcheck' : s.archive.rebuild.check = .ok () := by
    rw [check_of_facts (h.facts_rebuild hversion), hcheck]
  rw [Archive.restore, if_pos hversion', hcheck']
  rfl

end Store.Built

end Ambit
