/-
The members of a type are symbols of the store, each listed once.

The members of a type are gathered along its supertypes, and what the members of earlier types hide
is left out.  Only the members that are listed hide others, but a member that is hidden itself hides
nothing that was not hidden before.  So what is listed can be said without the course of the search:
a type exposes its members that no member of an earlier type hides, whether that one is listed or
not.  A member hides itself, so it is not listed again when its type comes up with other type
arguments, or when the root of all types comes up twice.

Main definitions:

* `Ambit.Store.Hides` — whether a member hides another one;
* `Ambit.Store.Exposes` — **a type exposes a member that no earlier type hides**.

Main results:

* `Ambit.Store.isHidden_hide_filter_iff` — the members that are listed hide as much as all;
* `Ambit.Store.mem_unhiddenMembers_iff` — the members that are gathered are the exposed ones;
* `Ambit.Store.Indexed.stored_of_mem_typeMembers` — the members of a type are symbols of the store;
* `Ambit.Store.Indexed.pairwise_typeMembers` — **every member is listed once**.
-/

import Ambit.Member
import Ambit.Proofs.Answer
import Ambit.Proofs.Store.Built

set_option relaxedAutoImplicit false
set_option autoImplicit false

namespace Ambit.Store

variable {s : Store} {hidden : Hiding} {inherited : Bool} {ts : List TypeRef} {t u : TypeRef}
  {symbol : Symbol} {m : Member}

/-! ### Hiding -/

/-- Whether a member hides one of a less derived type: it has the same name, and if it is a method,
the other one is a method with as many parameters. -/
def Hides (s : Store) (other symbol : Symbol) : Prop :=
  other.name = symbol.name ∧
    (other.kind = .method → symbol.kind = .method ∧ s.methodKey other = s.methodKey symbol)

instance (s : Store) (other symbol : Symbol) : Decidable (s.Hides other symbol) :=
  inferInstanceAs (Decidable (_ ∧ (_ → _)))

theorem Hides.refl (s : Store) (symbol : Symbol) : s.Hides symbol symbol :=
  ⟨rfl, fun hkind => ⟨hkind, rfl⟩⟩

/-- What is hidden after some more members was hidden before, or one of them hides it. -/
theorem isHidden_hide_iff {members : List Symbol} :
    s.isHidden (s.hide hidden members) symbol = true ↔
      s.isHidden hidden symbol = true ∨ ∃ other ∈ members, s.Hides other symbol := by
  simp only [isHidden, hide, Bool.or_eq_true, Bool.and_eq_true, List.contains_iff_mem,
    List.mem_append, List.mem_map, List.mem_filter, bne_iff_ne, beq_iff_eq]
  constructor
  · rintro ((hname | ⟨other, ⟨hother, hkind⟩, hname⟩) |
      ⟨hsymbol, hkey | ⟨other, ⟨hother, -⟩, hkey⟩⟩)
    · exact Or.inl (Or.inl hname)
    · exact Or.inr ⟨other, hother, hname, fun hmethod => absurd hmethod hkind⟩
    · exact Or.inl (Or.inr ⟨hsymbol, hkey⟩)
    · exact Or.inr ⟨other, hother, congrArg Prod.fst hkey, fun _ => ⟨hsymbol, hkey⟩⟩
  · rintro ((hname | ⟨hsymbol, hkey⟩) | ⟨other, hother, hname, hmethod⟩)
    · exact Or.inl (Or.inl hname)
    · exact Or.inr ⟨hsymbol, Or.inl hkey⟩
    · by_cases hkind : other.kind = .method
      · exact Or.inr ⟨(hmethod hkind).1, Or.inr ⟨other, ⟨hother, hkind⟩, (hmethod hkind).2⟩⟩
      · exact Or.inl (Or.inr ⟨other, ⟨hother, hkind⟩, hname⟩)

theorem isHidden_hide_of_mem {members : List Symbol} (h : symbol ∈ members) :
    s.isHidden (s.hide hidden members) symbol = true :=
  isHidden_hide_iff.2 (Or.inr ⟨symbol, h, .refl s symbol⟩)

/-! ### Exposed members -/

/-- **A type of the list exposes a member that it declares**, if no member of an earlier type hides
it.  Explicit implementations are not found by their names, so they neither are exposed nor hide. -/
def Exposes (s : Store) (ts : List TypeRef) (t : TypeRef) (symbol : Symbol) : Prop :=
  ∃ before after, ts = before ++ t :: after ∧ symbol ∈ s.namedMembers t ∧
    ∀ u ∈ before, ∀ other ∈ s.namedMembers u, ¬ s.Hides other symbol

theorem Exposes.mem (h : s.Exposes ts t symbol) : symbol ∈ s.namedMembers t := by
  obtain ⟨-, -, -, hmem, -⟩ := h
  exact hmem

@[simp] theorem isHidden_empty : s.isHidden {} symbol = false := by simp [isHidden]

theorem exposes_cons : s.Exposes (u :: ts) t symbol ↔
    t = u ∧ symbol ∈ s.namedMembers u ∨
      (∀ other ∈ s.namedMembers u, ¬ s.Hides other symbol) ∧ s.Exposes ts t symbol := by
  constructor
  · rintro ⟨before, after, heq, hmem, hhides⟩
    cases before with
    | nil =>
        cases heq
        exact Or.inl ⟨rfl, hmem⟩
    | cons v before =>
        cases heq
        exact Or.inr ⟨hhides u (List.mem_cons_self ..), before, after, rfl, hmem,
          fun w hw => hhides w (List.mem_cons_of_mem _ hw)⟩
  · rintro (⟨rfl, hmem⟩ | ⟨hhides, before, after, rfl, hmem, hbefore⟩)
    · exact ⟨[], ts, rfl, hmem, by simp⟩
    · exact ⟨u :: before, after, rfl, hmem, List.forall_mem_cons.2 ⟨hhides, hbefore⟩⟩

theorem isHidden_of_hides {other : Symbol} (hother : s.isHidden hidden other = true)
    (h : s.Hides other symbol) : s.isHidden hidden symbol = true := by
  simp only [isHidden, Bool.or_eq_true, Bool.and_eq_true, beq_iff_eq] at hother ⊢
  rcases hother with hname | ⟨hkind, hkey⟩
  · exact Or.inl (h.1 ▸ hname)
  · obtain ⟨hsymbol, heq⟩ := h.2 hkind
    exact Or.inr ⟨hsymbol, heq ▸ hkey⟩

/-- The members of a type that are not hidden hide as much as all of its members. -/
theorem isHidden_hide_filter_iff {members : List Symbol} :
    s.isHidden (s.hide hidden (members.filter fun m => !s.isHidden hidden m)) symbol = true ↔
      s.isHidden hidden symbol = true ∨ ∃ other ∈ members, s.Hides other symbol := by
  rw [isHidden_hide_iff]
  constructor
  · rintro (h | ⟨other, hother, h⟩)
    · exact Or.inl h
    · exact Or.inr ⟨other, (List.mem_filter.1 hother).1, h⟩
  · rintro (h | ⟨other, hother, h⟩)
    · exact Or.inl h
    · by_cases hhidden : s.isHidden hidden other = true
      · exact Or.inl (isHidden_of_hides hhidden h)
      · exact Or.inr ⟨other, List.mem_filter.2 ⟨hother, by simpa using hhidden⟩, h⟩

theorem isHidden_hide_filter_eq_false_iff {members : List Symbol} :
    s.isHidden (s.hide hidden (members.filter fun m => !s.isHidden hidden m)) symbol = false ↔
      s.isHidden hidden symbol = false ∧ ∀ other ∈ members, ¬ s.Hides other symbol := by
  rw [← Bool.not_eq_true, isHidden_hide_filter_iff, not_or, Bool.not_eq_true, not_exists]
  simp only [not_and]

theorem mem_unhiddenMembers_cons {flag : Bool} :
    ⟨symbol, t, flag⟩ ∈ s.unhiddenMembers hidden inherited (u :: ts) ↔
      (t = u ∧ flag = inherited ∧ symbol ∈ s.namedMembers u ∧ s.isHidden hidden symbol = false) ∨
        ⟨symbol, t, flag⟩ ∈ s.unhiddenMembers
          (s.hide hidden ((s.namedMembers u).filter fun m => !s.isHidden hidden m)) true ts := by
  rw [unhiddenMembers, List.mem_append]
  refine or_congr_left ?_
  simp only [List.mem_map, List.mem_filter, Member.mk.injEq, Bool.not_eq_true']
  constructor
  · rintro ⟨_, ⟨hmem, hvisible⟩, rfl, rfl, rfl⟩
    exact ⟨rfl, rfl, hmem, hvisible⟩
  · rintro ⟨rfl, rfl, hmem, hvisible⟩
    exact ⟨symbol, ⟨hmem, hvisible⟩, rfl, rfl, rfl⟩

/-- **The members that are gathered are the exposed ones** that were not hidden before. -/
theorem mem_unhiddenMembers_iff :
    (∃ flag, ⟨symbol, t, flag⟩ ∈ s.unhiddenMembers hidden inherited ts) ↔
      s.isHidden hidden symbol = false ∧ s.Exposes ts t symbol := by
  induction ts generalizing hidden inherited with
  | nil => simp [unhiddenMembers, Exposes]
  | cons u ts ih =>
      -- what is not hidden after the first type was not hidden before, and no member of it hides it
      have hlater : (∃ flag, ⟨symbol, t, flag⟩ ∈ s.unhiddenMembers
          (s.hide hidden ((s.namedMembers u).filter fun m => !s.isHidden hidden m)) true ts) ↔
            (s.isHidden hidden symbol = false ∧
              ∀ other ∈ s.namedMembers u, ¬ s.Hides other symbol) ∧ s.Exposes ts t symbol := by
        rw [ih, isHidden_hide_filter_eq_false_iff]
      simp only [mem_unhiddenMembers_cons, exists_or, hlater, exists_and_left, exists_eq_left,
        exposes_cons]
      tauto

/-- A member is declared by one of the types and not hidden. -/
theorem mem_unhiddenMembers (h : m ∈ s.unhiddenMembers hidden inherited ts) :
    m.declaring ∈ ts ∧ m.symbol ∈ s.namedMembers m.declaring ∧
      s.isHidden hidden m.symbol = false := by
  obtain ⟨hvisible, before, after, rfl, hmem, -⟩ := mem_unhiddenMembers_iff.1 ⟨m.inherited, h⟩
  exact ⟨by simp, hmem, hvisible⟩

theorem typeMembers_eq_ok {signal : Signal} {t : TypeRef} {ms : List Member}
    (h : s.typeMembers signal t = .ok ms) : ∃ ts, ms = s.unhiddenMembers {} false ts := by
  rw [typeMembers] at h
  split at h
  · cases h
    exact ⟨[], rfl⟩
  · obtain ⟨ts, -, h⟩ := Answer.bind_eq_ok.1 h
    cases h
    exact ⟨ts, rfl⟩

theorem isMember_of_mem_namedMembers {t : TypeRef} {symbol : Symbol}
    (h : symbol ∈ s.namedMembers t) : symbol.kind.isMember = true := by
  cases t with
  | named d args =>
      have hmember := (List.mem_filter.1 h).1
      rw [membersOf] at hmember
      split at hmember
      · cases hmember
      · exact (List.mem_filter.1 hmember).2
  | param _ | nullable _ | array _ _ | unresolved => cases h

theorem isMember_of_mem_typeMembers {signal : Signal} {t : TypeRef} {ms : List Member}
    (h : s.typeMembers signal t = .ok ms) (hm : m ∈ ms) : m.symbol.kind.isMember = true := by
  obtain ⟨ts, rfl⟩ := typeMembers_eq_ok h
  exact isMember_of_mem_namedMembers (mem_unhiddenMembers hm).2.1

/-! ### Symbols of the store -/

namespace Indexed

variable (hs : s.Indexed)
include hs

theorem stored_of_mem_symbolsIn {scope : ScopeId} {symbol : Symbol}
    (h : symbol ∈ s.symbolsIn scope) : s.symbols[symbol.id]? = some symbol :=
  (hs.mem_symbolsIn.1 h).1

theorem stored_of_mem_membersOf {type : SymbolId} {symbol : Symbol}
    (h : symbol ∈ s.membersOf type) : s.symbols[symbol.id]? = some symbol := by
  rw [membersOf] at h
  split at h
  · cases h
  · exact hs.stored_of_mem_symbolsIn (List.mem_filter.1 h).1

theorem stored_of_mem_namedMembers {t : TypeRef} {symbol : Symbol}
    (h : symbol ∈ s.namedMembers t) : s.symbols[symbol.id]? = some symbol := by
  cases t with
  | named d args => exact hs.stored_of_mem_membersOf (List.mem_filter.1 h).1
  | param _ | nullable _ | array _ _ | unresolved => cases h

/-- The members of a type are symbols of the store. -/
theorem stored_of_mem_typeMembers {signal : Signal} {t : TypeRef} {ms : List Member}
    (h : s.typeMembers signal t = .ok ms) (hm : m ∈ ms) :
    s.symbols[m.symbol.id]? = some m.symbol := by
  obtain ⟨ts, rfl⟩ := typeMembers_eq_ok h
  exact hs.stored_of_mem_namedMembers (mem_unhiddenMembers hm).2.1

/-! ### Each member once -/

theorem pairwise_ne_symbolsIn (scope : ScopeId) :
    (s.symbolsIn scope).Pairwise fun a b => a.id ≠ b.id :=
  (hs.pairwise_symbolsIn scope).imp Symbol.Precedes.ne

theorem pairwise_namedMembers (t : TypeRef) : (s.namedMembers t).Pairwise Symbol.Precedes := by
  cases t with
  | named d args =>
      rw [namedMembers, membersOf]
      split
      · exact .nil
      · exact ((hs.pairwise_symbolsIn _).filter _).filter _
  | param _ | nullable _ | array _ _ | unresolved => exact .nil

theorem pairwise_unhiddenMembers :
    (s.unhiddenMembers hidden inherited ts).Pairwise fun a b => a.symbol.id ≠ b.symbol.id := by
  induction ts generalizing hidden inherited with
  | nil => exact .nil
  | cons t ts ih =>
      refine List.pairwise_append.2 ⟨?_, ih, ?_⟩
      · exact List.pairwise_map.2 (((hs.pairwise_namedMembers t).filter _).imp Symbol.Precedes.ne)
      · -- what comes later is not hidden by the members of this type, so it is none of them
        intro a ha b hb heq
        obtain ⟨symbol, hsymbol, rfl⟩ := List.mem_map.1 ha
        obtain ⟨-, hmem, hvisible⟩ := mem_unhiddenMembers hb
        have hstored := hs.stored_of_mem_namedMembers (List.mem_filter.1 hsymbol).1
        have hsame : symbol = b.symbol := by
          have hstored' := hs.stored_of_mem_namedMembers hmem
          rw [← heq, hstored] at hstored'
          exact Option.some.inj hstored'
        rw [← hsame, isHidden_hide_of_mem hsymbol] at hvisible
        cases hvisible

/-- **Every member is listed once.** -/
theorem pairwise_typeMembers {signal : Signal} {t : TypeRef} {ms : List Member}
    (h : s.typeMembers signal t = .ok ms) : ms.Pairwise fun a b => a.symbol.id ≠ b.symbol.id := by
  obtain ⟨ts, rfl⟩ := typeMembers_eq_ok h
  exact hs.pairwise_unhiddenMembers

end Indexed

end Ambit.Store
