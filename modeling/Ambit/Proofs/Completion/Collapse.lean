/-
Overloads that are shown together.

When overloads are collapsed, the methods and local functions of one name are one entry in the list
of completions.  The entry shows the method that is declared first, obsolete ones apart unless there
are no others, and counts the further parameter lists of the name.  Everything else is shown by
itself.  The way there goes through groups, a sort in each of them, a search from the front, and a
sort of the whole; none of it leaves a trace of the order in which the offers came, as long as they
are offers of different symbols.

Main definitions:

* `Ambit.Candidate.place` — the place in the order of declarations;
* `Ambit.Candidate.Leads` — a candidate that is shown for its group;
* `Ambit.Store.offered` — the candidates for offers that can be used, whose names begin with what is
  typed;
* `Ambit.Store.completions` — the completions among some offers.

Main results:

* `Ambit.Candidate.declaredBefore_iff` — the order of declarations is linear;
* `Ambit.Candidate.representative?_eq_some_iff` — the entry for a group;
* `Ambit.Candidate.mem_collapse` — what is shown when overloads are collapsed;
* `Ambit.Snapshot.complete_collapses` — **the completions with collapsed overloads**.
-/

import Ambit.Proofs.Completion
import Mathlib.Data.Finset.Card
import Mathlib.Data.List.Pairwise
import Mathlib.Data.Prod.Lex
import Mathlib.Order.WithBot

set_option relaxedAutoImplicit false
set_option autoImplicit false

namespace Ambit

namespace Candidate

variable {a b c m : Candidate} {cs group : List Candidate}

/-! ### The order of declarations -/

/-- The place in the order of declarations: where the declaration begins, with those that begin
nowhere first, and then the number of the symbol. -/
def place (c : Candidate) : WithBot ℕ ×ₗ ℕ :=
  toLex (c.symbol.span.elim ⊥ fun span => WithBot.some span.start.toNat, c.symbol.id.val.toNat)

/-- **The order of declarations is linear.** -/
theorem declaredBefore_iff : declaredBefore a b = true ↔ a.place ≤ b.place := by
  rw [place, place, Prod.Lex.toLex_le_toLex, declaredBefore]
  cases a.symbol.span with
  | none =>
      cases b.symbol.span with
      | none => simp [UInt32.le_iff_toNat_le]
      | some y => simp
  | some x =>
      cases b.symbol.span with
      | none => simp
      | some y => simp [UInt32.le_iff_toNat_le, UInt64.lt_iff_toNat_lt, ← UInt64.toNat_inj]

theorem id_eq_of_place (h : a.place = b.place) : a.symbol.id = b.symbol.id := by
  have hval : a.symbol.id.val.toNat = b.symbol.id.val.toNat := (Prod.ext_iff.1 h).2
  cases ha : a.symbol.id
  cases hb : b.symbol.id
  rw [ha, hb, UInt32.toNat_inj] at hval
  exact congrArg SymbolId.mk hval

/-! ### The entry for a group -/

/-- Candidates for different symbols. -/
def Distinct (cs : List Candidate) : Prop := cs.Pairwise fun a b => a.symbol.id ≠ b.symbol.id

theorem Distinct.eq_of_id (h : Distinct cs) (ha : a ∈ cs) (hb : b ∈ cs)
    (hid : a.symbol.id = b.symbol.id) : a = b := by
  by_contra hne
  have : Std.Symm fun a b : Candidate => a.symbol.id ≠ b.symbol.id := ⟨fun _ _ hab => hab.symm⟩
  exact h.forall ha hb hne hid

/-- **A candidate that is shown for its group.**  It is obsolete only if all of them are, and of
those that are as obsolete as itself it is the first in the order of declarations. -/
@[mk_iff] structure Leads (group : List Candidate) (c : Candidate) : Prop where
  mem : c ∈ group
  obsolete : c.symbol.isObsolete = true → ∀ x ∈ group, x.symbol.isObsolete = true
  least : ∀ x ∈ group, x.symbol.isObsolete = c.symbol.isObsolete → c.place ≤ x.place

instance (group : List Candidate) (c : Candidate) : Decidable (Leads group c) :=
  decidable_of_iff _ (leads_iff group c).symm

theorem Leads.unique (hgroup : Distinct group) (ha : Leads group a) (hb : Leads group b) :
    a = b := by
  have hobsolete : a.symbol.isObsolete = b.symbol.isObsolete := by
    rw [Bool.eq_iff_iff]
    exact ⟨fun h => ha.obsolete h b hb.mem, fun h => hb.obsolete h a ha.mem⟩
  refine hgroup.eq_of_id ha.mem hb.mem (id_eq_of_place (le_antisymm ?_ ?_))
  · exact ha.least b hb.mem hobsolete.symm
  · exact hb.least a ha.mem hobsolete

theorem Leads.of_mem_iff {group' : List Candidate} (hm : Leads group m)
    (h : ∀ x, x ∈ group ↔ x ∈ group') : Leads group' m :=
  ⟨(h m).1 hm.mem, fun hobsolete x hx => hm.obsolete hobsolete x ((h x).2 hx),
    fun x hx => hm.least x ((h x).2 hx)⟩

/-- The candidate with the number of further parameter lists in its group. -/
def counting (group : List Candidate) (c : Candidate) : Candidate :=
  { c with overloads := (group.map params).toFinset.card - 1 }

theorem length_eraseDups {α : Type} [BEq α] [LawfulBEq α] [DecidableEq α] (as : List α) :
    as.eraseDups.length = as.toFinset.card := by
  rw [← List.toFinset_card_of_nodup (nodup_eraseDups as)]
  refine congrArg Finset.card (Finset.ext fun x => ?_)
  rw [List.mem_toFinset, List.mem_toFinset, List.mem_eraseDups]

theorem pairwise_declared (group : List Candidate) :
    (group.mergeSort declaredBefore).Pairwise fun a b => a.place ≤ b.place := by
  have hsorted : (group.mergeSort declaredBefore).Pairwise fun a b => declaredBefore a b = true := by
    refine List.pairwise_mergeSort ?_ ?_ group
    · intro a b c hab hbc
      rw [declaredBefore_iff] at hab hbc ⊢
      exact hab.trans hbc
    · intro a b
      rw [Bool.or_eq_true, declaredBefore_iff, declaredBefore_iff]
      exact le_total _ _
  exact hsorted.imp fun hab => declaredBefore_iff.1 hab

/-- What is found from the front of a group in the order of declarations. -/
def front? (group : List Candidate) : Option Candidate :=
  ((group.mergeSort declaredBefore).find? fun c => !c.symbol.isObsolete) <|>
    (group.mergeSort declaredBefore).head?

/-- **What is found from the front is shown for the group.** -/
theorem leads_of_front? (h : front? group = some m) : Leads group m := by
  have hsorted := pairwise_declared group
  have hmem : ∀ x, x ∈ group ↔ x ∈ group.mergeSort declaredBefore := fun x =>
    List.mem_mergeSort.symm
  rw [front?] at h
  cases hfind : (group.mergeSort declaredBefore).find? fun c => !c.symbol.isObsolete with
  | some found =>
      rw [hfind] at h
      cases h
      obtain ⟨hcurrent, before, after, hsplit, hbefore⟩ := List.find?_eq_some_iff_append.1 hfind
      rw [Bool.not_eq_true'] at hcurrent
      rw [hsplit] at hsorted hmem
      refine ⟨(hmem m).2 (by simp), fun hobsolete => ?_, fun x hx hsame => ?_⟩
      · rw [hcurrent] at hobsolete
        cases hobsolete
      · rcases List.mem_append.1 ((hmem x).1 hx) with hx | hx
        · have hobsolete := hbefore x hx
          rw [hsame, hcurrent] at hobsolete
          cases hobsolete
        · rcases List.mem_cons.1 hx with rfl | hx
          · exact le_rfl
          · exact (List.pairwise_cons.1 (List.pairwise_append.1 hsorted).2.1).1 x hx
  | none =>
      rw [hfind] at h
      obtain ⟨rest, hrest⟩ := List.head?_eq_some_iff.1 h
      have hobsolete : ∀ x ∈ group, x.symbol.isObsolete = true := by
        intro x hx
        simpa using List.find?_eq_none.1 hfind x ((hmem x).1 hx)
      rw [hrest] at hsorted hmem
      refine ⟨(hmem m).2 (by simp), fun _ => hobsolete, fun x hx _ => ?_⟩
      rcases List.mem_cons.1 ((hmem x).1 hx) with rfl | hx
      · exact le_rfl
      · exact (List.pairwise_cons.1 hsorted).1 x hx

theorem exists_front? (h : group ≠ []) : ∃ m, front? group = some m := by
  obtain ⟨first, hfirst⟩ : ∃ first, (group.mergeSort declaredBefore).head? = some first := by
    obtain ⟨x, hx⟩ := List.exists_mem_of_ne_nil _ h
    rw [← Option.isSome_iff_exists, List.isSome_head?]
    exact List.ne_nil_of_mem (List.mem_mergeSort.2 hx)
  rw [front?, hfirst, ← Option.isSome_iff_exists]
  simp

theorem representative?_eq_map (group : List Candidate) :
    representative? group = (front? group).map (counting group) := by
  have hlists : ((group.mergeSort declaredBefore).map params).eraseDups.length =
      (group.map params).toFinset.card := by
    rw [length_eraseDups,
      List.toFinset_eq_of_perm _ _ ((List.mergeSort_perm group declaredBefore).map params)]
  rw [representative?, hlists]
  rfl

/-- **The entry for a group** is the candidate that is shown for it, with the number of further
parameter lists. -/
theorem representative?_eq_some_iff (hgroup : Distinct group) :
    representative? group = some c ↔ ∃ m, Leads group m ∧ c = counting group m := by
  rw [representative?_eq_map, Option.map_eq_some_iff]
  constructor
  · rintro ⟨m, hm, rfl⟩
    exact ⟨m, leads_of_front? hm, rfl⟩
  · rintro ⟨m, hm, rfl⟩
    -- something is found, and there is only one candidate to be found
    obtain ⟨found, hfound⟩ := exists_front? (List.ne_nil_of_mem hm.mem)
    exact ⟨found, hfound, congrArg _ ((leads_of_front? hfound).unique hgroup hm)⟩

/-! ### Collapsing -/

def isMethod (c : Candidate) : Bool :=
  c.symbol.kind == .method || c.symbol.kind == .localFunction

def overloadsOf (cs : List Candidate) (name : String) : List Candidate :=
  cs.filter fun c => c.isMethod && c.symbol.name == name

theorem mem_overloadsOf {name : String} :
    c ∈ overloadsOf cs name ↔ c ∈ cs ∧ c.isMethod = true ∧ c.symbol.name = name := by
  rw [overloadsOf, List.mem_filter, Bool.and_eq_true, beq_iff_eq]

theorem Distinct.overloadsOf (hcs : Distinct cs) (name : String) :
    Distinct (overloadsOf cs name) := hcs.filter _

theorem Leads.name_eq {name : String} (h : Leads (overloadsOf cs name) m) : m.symbol.name = name :=
  (mem_overloadsOf.1 h.mem).2.2

section Collapse

variable (hcs : Distinct cs) (hparams : ∀ c ∈ cs, c.params.isSome = c.isMethod)
include hparams

theorem filter_methods (name : String) :
    (cs.filter fun c => c.params.isSome).filter (fun c => c.symbol.name == name) =
      overloadsOf cs name := by
  rw [List.filter_filter]
  refine List.filter_congr fun c hc => ?_
  rw [hparams c hc, Bool.and_comm]

include hcs

/-- **What is shown when overloads are collapsed**: the candidates that are no methods, and one
entry for the methods of each name. -/
theorem mem_collapse :
    c ∈ collapse cs ↔ (c ∈ cs ∧ c.isMethod = false) ∨
      ∃ m, Leads (overloadsOf cs m.symbol.name) m ∧
        c = counting (overloadsOf cs m.symbol.name) m := by
  simp only [collapse, List.mem_append, List.mem_filter, List.mem_filterMap, List.mem_eraseDups,
    List.mem_map, filter_methods hparams]
  refine or_congr (and_congr_right fun hc => ?_) ?_
  · rw [← hparams c hc]
    cases c.params <;> simp
  · constructor
    · rintro ⟨name, -, hc⟩
      obtain ⟨m, hm, rfl⟩ := (representative?_eq_some_iff (hcs.overloadsOf name)).1 hc
      obtain rfl := hm.name_eq
      exact ⟨m, hm, rfl⟩
    · rintro ⟨m, hm, rfl⟩
      obtain ⟨hmem, hmethod, -⟩ := mem_overloadsOf.1 hm.mem
      exact ⟨m.symbol.name, ⟨m, ⟨hmem, (hparams m hmem).trans hmethod⟩, rfl⟩,
        (representative?_eq_some_iff (hcs.overloadsOf _)).2 ⟨m, hm, rfl⟩⟩

/-- **Collapsing leaves candidates for different symbols.** -/
theorem distinct_collapse : Distinct (collapse cs) := by
  have hentry : ∀ {name : String} {c : Candidate},
      representative? ((cs.filter fun c => c.params.isSome).filter
        fun c => c.symbol.name == name) = some c →
      ∃ m ∈ cs, m.isMethod = true ∧ m.symbol.name = name ∧ m.symbol = c.symbol := by
    intro name c hc
    rw [filter_methods hparams, representative?_eq_some_iff (hcs.overloadsOf name)] at hc
    obtain ⟨m, hm, rfl⟩ := hc
    obtain ⟨hmem, hmethod, hname⟩ := mem_overloadsOf.1 hm.mem
    exact ⟨m, hmem, hmethod, hname, rfl⟩
  refine List.pairwise_append.2 ⟨hcs.filter _, ?_, fun a ha b hb hid => ?_⟩
  · refine List.pairwise_filterMap.2 ((nodup_eraseDups _).imp ?_)
    intro name name' hne a ha b hb hid
    obtain ⟨m, hm, -, rfl, hsymbol⟩ := hentry ha
    obtain ⟨m', hm', -, rfl, hsymbol'⟩ := hentry hb
    rw [← hsymbol, ← hsymbol'] at hid
    exact hne (congrArg (fun c => c.symbol.name) (hcs.eq_of_id hm hm' hid))
  · obtain ⟨name, -, hb⟩ := List.mem_filterMap.1 hb
    obtain ⟨m, hm, hmethod, -, hsymbol⟩ := hentry hb
    obtain ⟨ha, hnone⟩ := List.mem_filter.1 ha
    rw [← hsymbol] at hid
    obtain rfl := hcs.eq_of_id ha hm hid
    rw [← hparams a ha] at hmethod
    rw [Option.isNone_iff_eq_none.1 hnone] at hmethod
    cases hmethod

theorem existsUnique_entry {name : String} (h : overloadsOf cs name ≠ []) :
    ∃! c, c ∈ collapse cs ∧ c.isMethod = true ∧ c.symbol.name = name := by
  obtain ⟨m, hfront⟩ := exists_front? h
  have hm := leads_of_front? hfront
  obtain rfl := hm.name_eq
  refine ⟨counting (overloadsOf cs m.symbol.name) m,
    ⟨(mem_collapse hcs hparams).2 (Or.inr ⟨m, hm, rfl⟩), (mem_overloadsOf.1 hm.mem).2.1, rfl⟩, ?_⟩
  rintro c ⟨hc, hmethod, hname⟩
  rcases (mem_collapse hcs hparams).1 hc with ⟨-, hnot⟩ | ⟨m', hm', rfl⟩
  · rw [hmethod] at hnot
    cases hnot
  · change m'.symbol.name = m.symbol.name at hname
    rw [hname] at hm' ⊢
    rw [hm'.unique (hcs.overloadsOf _) hm]

end Collapse

/-- **The entries for candidates, with collapsed overloads**: each candidate that is no method, with
nothing counted, and one entry for the methods of each name, which shows the one that leads them. -/
structure Collapsed (cs entries : List Candidate) : Prop where
  mem_iff : ∀ c, c ∈ entries ↔
    (c ∈ cs ∧ c.isMethod = false ∧ c.overloads = 0) ∨
      ∃ m, Leads (overloadsOf cs m.symbol.name) m ∧ c = counting (overloadsOf cs m.symbol.name) m
  existsUnique : ∀ name, overloadsOf cs name ≠ [] →
    ∃! c, c ∈ entries ∧ c.isMethod = true ∧ c.symbol.name = name
  /-- No symbol has two entries. -/
  nodup : (entries.map fun c => c.symbol.id).Nodup

/-- Sorting and collapsing gives the entries. -/
theorem collapsed_sort (hcs : Distinct cs)
    (hparams : ∀ c ∈ cs, c.params.isSome = c.isMethod ∧ c.overloads = 0) :
    Collapsed cs (sort (collapse cs)) := by
  have hshape : ∀ c ∈ cs, c.params.isSome = c.isMethod := fun c hc => (hparams c hc).1
  refine ⟨fun c => ?_, fun name hname => ?_, ?_⟩
  · rw [mem_sort, mem_collapse hcs hshape]
    refine or_congr_left (and_congr_right fun hc => ?_)
    rw [and_iff_left (hparams c hc).2]
  · simp only [mem_sort]
    exact existsUnique_entry hcs hshape hname
  · have hdistinct := distinct_collapse hcs hshape
    exact List.pairwise_map.2
      (hdistinct.perm (List.mergeSort_perm _ _).symm fun hab => Ne.symm hab)

theorem mem_collapse_perm {cs' : List Candidate} (hperm : cs'.Perm cs) (hcs : Distinct cs)
    (hparams : ∀ c ∈ cs, c.params.isSome = c.isMethod) :
    c ∈ collapse cs' ↔ c ∈ collapse cs := by
  have hparams' : ∀ c ∈ cs', c.params.isSome = c.isMethod := fun c hc =>
    hparams c (hperm.mem_iff.1 hc)
  have hcs' : Distinct cs' := hcs.perm hperm.symm fun hab => Ne.symm hab
  have hgroup : ∀ name, (overloadsOf cs' name).Perm (overloadsOf cs name) := fun name =>
    hperm.filter _
  have hleads : ∀ name m, Leads (overloadsOf cs' name) m ↔ Leads (overloadsOf cs name) m :=
    fun name _ => ⟨fun hm => hm.of_mem_iff fun _ => (hgroup name).mem_iff,
      fun hm => hm.of_mem_iff fun _ => (hgroup name).mem_iff.symm⟩
  have hcounting : ∀ name m,
      counting (overloadsOf cs' name) m = counting (overloadsOf cs name) m := by
    intro name m
    rw [counting, counting, List.toFinset_eq_of_perm _ _ ((hgroup name).map params)]
  simp only [mem_collapse hcs hparams, mem_collapse hcs' hparams', hleads, hcounting,
    hperm.mem_iff]

end Candidate

/-! ### Offers of different symbols -/

/-- Offers of different symbols have no repetitions to be left out. -/
theorem Offer.distinct_eq_self {os : List Offer} {seen : List SymbolId}
    (hos : os.Pairwise fun a b => a.symbol ≠ b.symbol) (hseen : ∀ o ∈ os, o.symbol ∉ seen) :
    Offer.distinct seen os = os := by
  induction os generalizing seen with
  | nil => rfl
  | cons o os ih =>
      obtain ⟨hhead, htail⟩ := List.pairwise_cons.1 hos
      obtain ⟨ho, hseen⟩ := List.forall_mem_cons.1 hseen
      have hlater : ∀ o' ∈ os, o'.symbol ∉ o.symbol :: seen := by
        intro o' ho' hmem
        rcases List.mem_cons.1 hmem with hsame | hmem
        · exact hhead o' ho' hsame.symm
        · exact hseen o' ho' hmem
      rw [distinct, if_neg (by simpa using ho), ih htail hlater]

namespace Store

variable {s : Store} {options : Options} {typed : String} {os : List Offer} {o : Offer}
  {c : Candidate}

/-- The candidates for offers that can be used, whose names begin with what is typed. -/
def offered (s : Store) (options : Options) (typed : String) (os : List Offer) : List Candidate :=
  ((Offer.usable os).filterMap (s.candidate? options)).filter fun c =>
    Snapshot.isTyped typed c.symbol.name

/-- **The completions among some offers**, with collapsed overloads. -/
def completions (s : Store) (options : Options) (typed : String) (os : List Offer) :
    List Candidate :=
  Candidate.sort (Candidate.collapse ((s.shown options (Offer.usable os)).filter fun c =>
    Snapshot.isTyped typed c.symbol.name))

theorem candidate?_params (h : s.candidate? options o = some c) :
    c.params.isSome = c.isMethod ∧ c.overloads = 0 := by
  obtain ⟨symbol, -, rfl⟩ := Option.map_eq_some_iff.1 h
  refine ⟨?_, rfl⟩
  dsimp only [details, Candidate.isMethod]
  cases symbol.kind <;> rfl

theorem params_of_mem_offered (h : c ∈ s.offered options typed os) :
    c.params.isSome = c.isMethod ∧ c.overloads = 0 := by
  obtain ⟨o, -, ho⟩ := List.mem_filterMap.1 (List.mem_filter.1 h).1
  exact candidate?_params ho

theorem completions_eq (hos : os.Pairwise fun a b => a.symbol ≠ b.symbol) :
    s.completions options typed os =
      Candidate.sort (Candidate.collapse (s.offered options typed os)) := by
  have hself : Offer.distinct [] (Offer.usable os) = Offer.usable os :=
    Offer.distinct_eq_self (hos.filter _) (by simp)
  rw [completions, shown, hself, offered]

/-- Offers of different symbols are offered as candidates for different symbols. -/
theorem Indexed.distinct_offered (hs : s.Indexed) (options : Options) (typed : String)
    (hos : os.Pairwise fun a b => a.symbol ≠ b.symbol) :
    Candidate.Distinct (s.offered options typed os) := by
  refine List.Pairwise.filter _ (List.pairwise_filterMap.2 ((hos.filter _).imp ?_))
  intro o o' hne c hc c' hc'
  rw [(hs.candidate?_eq_some hc).1, (hs.candidate?_eq_some hc').1]
  exact hne

end Store

namespace Snapshot

variable {snapshot : Snapshot} {signal : Signal} {options : Options} {request : Request}
  {offering : Offering}

theorem complete_eq_completions (h : snapshot.offers signal options request = .ok offering)
    (hcollapse : options.collapseOverloads = true) :
    snapshot.complete signal options request =
      .ok (snapshot.store.completions options offering.cursor.typed offering.offers) := by
  rw [complete, h]
  dsimp only [bind, Except.bind, pure, Except.pure]
  rw [hcollapse]
  rfl

/-- **The completions with collapsed overloads.**  The completions at a cursor are those among the
offers there.  Among any offers of different symbols they are the entries for the candidates that
are offered: one for each that is no method and one for the methods of each name, which shows the
one that leads them and counts the further parameter lists.  They are in the order of what is shown,
each once, and the order of the offers leaves no trace. -/
theorem complete_collapses (hs : snapshot.store.Built) (options : Options)
    (hcollapse : options.collapseOverloads = true) :
    (∀ signal request offering, snapshot.offers signal options request = .ok offering →
      snapshot.complete signal options request =
        .ok (snapshot.store.completions options offering.cursor.typed offering.offers)) ∧
    ∀ (typed : String) (os : List Offer), os.Pairwise (fun a b => a.symbol ≠ b.symbol) →
      Candidate.Collapsed (snapshot.store.offered options typed os)
          (snapshot.store.completions options typed os) ∧
        Candidate.Arranged (snapshot.store.completions options typed os) ∧
        ∀ os', os'.Perm os →
          snapshot.store.completions options typed os' =
            snapshot.store.completions options typed os := by
  refine ⟨fun signal request offering h => complete_eq_completions h hcollapse, ?_⟩
  intro typed os hos
  have hdistinct := hs.indexed.distinct_offered options typed hos
  have hparams := fun c (hc : c ∈ snapshot.store.offered options typed os) =>
    Store.params_of_mem_offered hc
  have hshape := fun c (hc : c ∈ snapshot.store.offered options typed os) => (hparams c hc).1
  have harranged := Candidate.arranged_sort (Candidate.distinct_collapse hdistinct hshape)
  rw [Store.completions_eq hos]
  refine ⟨Candidate.collapsed_sort hdistinct hparams, harranged, fun os' hperm => ?_⟩
  -- both lists are arranged, and the candidates are the same in another order
  have hos' : os'.Pairwise fun a b => a.symbol ≠ b.symbol :=
    hos.perm hperm.symm fun hab => Ne.symm hab
  have hoffered : (snapshot.store.offered options typed os').Perm
      (snapshot.store.offered options typed os) := ((hperm.filter _).filterMap _).filter _
  have hshape' := fun c (hc : c ∈ snapshot.store.offered options typed os') =>
    (Store.params_of_mem_offered hc).1
  have harranged' := Candidate.arranged_sort
    (Candidate.distinct_collapse (hs.indexed.distinct_offered options typed hos') hshape')
  rw [Store.completions_eq hos']
  refine harranged'.ext harranged fun c => ?_
  rw [Candidate.mem_sort, Candidate.mem_sort, Candidate.mem_collapse_perm hoffered hdistinct hshape]

/-- A property `P` and four methods `M`: an obsolete one without a place, one further down, and two
that are declared at one place, with different parameters. -/
def overloaded : Snapshot where
  store := Store.empty.insertScope { id := ⟨0⟩, kind := .type, span := ⟨0, 100⟩ }
    |>.insertSymbol { id := ⟨0⟩, kind := .property, name := "P", scope := ⟨0⟩ }
    |>.insertSymbol { id := ⟨1⟩, kind := .method, name := "M", scope := ⟨0⟩,
                      modifiers := [.obsolete] }
    |>.insertSymbol { id := ⟨2⟩, kind := .method, name := "M", scope := ⟨0⟩,
                      span := some ⟨30, 31⟩ }
    |>.insertSymbol { id := ⟨3⟩, kind := .method, name := "M", scope := ⟨0⟩,
                      span := some ⟨20, 21⟩ }
    |>.insertSymbol { id := ⟨4⟩, kind := .localFunction, name := "M", scope := ⟨0⟩,
                      span := some ⟨20, 21⟩ }
    |>.insertSignature { id := ⟨2⟩, params := [{ name := "a", type := .plain ⟨9⟩ }] }
    |>.insertSignature { id := ⟨3⟩, params := [{ name := "b", type := .plain ⟨9⟩ }] }
  text := ""
  version := 1

theorem built_overloaded : overloaded.store.Built :=
  .insertSignature _ (.insertSignature _ (.insertSymbol _ (.insertSymbol _ (.insertSymbol _
    (.insertSymbol _ (.insertSymbol _ (.insertScope _ .empty)))))))

/-- Offers of its symbols, in some order. -/
def overloadedOffers : List Offer :=
  [2, 4, 0, 1, 3].map fun n =>
    { symbol := ⟨n⟩, via := none, verdict := .applicable, origin := .declared }

/-- Two parameter lists are shown by the one of two methods at the first place that has the lesser
number, and the property is shown for itself. -/
theorem complete_collapses_overloaded :
    overloaded.store.Built ∧ (overloadedOffers.Pairwise fun a b => a.symbol ≠ b.symbol) ∧
      (∃ c ∈ overloaded.store.completions {} "" overloadedOffers,
        c.symbol.id = ⟨3⟩ ∧ c.overloads = 1) ∧
      (∃ c ∈ overloaded.store.completions {} "" overloadedOffers,
        c.symbol.id = ⟨0⟩ ∧ c.overloads = 0) ∧
      overloaded.store.completions {} "" overloadedOffers.reverse =
        overloaded.store.completions {} "" overloadedOffers := by
  have hos : overloadedOffers.Pairwise fun a b => a.symbol ≠ b.symbol := by decide +kernel
  obtain ⟨hcollapsed, -, hperm⟩ :=
    (complete_collapses built_overloaded {} rfl).2 "" overloadedOffers hos
  obtain ⟨m, -, hid, hcount, hleads⟩ : ∃ m ∈ overloaded.store.offered {} "" overloadedOffers,
      m.symbol.id = ⟨3⟩ ∧ (Candidate.counting (Candidate.overloadsOf
        (overloaded.store.offered {} "" overloadedOffers) m.symbol.name) m).overloads = 1 ∧
      Candidate.Leads (Candidate.overloadsOf
        (overloaded.store.offered {} "" overloadedOffers) m.symbol.name) m := by decide +kernel
  obtain ⟨p, hp, hid', hplain⟩ : ∃ p ∈ overloaded.store.offered {} "" overloadedOffers,
      p.symbol.id = ⟨0⟩ ∧ p.isMethod = false ∧ p.overloads = 0 := by decide +kernel
  exact ⟨built_overloaded, hos, ⟨_, (hcollapsed.mem_iff _).2 (Or.inr ⟨m, hleads, rfl⟩), hid, hcount⟩,
    ⟨p, (hcollapsed.mem_iff p).2 (Or.inl ⟨hp, hplain⟩), hid', hplain.2⟩,
    hperm _ (List.reverse_perm _)⟩

end Snapshot

end Ambit
