/-
Completions and verdicts.

Three questions are answered from the offers at a cursor: the verdict on a symbol is that of its
first offer, the list of candidates shows the first offer of each symbol, and the list of
completions shows the first offer of each symbol that can be used.  So the completions are the
candidates that can be used and whose names begin with what is typed, unless a symbol is contested.
A symbol is contested exactly when it is a static member of the type of a value and an extension
method that can be called on the value.  It is then completed, and yet excluded in the other two
answers.

Main definitions:

* `Ambit.Candidate.Arranged` — candidates in the order in which they are shown, each once;
* `Ambit.Snapshot.Divided` — a contested symbol has a name that begins with what is typed.

Main results:

* `Ambit.Offer.mem_distinct` — what is left of offers when repetitions are left out;
* `Ambit.Candidate.Arranged.ext` — arranged candidates are determined by which they are;
* `Ambit.Snapshot.complete_agrees_iff` — **completions agree with verdicts, exactly**.
-/

import Ambit.Proofs.Offer

set_option relaxedAutoImplicit false
set_option autoImplicit false

namespace Ambit

/-! ### First offers -/

namespace Offer

variable {os : List Offer} {o : Offer} {symbol : SymbolId} {seen : List SymbolId}

/-- What is left of offers is the first of each symbol that was not seen before. -/
theorem mem_distinct :
    o ∈ distinct seen os ↔
      o.symbol ∉ seen ∧ os.find? (fun a => a.symbol == o.symbol) = some o := by
  induction os generalizing seen with
  | nil => simp [distinct]
  | cons a os ih =>
      rw [distinct, List.find?_cons]
      by_cases hsame : a.symbol = o.symbol
      · rw [beq_iff_eq.2 hsame]
        split
        · rename_i hseen
          rw [hsame, List.contains_iff_mem] at hseen
          simp [ih, hseen]
        · rename_i hseen
          rw [hsame, List.contains_iff_mem] at hseen
          simp [ih, hseen, hsame, eq_comm]
      · rw [beq_eq_false_iff_ne.2 hsame]
        split
        · exact ih
        · have hne : o ≠ a := fun heq => hsame (heq ▸ rfl)
          simp [ih, hne, Ne.symm hsame]

theorem pairwise_distinct (seen : List SymbolId) (os : List Offer) :
    (distinct seen os).Pairwise fun a b => a.symbol ≠ b.symbol := by
  induction os generalizing seen with
  | nil => exact .nil
  | cons a os ih =>
      rw [distinct]
      split
      · exact ih seen
      · refine List.pairwise_cons.2 ⟨fun b hb heq => ?_, ih _⟩
        exact (mem_distinct.1 hb).1 (heq ▸ List.mem_cons_self ..)

def usable (os : List Offer) : List Offer := os.filter fun o => o.verdict.isApplicable

theorem isApplicable_iff {v : Verdict} : v.isApplicable = true ↔ v = .applicable := by
  rw [Verdict.isApplicable, beq_iff_eq]

theorem find?_usable (h : os.find? (fun a => a.symbol == symbol) = some o)
    (hv : o.verdict = .applicable) : (usable os).find? (fun a => a.symbol == symbol) = some o := by
  obtain ⟨hfound, before, after, rfl, hbefore⟩ := List.find?_eq_some_iff_append.1 h
  rw [usable, List.find?_filter, List.find?_eq_some_iff_append]
  refine ⟨by simpa [isApplicable_iff, hv] using hfound, before, after, rfl, fun a ha => ?_⟩
  simpa using Or.inr (hbefore a ha)

/-- For a symbol that is not contested, the first offer that can be used is the first offer. -/
theorem find?_usable_eq_some_iff (h : ¬ Contested os symbol) :
    (usable os).find? (fun a => a.symbol == symbol) = some o ↔
      os.find? (fun a => a.symbol == symbol) = some o ∧ o.verdict = .applicable := by
  refine ⟨fun ho => ?_, fun ho => find?_usable ho.1 ho.2⟩
  have hsymbol : o.symbol = symbol := by simpa using List.find?_some ho
  obtain ⟨hmem, hv⟩ := List.mem_filter.1 (List.mem_of_find?_eq_some ho)
  rw [isApplicable_iff] at hv
  obtain ⟨first, hfirst⟩ : ∃ first, os.find? (fun a => a.symbol == symbol) = some first := by
    rw [← Option.isSome_iff_exists, List.find?_isSome]
    exact ⟨o, hmem, by simpa using hsymbol⟩
  have hv' : first.verdict = .applicable := by
    by_contra hno
    exact h ⟨first, hfirst, hno, o, hmem, hsymbol, hv⟩
  rw [find?_usable hfirst hv'] at ho
  cases ho
  exact ⟨hfirst, hv'⟩

end Offer

/-! ### Candidates in order -/

namespace Candidate

variable {a b c : Candidate} {xs ys : List Candidate}

theorem order_eq_compareLex : order = compareLex (compareOn fun c => Text.lower c.display)
    (compareLex (compareOn display) (compareLex (compareOn fun c => Spelled.spell c.symbol.kind)
      (compareOn fun c => c.symbol.id))) := rfl

instance : Std.TransCmp order := by
  rw [order_eq_compareLex]
  infer_instance

theorem order_self (c : Candidate) : order c c = .eq := Std.ReflCmp.compare_self

theorem order_swap (a b : Candidate) : order a b = (order b a).swap := Std.OrientedCmp.eq_swap

theorem id_eq_of_order (h : order a b = .eq) : a.symbol.id = b.symbol.id := by
  simp only [order, Ordering.then_eq_eq] at h
  exact Std.LawfulEqCmp.eq_of_compare h.2.2.2

/-- Candidates in the order in which they are shown, each once. -/
def Arranged (cs : List Candidate) : Prop := cs.Pairwise fun a b => order a b = .lt

/-- **Arranged candidates are determined by which they are.** -/
theorem Arranged.ext (hxs : Arranged xs) (hys : Arranged ys) (h : ∀ c, c ∈ xs ↔ c ∈ ys) :
    xs = ys := by
  have hnodup : ∀ {cs : List Candidate}, Arranged cs → cs.Nodup := by
    intro cs hcs
    refine hcs.imp fun {a b} hab heq => ?_
    rw [heq, order_self] at hab
    cases hab
  refine List.Perm.eq_of_pairwise (fun a b _ _ hab hba => ?_) hxs hys
    ((List.perm_ext_iff_of_nodup (hnodup hxs) (hnodup hys)).2 h)
  rw [order_swap, hba] at hab
  cases hab

theorem arranged_sort (h : xs.Pairwise fun a b => a.symbol.id ≠ b.symbol.id) :
    Arranged (sort xs) := by
  have hsorted : (sort xs).Pairwise fun a b => (order a b).isLE = true := by
    refine List.pairwise_mergeSort ?_ ?_ xs
    · exact fun a b c hab hbc => Std.TransCmp.isLE_trans hab hbc
    · intro a b
      rw [Bool.or_eq_true, order_swap b a]
      cases order a b <;> simp
  have hne : (sort xs).Pairwise fun a b => a.symbol.id ≠ b.symbol.id :=
    h.perm (List.mergeSort_perm xs _).symm fun hab => Ne.symm hab
  refine (hsorted.and hne).imp fun {a b} hab => ?_
  cases horder : order a b with
  | lt => rfl
  | eq => exact absurd (id_eq_of_order horder) hab.2
  | gt =>
      rw [horder] at hab
      simp at hab

theorem mem_sort : c ∈ sort xs ↔ c ∈ xs := (List.mergeSort_perm xs _).mem_iff

end Candidate

namespace Store

variable {s : Store} {options : Options} {os : List Offer} {o : Offer} {c : Candidate}

theorem Indexed.candidate?_eq_some (hs : s.Indexed) (h : s.candidate? options o = some c) :
    c.symbol.id = o.symbol ∧ s.symbols[o.symbol]? = some c.symbol ∧ c.verdict = o.verdict := by
  obtain ⟨symbol, hsymbol, rfl⟩ := Option.map_eq_some_iff.1 h
  exact ⟨hs.symbol_id _ _ hsymbol, hsymbol, rfl⟩

theorem exists_candidate? (options : Options) {symbol : Symbol}
    (h : s.symbols[o.symbol]? = some symbol) :
    ∃ c, s.candidate? options o = some c ∧ c.symbol = symbol := by
  exact ⟨_, Option.map_eq_some_iff.2 ⟨symbol, h, rfl⟩, rfl⟩

/-- The candidates for offers, each symbol once. -/
def shown (s : Store) (options : Options) (os : List Offer) : List Candidate :=
  (Offer.distinct [] os).filterMap (s.candidate? options)

theorem mem_shown : c ∈ s.shown options os ↔
    ∃ o, os.find? (fun a => a.symbol == o.symbol) = some o ∧ s.candidate? options o = some c := by
  simp [shown, Offer.mem_distinct]

theorem Indexed.exists_mem_shown_iff (hs : s.Indexed) {symbol : Symbol} :
    (∃ c ∈ s.shown options os, c.symbol = symbol) ↔
      s.symbols[symbol.id]? = some symbol ∧ ∃ o ∈ os, o.symbol = symbol.id := by
  constructor
  · rintro ⟨c, hc, rfl⟩
    obtain ⟨o, ho, hcandidate⟩ := mem_shown.1 hc
    obtain ⟨hid, hstored, -⟩ := hs.candidate?_eq_some hcandidate
    rw [hid]
    exact ⟨hstored, o, List.mem_of_find?_eq_some ho, rfl⟩
  · rintro ⟨hstored, o, ho, hsymbol⟩
    obtain ⟨first, hfirst⟩ : ∃ first, os.find? (fun a => a.symbol == symbol.id) = some first := by
      rw [← Option.isSome_iff_exists, List.find?_isSome]
      exact ⟨o, ho, by simpa using hsymbol⟩
    have hsame : first.symbol = symbol.id := by simpa using List.find?_some hfirst
    obtain ⟨c, hc, hcsymbol⟩ := exists_candidate? options (hsame ▸ hstored)
    exact ⟨c, mem_shown.2 ⟨first, hsame ▸ hfirst, hc⟩, hcsymbol⟩

theorem Indexed.pairwise_shown (hs : s.Indexed) (os : List Offer) :
    (s.shown options os).Pairwise fun a b => a.symbol.id ≠ b.symbol.id := by
  refine List.pairwise_filterMap.2 ((Offer.pairwise_distinct [] os).imp ?_)
  intro o o' hne c hc c' hc'
  rw [(hs.candidate?_eq_some hc).1, (hs.candidate?_eq_some hc').1]
  exact hne

/-- A symbol that is not contested is shown among the offers that can be used exactly when it is
shown among all offers as one that can be used. -/
theorem Indexed.mem_shown_usable_iff (hs : s.Indexed)
    (h : s.symbols[c.symbol.id]? = some c.symbol → ¬ Offer.Contested os c.symbol.id) :
    c ∈ s.shown options (Offer.usable os) ↔
      c ∈ s.shown options os ∧ c.verdict = .applicable := by
  simp only [mem_shown]
  constructor
  · rintro ⟨o, ho, hc⟩
    obtain ⟨hid, hstored, hv⟩ := hs.candidate?_eq_some hc
    rw [hid] at h
    rw [Offer.find?_usable_eq_some_iff (h hstored)] at ho
    exact ⟨⟨o, ho.1, hc⟩, hv.trans ho.2⟩
  · rintro ⟨⟨o, ho, hc⟩, happlicable⟩
    obtain ⟨-, -, hv⟩ := hs.candidate?_eq_some hc
    exact ⟨o, Offer.find?_usable ho (hv.symm.trans happlicable), hc⟩

/-- A contested symbol is shown among the offers that can be used, and is not shown among all
offers as one that can be used. -/
theorem Indexed.exists_shown_of_contested (hs : s.Indexed) (options : Options) {symbol : Symbol}
    (hstored : s.symbols[symbol.id]? = some symbol) (h : Offer.Contested os symbol.id) :
    ∃ c ∈ s.shown options (Offer.usable os), c.symbol = symbol ∧
      ¬ (c ∈ s.shown options os ∧ c.verdict = .applicable) := by
  obtain ⟨first, hfirst, hno, o, ho, hsymbol, hv⟩ := h
  obtain ⟨o', ho'⟩ :
      ∃ o', (Offer.usable os).find? (fun a => a.symbol == symbol.id) = some o' := by
    rw [← Option.isSome_iff_exists, List.find?_isSome]
    exact ⟨o, List.mem_filter.2 ⟨ho, Offer.isApplicable_iff.2 hv⟩, by simpa using hsymbol⟩
  have hsame : o'.symbol = symbol.id := by simpa using List.find?_some ho'
  obtain ⟨c, hc, rfl⟩ := exists_candidate? options (hsame ▸ hstored)
  refine ⟨c, mem_shown.2 ⟨o', hsame ▸ ho', hc⟩, rfl, ?_⟩
  rintro ⟨hmem, happlicable⟩
  obtain ⟨o'', ho'', hc''⟩ := mem_shown.1 hmem
  obtain ⟨hid, -, hv''⟩ := hs.candidate?_eq_some hc''
  rw [← hid, hfirst] at ho''
  cases ho''
  exact hno (hv''.symm.trans happlicable)

end Store

/-! ### Completions agree with verdicts, exactly -/

namespace Snapshot

variable {snapshot : Snapshot} {signal : Signal} {options : Options} {request : Request}
  {offering : Offering}

/-- A symbol whose name begins with what is typed is a member and an extension method that can be
called. -/
def Divided (snapshot : Snapshot) (signal : Signal) (options : Options) (request : Request) :
    Prop :=
  ∃ offering, snapshot.offers signal options request = .ok offering ∧
    ∃ symbol : Symbol, snapshot.store.symbols[symbol.id]? = some symbol ∧
      isTyped (Cursor.ofText (snapshot.textBefore request.position)).typed symbol.name = true ∧
      Offer.Doubled offering.offers symbol.id

theorem candidates_eq (h : snapshot.offers signal options request = .ok offering) :
    snapshot.candidates signal options request =
      .ok (Candidate.sort (snapshot.store.shown options offering.offers)) := by
  rw [candidates, h]
  rfl

theorem complete_eq (h : snapshot.offers signal options request = .ok offering)
    (hcollapse : options.collapseOverloads = false) :
    snapshot.complete signal options request = .ok (Candidate.sort
      ((snapshot.store.shown options (Offer.usable offering.offers)).filter fun c =>
        isTyped offering.cursor.typed c.symbol.name)) := by
  rw [complete, h]
  dsimp only [bind, Except.bind, pure, Except.pure]
  rw [hcollapse]
  rfl

/-- The answers are divided exactly when a contested symbol has a name that begins with what is
typed. -/
theorem divided_iff (hs : snapshot.store.Indexed)
    (h : snapshot.offers signal options request = .ok offering) :
    snapshot.Divided signal options request ↔
      ∃ symbol : Symbol, snapshot.store.symbols[symbol.id]? = some symbol ∧
        isTyped offering.cursor.typed symbol.name = true ∧
        Offer.Contested offering.offers symbol.id := by
  obtain ⟨ms, es, hsplit, hparted, -⟩ := exists_parted hs h
  rw [Divided, h, (offers_eq_ok h).1]
  simp only [Except.ok.injEq, exists_eq_left', hsplit, hparted.contested_iff]

/-- The completions are the candidates that can be used and whose names begin with what is typed
exactly when no contested symbol has such a name. -/
theorem complete_eq_filter_iff (hs : snapshot.store.Indexed)
    (h : snapshot.offers signal options request = .ok offering)
    (hcollapse : options.collapseOverloads = false) :
    snapshot.complete signal options request =
        (snapshot.candidates signal options request).map (List.filter fun c =>
          c.verdict.isApplicable && isTyped offering.cursor.typed c.symbol.name) ↔
      ¬ snapshot.Divided signal options request := by
  rw [complete_eq h hcollapse, candidates_eq h, divided_iff hs h, Except.map, Except.ok.injEq]
  constructor
  · rintro heq ⟨symbol, hstored, htyped, hcontested⟩
    obtain ⟨c, hc, rfl, hnot⟩ := hs.exists_shown_of_contested options hstored hcontested
    have hmem : c ∈ Candidate.sort ((snapshot.store.shown options
        (Offer.usable offering.offers)).filter fun c =>
          isTyped offering.cursor.typed c.symbol.name) := by
      rw [Candidate.mem_sort, List.mem_filter]
      exact ⟨hc, htyped⟩
    rw [heq, List.mem_filter, Candidate.mem_sort, Bool.and_eq_true, Offer.isApplicable_iff] at hmem
    exact hnot ⟨hmem.1, hmem.2.1⟩
  · intro hclear
    refine Candidate.Arranged.ext (Candidate.arranged_sort ((hs.pairwise_shown _).filter _))
      ((Candidate.arranged_sort (hs.pairwise_shown _)).filter _) fun c => ?_
    rw [Candidate.mem_sort, List.mem_filter, List.mem_filter, Candidate.mem_sort, Bool.and_eq_true,
      Offer.isApplicable_iff, ← and_assoc]
    refine and_congr_left fun htyped => hs.mem_shown_usable_iff fun hstored hcontested => ?_
    exact hclear ⟨c.symbol, hstored, htyped, hcontested⟩

/-- Every completion gets the verdict that it can be used exactly when no contested symbol has a
name that begins with what is typed. -/
theorem complete_applicable_iff (hs : snapshot.store.Indexed)
    (h : snapshot.offers signal options request = .ok offering)
    (hcollapse : options.collapseOverloads = false) :
    (∀ cs, snapshot.complete signal options request = .ok cs → ∀ c ∈ cs,
        offering.verdictOn c.symbol.id = .applicable) ↔
      ¬ snapshot.Divided signal options request := by
  rw [complete_eq h hcollapse, divided_iff hs h]
  simp only [Except.ok.injEq, forall_eq', Candidate.mem_sort, List.mem_filter]
  constructor
  · rintro hall ⟨symbol, hstored, htyped, hcontested⟩
    obtain ⟨c, hc, rfl, -⟩ := hs.exists_shown_of_contested options hstored hcontested
    obtain ⟨first, hfirst, hno, -⟩ := hcontested
    have hverdict := hall c ⟨hc, htyped⟩
    rw [Offering.verdictOn, hfirst] at hverdict
    exact hno hverdict
  · rintro hclear c ⟨hc, htyped⟩
    obtain ⟨o, ho, hcandidate⟩ := Store.mem_shown.1 hc
    obtain ⟨hid, hstored, -⟩ := hs.candidate?_eq_some hcandidate
    rw [← hid] at hstored ho
    rw [Offer.find?_usable_eq_some_iff fun hcontested =>
      hclear ⟨c.symbol, hstored, htyped, hcontested⟩] at ho
    rw [Offering.verdictOn, ho.1]
    exact ho.2

/-- **Completions agree with verdicts, exactly.**  Without collapsing overloads, the completions are
the candidates that can be used and whose names begin with what is typed, and every completion gets
the verdict that it can be used, unless the answers are divided.  They are divided behind a value
only, when extension methods are offered: by a symbol that is completed as an extension method,
while the verdict on it is that it is static and asked of an instance. -/
theorem complete_agrees_iff (hs : snapshot.store.Built) (signal : Signal) {options : Options}
    (hcollapse : options.collapseOverloads = false) (request : Request) :
    (snapshot.complete signal options request =
        (snapshot.candidates signal options request).map (List.filter fun c =>
          c.verdict.isApplicable &&
            isTyped (Cursor.ofText (snapshot.textBefore request.position)).typed c.symbol.name) ↔
      ¬ snapshot.Divided signal options request) ∧
    ((∀ cs, snapshot.complete signal options request = .ok cs → ∀ c ∈ cs,
        snapshot.verdictOn signal options request c.symbol.id = .ok .applicable) ↔
      ¬ snapshot.Divided signal options request) ∧
    ∀ offering, snapshot.offers signal options request = .ok offering →
      ∀ symbol, Offer.Doubled offering.offers symbol →
        options.extensionMethods = true ∧ (∃ t, offering.receiver = some (.value t)) ∧
          snapshot.verdictOn signal options request symbol =
            .ok (.excluded .staticViaInstance) := by
  cases hoffers : snapshot.offers signal options request with
  | error fault =>
      have hclear : ¬ snapshot.Divided signal options request := by
        rintro ⟨offering, h, -⟩
        rw [hoffers] at h
        cases h
      have hcomplete : snapshot.complete signal options request = .error fault := by
        rw [complete, hoffers]
        rfl
      have hcandidates : snapshot.candidates signal options request = .error fault := by
        rw [candidates, hoffers]
        rfl
      rw [hcomplete, hcandidates]
      simp [hclear, Except.map]
  | ok offering =>
      have hverdict : ∀ symbol, snapshot.verdictOn signal options request symbol =
          .ok (offering.verdictOn symbol) := by
        intro symbol
        rw [verdictOn, hoffers]
        rfl
      simp only [hverdict, Except.ok.injEq, ← (offers_eq_ok hoffers).1]
      refine ⟨complete_eq_filter_iff hs.indexed hoffers hcollapse,
        complete_applicable_iff hs.indexed hoffers hcollapse, ?_⟩
      rintro _ rfl symbol hdoubled
      obtain ⟨ms, es, hsplit, hparted, hvalue⟩ := exists_parted hs.indexed hoffers
      rw [hsplit] at hdoubled
      obtain ⟨-, e, he, -⟩ := hparted.exists_of_doubled hdoubled
      obtain ⟨hoption, hreceiver⟩ := hvalue (List.ne_nil_of_mem he)
      obtain ⟨first, hfirst, hstatic⟩ := hparted.exists_first_of_doubled hdoubled
      refine ⟨hoption, hreceiver, ?_⟩
      rw [Offering.verdictOn, hsplit, hfirst]
      exact hstatic

def selfMethod : Symbol where
  id := ⟨1⟩
  kind := .method
  name := "M"
  scope := ⟨1⟩
  container := some ⟨0⟩
  modifiers := [.static, .extension]

/-- A static class with an extension method for itself. -/
def selfExtending : Snapshot where
  store := Store.empty.insertScope { id := ⟨0⟩, kind := .nameSpace, span := ⟨0, 100⟩ }
    |>.insertScope { id := ⟨1⟩, kind := .type, span := ⟨10, 90⟩, parent := some ⟨0⟩,
                     owner := some ⟨0⟩ }
    |>.insertSymbol { id := ⟨0⟩, kind := .type, name := "Ext", scope := ⟨0⟩,
                      modifiers := [.static] }
    |>.insertSymbol selfMethod
    |>.insertType { id := ⟨0⟩, kind := .classType }
    |>.insertSignature { id := ⟨1⟩,
                         params := [{ name := "e", type := .plain ⟨0⟩, kind := .receiver }] }
  text := ""
  version := 1

theorem built_selfExtending : selfExtending.store.Built :=
  .insertSignature _ (.insertType _ (.insertSymbol _ (.insertSymbol _ (.insertScope _
    (.insertScope _ .empty)))))

/-- A value of the class. -/
def behindItself : Request where
  position := 5
  receiver := some (.value (.plain ⟨0⟩))

/-- Every symbol is shown for itself. -/
def uncollapsed : Options where
  collapseOverloads := false

theorem divided_selfExtending : selfExtending.Divided .quiet uncollapsed behindItself := by
  have hoffers : (selfExtending.offers .quiet uncollapsed behindItself).map (fun offering =>
      offering.offers.map fun o => (o.symbol, o.origin, o.verdict)) =
      .ok [(⟨1⟩, .declared, .excluded .staticViaInstance), (⟨1⟩, .extension, .applicable)] := by
    decide +kernel
  obtain ⟨offering, hoffering, hmap⟩ := Answer.map_eq_ok.1 hoffers
  obtain ⟨member, rest, hlist, hmember, hrest⟩ := List.map_eq_cons_iff.1 hmap
  obtain ⟨extension, _, rfl, hextension, -⟩ := List.map_eq_cons_iff.1 hrest
  simp only [Prod.mk.injEq] at hmember hextension
  obtain ⟨hsymbol, horigin, -⟩ := hmember
  refine ⟨offering, hoffering, selfMethod, rfl, by decide +kernel, ?_⟩
  rw [hlist]
  exact ⟨⟨member, List.mem_cons_self .., hsymbol, by simp [horigin]⟩,
    extension, List.mem_cons_of_mem _ (List.mem_cons_self ..), hextension⟩

/-- Behind a value of the class neither answer agrees with the completions. -/
theorem complete_agrees_iff_selfExtending :
    selfExtending.store.Built ∧ uncollapsed.collapseOverloads = false ∧
      selfExtending.complete .quiet uncollapsed behindItself ≠
        (selfExtending.candidates .quiet uncollapsed behindItself).map (List.filter fun c =>
          c.verdict.isApplicable && isTyped (Cursor.ofText
            (selfExtending.textBefore behindItself.position)).typed c.symbol.name) ∧
      ∃ cs, selfExtending.complete .quiet uncollapsed behindItself = .ok cs ∧
        ∃ c ∈ cs, selfExtending.verdictOn .quiet uncollapsed behindItself c.symbol.id ≠
          .ok .applicable := by
  have hcollapse : uncollapsed.collapseOverloads = false := rfl
  obtain ⟨hlist, hverdicts, -⟩ :=
    complete_agrees_iff built_selfExtending .quiet hcollapse behindItself
  refine ⟨built_selfExtending, hcollapse, fun heq => hlist.1 heq divided_selfExtending, ?_⟩
  by_contra hnone
  push Not at hnone
  exact hverdicts.1 hnone divided_selfExtending

/-- The method is completed, although the verdict on it is that it cannot be used, and no candidate
can be used. -/
theorem complete_ne_filter_selfExtending :
    (selfExtending.complete .quiet uncollapsed behindItself).map
        (List.map fun c => (c.symbol.id, c.verdict)) = .ok [(⟨1⟩, .applicable)] ∧
      (selfExtending.candidates .quiet uncollapsed behindItself).map (List.filter fun c =>
        c.verdict.isApplicable && isTyped (Cursor.ofText
          (selfExtending.textBefore behindItself.position)).typed c.symbol.name) = .ok [] ∧
      selfExtending.verdictOn .quiet uncollapsed behindItself ⟨1⟩ =
        .ok (.excluded .staticViaInstance) :=
  ⟨by decide +kernel, by decide +kernel, by decide +kernel⟩

end Snapshot

end Ambit
