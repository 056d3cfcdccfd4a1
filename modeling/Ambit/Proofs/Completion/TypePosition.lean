/-
Completions where only types can stand.

After `new`, in a list of type arguments or in a constraint only types can stand, and namespaces and
other names that lead to them.  A type that is static, sealed, a value type or a delegate is no
constraint itself, and is offered there for the types inside it.  The rule is applied once to the
symbols that a look-up meets, and again, after the questions of access and reach, to the members of
what stands before the cursor and to the extension methods that can be called on it.  All of these
come to one condition on the symbol and the place of the cursor, which does not mention the way in
which the symbol was met.

Main definitions:

* `Ambit.Symbol.NamesType` — a symbol names a type or a namespace;
* `Ambit.Store.CannotConstrain` — a type that is no constraint;
* `Ambit.Store.FitsTypeSlot` — **a symbol can stand where only types can**.

Main results:

* `Ambit.Store.slotVerdict_type_iff` — the verdict on a symbol that a look-up meets;
* `Ambit.Store.fitsTypeSlot_of_memberOffer` — members that can be used can stand there;
* `Ambit.Store.extensionOffer_type` — extension methods cannot;
* `Ambit.Snapshot.complete_in_type_position` — **the completions where only types can stand**.
-/

import Ambit.Proofs.Completion.Collapse
import Ambit.Proofs.Offer.Behind

set_option relaxedAutoImplicit false
set_option autoImplicit false

namespace Ambit

/-! ### Symbols that can stand there -/

/-- A symbol names a type or a namespace: it is one, or it is another name for one that is
resolved. -/
def Symbol.NamesType (symbol : Symbol) : Prop :=
  symbol.kind = .type ∨ symbol.kind = .typeParameter ∨ symbol.kind = .nameSpace ∨
    symbol.kind = .aliasName ∧ ∃ target, symbol.type = some target ∧ target.isUnresolved = false

theorem SymbolKind.isTypeOrNamespace_iff {kind : SymbolKind} :
    kind.isTypeOrNamespace = true ↔ kind = .type ∨ kind = .typeParameter ∨ kind = .nameSpace := by
  cases kind <;> simp [isTypeOrNamespace]

theorem Symbol.NamesType.of_kind {symbol : Symbol} (h : symbol.kind.isTypeOrNamespace = true) :
    symbol.NamesType := by
  rcases SymbolKind.isTypeOrNamespace_iff.1 h with h | h | h
  · exact .inl h
  · exact .inr (.inl h)
  · exact .inr (.inr (.inl h))

theorem Symbol.namesTypeOrNamespace_iff {symbol : Symbol} :
    symbol.namesTypeOrNamespace = true ↔ symbol.NamesType := by
  rw [namesTypeOrNamespace, NamesType]
  by_cases hkind : symbol.kind = .aliasName
  · rw [hkind]
    cases symbol.type <;> simp
  · have hown : symbol.namesTypeOrNamespace = symbol.kind.isTypeOrNamespace := by
      rw [namesTypeOrNamespace]
      split <;> simp_all
    rw [← namesTypeOrNamespace, hown, SymbolKind.isTypeOrNamespace_iff]
    simp [hkind]

theorem Symbol.NamesType.ne_method {symbol : Symbol} (h : symbol.NamesType) :
    symbol.kind ≠ .method ∧ symbol.kind ≠ .localFunction := by
  rcases h with h | h | h | ⟨h, -⟩ <;> simp [h]

namespace Store

variable {s : Store} {g : Setting} {symbol m : Symbol} {v : Verdict}

/-- A type that is no constraint itself: it is static or sealed, a value type or a delegate. -/
def CannotConstrain (s : Store) (symbol : Symbol) : Prop :=
  symbol.has .static = true ∨ symbol.has .sealed = true ∨
    ∃ decl, s.types[symbol.id]? = some decl ∧
      (decl.kind.isValueType = true ∨ decl.kind = .delegateType)

theorem isClosedType_iff : s.isClosedType symbol = true ↔ s.CannotConstrain symbol := by
  rw [isClosedType, CannotConstrain, Bool.or_eq_true, Bool.or_eq_true, or_assoc]
  cases s.types[symbol.id]? <;> simp

/-- **A symbol can stand where only types can.** -/
structure FitsTypeSlot (s : Store) (g : Setting) (symbol : Symbol) : Prop where
  /-- It names a type or a namespace. -/
  names : symbol.NamesType
  /-- In a constraint, a type that is none itself has a type inside it that can be named. -/
  leads : g.cursor.slot = .typeConstraint → symbol.kind = .type → s.CannotConstrain symbol →
    ∃ nested ∈ s.membersOf symbol.id,
      nested.kind = .type ∧ s.canAccess g.signal g.site nested = .ok true

/-! ### The verdicts there -/

theorem requiring_applicable_iff {holds : Bool} {reason : Exclusion} :
    Verdict.requiring holds reason = .applicable ↔ holds = true := by
  cases holds <;> simp [Verdict.requiring]

/-- A verdict that hides what is obsolete lets nothing through that was excluded before. -/
theorem filterObsolete_eq_applicable_iff :
    g.filterObsolete symbol v = .applicable ↔
      v = .applicable ∧ ¬ (g.options.hideObsolete = true ∧ symbol.isObsolete = true) := by
  cases v with
  | applicable => simp [filterObsolete_applicable_iff]
  | excluded reason => simp [Setting.filterObsolete, Verdict.isApplicable]

/-- The search for a type that can be named finds one if there is one. -/
theorem anyAccessibleType_eq_ok {ms : List Symbol} {found : Bool}
    (h : s.anyAccessibleType g ms = .ok found) :
    found = true ↔ ∃ m ∈ ms, m.kind = .type ∧ s.canAccess g.signal g.site m = .ok true := by
  induction ms with
  | nil =>
      cases h
      simp
  | cons m ms ih =>
      rw [anyAccessibleType] at h
      split at h
      · rename_i hkind
        obtain ⟨reached, hreached, h⟩ := Answer.bind_eq_ok.1 h
        cases reached with
        | true =>
            cases h
            simp [hkind, hreached]
        | false => simp [ih h, hreached]
      · rename_i hkind
        simp [ih h, hkind]

theorem constraintVerdict_eq_ok (h : s.constraintVerdict g symbol = .ok v) :
    v = .applicable ↔ (symbol.kind = .type → s.CannotConstrain symbol →
      ∃ nested ∈ s.membersOf symbol.id,
        nested.kind = .type ∧ s.canAccess g.signal g.site nested = .ok true) := by
  rw [constraintVerdict] at h
  split at h
  · rename_i hopen
    cases h
    rw [Bool.or_eq_true, bne_iff_ne, Bool.not_eq_true', ← Bool.not_eq_true,
      isClosedType_iff] at hopen
    simp only [true_iff]
    intro hkind hclosed
    rcases hopen with hopen | hopen
    · exact absurd hkind hopen
    · exact absurd hclosed hopen
  · rename_i hclosed
    obtain ⟨found, hfound, h⟩ := Answer.bind_eq_ok.1 h
    cases h
    simp only [Bool.or_eq_true, bne_iff_ne, Bool.not_eq_true', not_or, not_not,
      Bool.not_eq_false, isClosedType_iff] at hclosed
    simp [requiring_applicable_iff, anyAccessibleType_eq_ok hfound, hclosed]

theorem kind_of_mem_extensionMethods {signal : Signal} {scope : ScopeId} {methods : List Symbol}
    (h : s.extensionMethods signal scope = .ok methods) (hm : m ∈ methods) : m.kind = .method := by
  obtain ⟨chain, -, rfl⟩ := extensionMethods_eq_ok h
  obtain ⟨b, -, hm⟩ := List.mem_flatMap.1 hm
  obtain ⟨c, -, -, -, hmethod⟩ := mem_extensionsIn.1 hm
  rw [isExtensionMethod, Bool.and_eq_true, Bool.and_eq_true, beq_iff_eq] at hmethod
  exact hmethod.1.1

section TypeSlot

variable (hslot : g.cursor.slot = .typeOnly ∨ g.cursor.slot = .typeConstraint)
include hslot

/-- **The verdict on a symbol that a look-up meets**, where only types can stand. -/
theorem slotVerdict_type_iff (h : s.slotVerdict g symbol = .ok v) :
    v = .applicable ↔ s.FitsTypeSlot g symbol := by
  have hfits : s.FitsTypeSlot g symbol ↔ symbol.NamesType ∧
      (g.cursor.slot = .typeConstraint → symbol.kind = .type → s.CannotConstrain symbol →
        ∃ nested ∈ s.membersOf symbol.id,
          nested.kind = .type ∧ s.canAccess g.signal g.site nested = .ok true) :=
    ⟨fun h => ⟨h.names, h.leads⟩, fun h => ⟨h.1, h.2⟩⟩
  rw [hfits, ← Symbol.namesTypeOrNamespace_iff]
  rw [slotVerdict, if_neg (by rcases hslot with hslot | hslot <;> simp [hslot])] at h
  split at h
  · rename_i hlabel
    cases h
    simp [Symbol.namesTypeOrNamespace, hlabel, SymbolKind.isTypeOrNamespace]
  · rcases hslot with hslot | hslot
    · rw [hslot] at h ⊢
      cases h
      simp [requiring_applicable_iff]
    · rw [hslot] at h ⊢
      dsimp only at h
      split at h
      · rename_i hnames
        simp [hnames, constraintVerdict_eq_ok h]
      · rename_i hnames
        cases h
        simp [hnames]

theorem memberSlotVerdict_type_iff :
    memberSlotVerdict g m = .applicable ↔ m.kind.isTypeOrNamespace = true := by
  rw [memberSlotVerdict, requiring_applicable_iff]
  rcases hslot with hslot | hslot <;> simp [hslot]

theorem fitsTypeSlot_of_reachedVerdict (h : s.reachedVerdict g m = .ok .applicable) :
    s.FitsTypeSlot g m := by
  rw [reachedVerdict] at h
  split at h
  · cases h
  · split at h
    · rename_i hconstraint
      rw [Bool.and_eq_true, decide_eq_true_eq] at hconstraint
      obtain ⟨v, hv, h⟩ := Answer.map_eq_ok.1 h
      exact ⟨.of_kind hconstraint.2, fun _ =>
        (constraintVerdict_eq_ok hv).1 (filterObsolete_eq_applicable_iff.1 h).1⟩
    · rename_i hconstraint
      have hkind : m.kind.isTypeOrNamespace = true :=
        (memberSlotVerdict_type_iff hslot).1
          (filterObsolete_eq_applicable_iff.1 (Except.ok.inj h)).1
      refine ⟨.of_kind hkind, fun hslot => ?_⟩
      simp [hslot, hkind] at hconstraint

/-- **A member that can be used can stand there**, through whatever it is reached. -/
theorem fitsTypeSlot_of_memberOffer {approach : Approach}
    (h : s.memberOffer g approach m = .ok .applicable) : s.FitsTypeSlot g m := by
  obtain ⟨reached, -, h⟩ := Answer.bind_eq_ok.1 h
  cases reached with
  | false => cases h
  | true =>
      rw [if_neg (by simp)] at h
      split at h
      · cases h
      · exact fitsTypeSlot_of_reachedVerdict hslot h

/-- **Extension methods cannot stand there.** -/
theorem extensionOffer_type (hkind : m.kind = .method) {t : TypeRef} {o : Offer}
    (h : s.extensionOffer g t m = .ok o) : o.verdict ≠ .applicable := by
  obtain ⟨given, -, h⟩ := Answer.bind_eq_ok.1 h
  obtain ⟨v, hv, h⟩ := Answer.bind_eq_ok.1 h
  cases h
  intro happlicable
  obtain ⟨rfl, -⟩ := filterObsolete_eq_applicable_iff.1 happlicable
  obtain ⟨reached, -, hv⟩ := Answer.bind_eq_ok.1 hv
  -- each check in turn excludes the method, and the last asks for a type
  split at hv
  · cases hv
  · split at hv
    · cases hv
    · split at hv
      · cases hv
      · have hmember := (memberSlotVerdict_type_iff hslot).1 (Except.ok.inj hv)
        rw [hkind] at hmember
        cases hmember

/-! ### The offers there -/

/-- A symbol that a look-up meets can be used where only types can stand if it can be named, can
stand there and is not hidden as obsolete. -/
theorem offerOfEntry_type_iff {e : Entry} {o : Offer}
    (hstored : s.symbols[e.symbol]? = some symbol) (h : s.offerOfEntry g e = .ok o) :
    o.verdict = .applicable ↔ e.isVisible = true ∧ s.FitsTypeSlot g symbol ∧
      ¬ (g.options.hideObsolete = true ∧ symbol.isObsolete = true) := by
  obtain ⟨-, -, hverdict⟩ := offerOfEntry_eq_ok hstored h
  split at hverdict
  · rename_i hvisible
    obtain ⟨v, hv, hverdict⟩ := Answer.map_eq_ok.1 hverdict
    rw [← hverdict, filterObsolete_eq_applicable_iff, slotVerdict_type_iff hslot hv]
    simp [hvisible]
  · rename_i hvisible
    rw [hverdict, ← Entry.isVisible_eq_true_iff]
    simp [hvisible]

/-- The symbols that a look-up meets and that can be used where only types can stand. -/
theorem exists_mem_lookupOffers_iff {signal : Signal} {options : Options} {position : UInt64}
    {p : Panorama} (hp : s.lookup signal options position = .ok p) {os : List Offer}
    (h : p.entries.mapM (s.offerOfEntry g) = .ok os) {id : SymbolId}
    (hstored : s.symbols[id]? = some symbol) :
    (∃ o ∈ os, o.symbol = id ∧ o.verdict = .applicable) ↔
      (∃ e ∈ p.entries, e.symbol = id ∧ e.isVisible = true) ∧ s.FitsTypeSlot g symbol ∧
        ¬ (g.options.hideObsolete = true ∧ symbol.isObsolete = true) := by
  obtain ⟨outlook, hentries⟩ := exists_scopingVerdict_of_lookup hp
  constructor
  · rintro ⟨o, ho, rfl, hv⟩
    obtain ⟨e, he, ho⟩ := Answer.exists_mem_of_mapM h ho
    obtain ⟨symbol', hstored', -⟩ := hentries e he
    have hsymbol := (offerOfEntry_eq_ok hstored' ho).1
    rw [hsymbol] at hstored ⊢
    obtain ⟨hvisible, hrest⟩ := (offerOfEntry_type_iff hslot hstored ho).1 hv
    exact ⟨⟨e, he, rfl, hvisible⟩, hrest⟩
  · rintro ⟨⟨e, he, rfl, hvisible⟩, hrest⟩
    obtain ⟨o, ho, hoffer⟩ := Answer.exists_answer_of_mapM h he
    exact ⟨o, ho, (offerOfEntry_eq_ok hstored hoffer).1,
      (offerOfEntry_type_iff hslot hstored hoffer).2 ⟨hvisible, hrest⟩⟩

/-- Whatever can be used behind a receiver can stand where only types can. -/
theorem Indexed.fitsTypeSlot_of_receiverOffers (hs : s.Indexed) {scope : ScopeId}
    {receiver : Receiver} {os : List Offer} (h : s.receiverOffers g scope receiver = .ok os)
    {o : Offer} (ho : o ∈ os) (hv : o.verdict = .applicable)
    (hstored : s.symbols[o.symbol]? = some symbol) : s.FitsTypeSlot g symbol := by
  have hmembers : ∀ {approach t ms}, s.typeOffers g approach t = .ok ms → o ∈ ms →
      s.FitsTypeSlot g symbol := by
    intro approach t ms hms ho
    obtain ⟨-, m, hm, hoffer⟩ := (hs.typeOffers_eq_ok hms).2 o ho
    rw [hstored] at hm
    cases hm
    rw [hv] at hoffer
    exact fitsTypeSlot_of_memberOffer hslot hoffer
  cases receiver with
  | unbound =>
      cases h
      cases ho
  | nameSpace space =>
      rw [receiverOffers, namespaceOffers] at h
      split at h
      · cases h
        cases ho
      · obtain ⟨m, hm, ho⟩ := Answer.exists_mem_of_mapM h ho
        obtain ⟨v, hoffer, ho⟩ := Answer.bind_eq_ok.1 ho
        cases ho
        cases hv
        have hsame := hs.stored_of_mem_symbolsIn (List.mem_filter.1 hm).1
        rw [hstored] at hsame
        cases hsame
        exact fitsTypeSlot_of_memberOffer hslot hoffer
  | type t => exact hmembers h ho
  | value t =>
      rcases (valueOffers_eq_ok_iff rfl).1 h with ⟨-, rfl⟩ | ⟨-, ms, es, hms, hes, rfl⟩
      · cases ho
      · rcases List.mem_append.1 ho with ho | ho
        · exact hmembers hms ho
        · obtain ⟨-, methods, hmethods, m, hm, ho⟩ := exists_method_of_mem_extensionOffers hes ho
          exact absurd hv (extensionOffer_type hslot (kind_of_mem_extensionMethods hmethods hm) ho)

end TypeSlot

end Store

/-! ### The completions there -/

theorem Candidate.collapse_eq_self {cs : List Candidate} (h : ∀ c ∈ cs, c.params = none) :
    collapse cs = cs := by
  have hmethods : (cs.filter fun c => c.params.isSome) = [] :=
    List.filter_eq_nil_iff.2 fun c hc => by simp [h c hc]
  have hothers : (cs.filter fun c => c.params.isNone) = cs :=
    List.filter_eq_self.2 fun c hc => by simp [h c hc]
  rw [collapse, hmethods, hothers]
  exact List.append_nil cs

namespace Snapshot

variable {snapshot : Snapshot} {signal : Signal} {options : Options} {request : Request}
  {offering : Offering}

/-- Without a receiver, the offers are for what a look-up meets. -/
theorem offers_of_lookup (hlink : (snapshot.cursorAt request).link = none)
    (hreceiver : request.receiver = none)
    (h : snapshot.offers signal options request = .ok offering) :
    ∃ site p, snapshot.store.siteAt (snapshot.store.scopeAt request.position) = .ok site ∧
      snapshot.store.lookup signal options request.position = .ok p ∧
      p.entries.mapM (snapshot.store.offerOfEntry
        (snapshot.settingAt signal options request site)) = .ok offering.offers := by
  obtain ⟨-, -, h⟩ := Answer.bind_eq_ok.1 h
  obtain ⟨site, hsite, h⟩ := Answer.bind_eq_ok.1 h
  rw [cursorAt] at hlink
  simp only [hlink, hreceiver, Option.isNone_none, Bool.and_self, if_true] at h
  obtain ⟨p, hp, h⟩ := Answer.bind_eq_ok.1 h
  obtain ⟨os, hos, h⟩ := Answer.bind_eq_ok.1 h
  cases h
  exact ⟨site, p, hsite, hp, hos⟩

/-- Where the symbols that can be used are no methods, each of them is completed if its name begins
with what is typed, whether overloads are collapsed or not. -/
theorem exists_mem_complete_iff (hs : snapshot.store.Indexed)
    (h : snapshot.offers signal options request = .ok offering)
    (hmethod : ∀ o ∈ offering.offers, o.verdict = .applicable →
      ∀ symbol, snapshot.store.symbols[o.symbol]? = some symbol →
        symbol.kind ≠ .method ∧ symbol.kind ≠ .localFunction)
    {cs : List Candidate} (hcs : snapshot.complete signal options request = .ok cs)
    (symbol : Symbol) :
    (∃ c ∈ cs, c.symbol = symbol) ↔
      snapshot.store.symbols[symbol.id]? = some symbol ∧
        isTyped offering.cursor.typed symbol.name = true ∧
        ∃ o ∈ offering.offers, o.symbol = symbol.id ∧ o.verdict = .applicable := by
  have hparams : ∀ c ∈ snapshot.store.shown options (Offer.usable offering.offers),
      c.params = none := by
    intro c hc
    obtain ⟨o, ho, hcandidate⟩ := Store.mem_shown.1 hc
    obtain ⟨hmem, hv⟩ := List.mem_filter.1 (List.mem_of_find?_eq_some ho)
    obtain ⟨-, hstored, -⟩ := hs.candidate?_eq_some hcandidate
    obtain ⟨hmethod, hlocal⟩ := hmethod o hmem (Offer.isApplicable_iff.1 hv) _ hstored
    have hshape := (Store.candidate?_params hcandidate).1
    rw [Candidate.isMethod, beq_eq_false_iff_ne.2 hmethod, beq_eq_false_iff_ne.2 hlocal] at hshape
    simpa using hshape
  have hsame : cs = Candidate.sort ((snapshot.store.shown options
      (Offer.usable offering.offers)).filter fun c =>
        isTyped offering.cursor.typed c.symbol.name) := by
    rw [complete, h] at hcs
    refine (Except.ok.inj hcs).symm.trans (congrArg Candidate.sort ?_)
    split
    · exact Candidate.collapse_eq_self fun c hc => hparams c (List.mem_filter.1 hc).1
    · rfl
  have hshown : (∃ c ∈ snapshot.store.shown options (Offer.usable offering.offers),
      c.symbol = symbol) ↔ _ := hs.exists_mem_shown_iff
  simp only [Offer.usable, List.mem_filter, Offer.isApplicable_iff] at hshown
  simp only [hsame, Candidate.mem_sort, List.mem_filter]
  constructor
  · rintro ⟨c, ⟨hc, htyped⟩, rfl⟩
    obtain ⟨hstored, o, ⟨ho, hv⟩, hid⟩ := hshown.1 ⟨c, hc, rfl⟩
    exact ⟨hstored, htyped, o, ho, hid, hv⟩
  · rintro ⟨hstored, htyped, o, ho, hid, hv⟩
    obtain ⟨c, hc, rfl⟩ := hshown.2 ⟨hstored, o, ⟨ho, hv⟩, hid⟩
    exact ⟨c, ⟨hc, htyped⟩, rfl⟩

section TypeSlot

variable (hslot : (snapshot.cursorAt request).slot = .typeOnly ∨
  (snapshot.cursorAt request).slot = .typeConstraint)
include hslot

/-- **Every symbol that can be used where only types can stand can stand there**, whatever way it
was met in. -/
theorem exists_site_fitsTypeSlot (hs : snapshot.store.Indexed)
    (h : snapshot.offers signal options request = .ok offering) :
    ∃ site, snapshot.store.siteAt (snapshot.store.scopeAt request.position) = .ok site ∧
      ∀ o ∈ offering.offers, o.verdict = .applicable →
        ∀ symbol, snapshot.store.symbols[o.symbol]? = some symbol →
          snapshot.store.FitsTypeSlot (snapshot.settingAt signal options request site) symbol := by
  by_cases hbehind :
      (snapshot.cursorAt request).link.isSome = true ∨ request.receiver.isSome = true
  · obtain ⟨-, site, receiver, os, hsite, -, hos, rfl⟩ := (offers_behind hbehind).1 h
    exact ⟨site, hsite, fun o ho hv symbol hstored =>
      hs.fitsTypeSlot_of_receiverOffers hslot hos ho hv hstored⟩
  · simp only [not_or, Bool.not_eq_true, Option.isSome_eq_false_iff, Option.isNone_iff_eq_none]
      at hbehind
    obtain ⟨site, p, hsite, hp, hos⟩ := offers_of_lookup hbehind.1 hbehind.2 h
    refine ⟨site, hsite, fun o ho hv symbol hstored => ?_⟩
    exact ((Store.exists_mem_lookupOffers_iff hslot hp hos hstored).1 ⟨o, ho, rfl, hv⟩).2.1

end TypeSlot

/-- **The completions where only types can stand.**  Each of them names a type or a namespace, and in
a constraint a type that is none itself leads to a type inside it that can be named from the place.
Without a receiver, nothing else is left out: the completions are for the symbols that a look-up
meets and that can be named, that can stand there and are not hidden as obsolete, and whose names
begin with what is typed. -/
theorem complete_in_type_position (hs : snapshot.store.Built) {signal : Signal} {options : Options}
    {request : Request}
    (hslot : (snapshot.cursorAt request).slot = .typeOnly ∨
      (snapshot.cursorAt request).slot = .typeConstraint)
    {cs : List Candidate} (hcs : snapshot.complete signal options request = .ok cs) :
    ∃ site, snapshot.store.siteAt (snapshot.store.scopeAt request.position) = .ok site ∧
      (∀ c ∈ cs,
        (c.symbol.kind = .type ∨ c.symbol.kind = .typeParameter ∨ c.symbol.kind = .nameSpace ∨
          c.symbol.kind = .aliasName ∧
            ∃ target, c.symbol.type = some target ∧ target.isUnresolved = false) ∧
        ((snapshot.cursorAt request).slot = .typeConstraint → c.symbol.kind = .type →
          snapshot.store.CannotConstrain c.symbol →
          ∃ nested ∈ snapshot.store.membersOf c.symbol.id, nested.kind = .type ∧
            snapshot.store.canAccess signal site nested = .ok true)) ∧
      ((snapshot.cursorAt request).link = none → request.receiver = none →
        ∃ p, snapshot.store.lookup signal options request.position = .ok p ∧
          ∀ symbol, (∃ c ∈ cs, c.symbol = symbol) ↔
            snapshot.store.symbols[symbol.id]? = some symbol ∧
              (∃ e ∈ p.entries, e.symbol = symbol.id ∧ e.isVisible = true) ∧
              snapshot.store.FitsTypeSlot (snapshot.settingAt signal options request site) symbol ∧
              ¬ (options.hideObsolete = true ∧ symbol.isObsolete = true) ∧
              isTyped (snapshot.cursorAt request).typed symbol.name = true) := by
  obtain ⟨offering, hoffers, -⟩ := Answer.bind_eq_ok.1 hcs
  obtain ⟨site, hsite, hfits⟩ := exists_site_fitsTypeSlot hslot hs.indexed hoffers
  have hmem := fun symbol : Symbol => exists_mem_complete_iff hs.indexed hoffers
    (fun o ho hv symbol hstored => (hfits o ho hv symbol hstored).names.ne_method) hcs symbol
  refine ⟨site, hsite, fun c hc => ?_, fun hlink hreceiver => ?_⟩
  · obtain ⟨hstored, -, o, ho, hid, hv⟩ := (hmem c.symbol).1 ⟨c, hc, rfl⟩
    have hc := hfits o ho hv c.symbol (hid ▸ hstored)
    exact ⟨hc.names, hc.leads⟩
  · obtain ⟨site', p, hsite', hp, hos⟩ := offers_of_lookup hlink hreceiver hoffers
    rw [hsite] at hsite'
    cases hsite'
    refine ⟨p, hp, fun symbol => ?_⟩
    rw [hmem, (offers_eq_ok hoffers).1]
    refine and_congr_right fun hstored => ?_
    rw [Store.exists_mem_lookupOffers_iff hslot hp hos hstored, ← cursorAt]
    constructor
    · rintro ⟨htyped, hmet, hfits, hobsolete⟩
      exact ⟨hmet, hfits, hobsolete, htyped⟩
    · rintro ⟨hmet, hfits, hobsolete, htyped⟩
      exact ⟨htyped, hmet, hfits, hobsolete⟩

/-- A sealed type with a type inside it. -/
def outerType : Symbol where
  id := ⟨0⟩
  kind := .type
  name := "Outer"
  scope := ⟨0⟩
  modifiers := [.sealed]

/-- The sealed type, the type inside it, a sealed type without types inside it, and another name for
a type that is not known. -/
def constraintSymbols : List Symbol := [
    outerType,
    { id := ⟨1⟩, kind := .type, name := "Inner", scope := ⟨1⟩, container := some ⟨0⟩ },
    { id := ⟨2⟩, kind := .type, name := "Ounce", scope := ⟨0⟩, modifiers := [.sealed] },
    { id := ⟨3⟩, kind := .aliasName, name := "Ouch", scope := ⟨0⟩, type := some .unresolved }]

/-- A constraint of which two letters are typed. -/
def constraintText : Snapshot where
  store := constraintSymbols.foldl Store.insertSymbol
    (Store.empty.insertScope { id := ⟨0⟩, kind := .nameSpace, span := ⟨0, 90⟩ }
      |>.insertScope { id := ⟨1⟩, kind := .type, span := ⟨40, 80⟩, parent := some ⟨0⟩,
                       owner := some ⟨0⟩ })
  text := "class D<T> where T : Ou"
  version := 1

theorem built_constraintText : constraintText.store.Built :=
  .insertSymbol _ (.insertSymbol _ (.insertSymbol _ (.insertSymbol _
    (.insertScope _ (.insertScope _ .empty)))))

/-- Of three names that begin with what is typed, only the sealed type is offered that leads to a
type inside it. -/
theorem complete_in_type_position_constraintText :
    (constraintText.cursorAt ⟨23, none⟩).slot = .typeConstraint ∧
      (∃ cs, constraintText.complete .quiet {} ⟨23, none⟩ = .ok cs ∧
        cs.map Candidate.symbol = [outerType]) ∧
      constraintText.store.CannotConstrain outerType ∧
      ∃ nested ∈ constraintText.store.membersOf outerType.id, nested.kind = .type ∧
        constraintText.store.canAccess .quiet ⟨[]⟩ nested = .ok true := by
  have hslot : (constraintText.cursorAt ⟨23, none⟩).slot = .typeConstraint := by decide +kernel
  have hlist : (constraintText.complete .quiet {} ⟨23, none⟩).map (List.map Candidate.symbol) =
      .ok [outerType] := by decide +kernel
  obtain ⟨cs, hcs, hsymbols⟩ := Answer.map_eq_ok.1 hlist
  have hclosed : constraintText.store.CannotConstrain outerType := .inr (.inl rfl)
  have hsite : constraintText.store.siteAt (constraintText.store.scopeAt 23) = .ok ⟨[]⟩ := by
    decide +kernel
  refine ⟨hslot, ⟨cs, hcs, hsymbols⟩, hclosed, ?_⟩
  obtain ⟨site, hsite', hall, -⟩ :=
    complete_in_type_position built_constraintText (.inr hslot) hcs
  rw [hsite] at hsite'
  cases hsite'
  obtain ⟨c, rest, rfl, hc, -⟩ := List.map_eq_cons_iff.1 hsymbols
  have hleads := (hall c (List.mem_cons_self ..)).2 hslot
  rw [hc] at hleads
  exact hleads rfl hclosed

end Snapshot

end Ambit
