/-
Symbols that are offered more than once.

At a cursor a symbol can be considered more than once: a look-up meets a type again in each scope
that imports its namespace.  A later offer of a symbol then has nothing to add to the first, with
one exception.  A static class can declare an extension method for itself; behind a value of that
class the method is a member, which no value has, and also an extension method, which can be called.

Main definitions:

* `Ambit.Offer.Steady` — offers of a symbol before one that can be used can be used;
* `Ambit.Offer.Contested` — some offer of a symbol can be used, and the first one cannot;
* `Ambit.Offer.Doubled` — a symbol is a member and an extension method that can be called;
* `Ambit.Offer.Parted` — the offers of members before those of extension methods;
* `Ambit.Store.extensionOffers` — the offers for the extension methods behind a value.

Main results:

* `Ambit.Store.valueOffers_eq` — the offers behind a value: members, and then extension methods;
* `Ambit.Snapshot.exists_parted` — the shape of the offers at a cursor;
* `Ambit.Offer.Parted.contested_iff` — **the contested symbols are those that are members and
  extension methods**.
-/

import Ambit.Completion
import Ambit.Proofs.Extension

set_option relaxedAutoImplicit false
set_option autoImplicit false

namespace Ambit

namespace Store

variable {s : Store} {signal : Signal}

theorem origin_ne_extension_of_contributes {id : ScopeId} {found : Finding}
    (h : s.Contributes signal id found) : found.origin ≠ .extension := by
  rcases contributes_cases h with ⟨scope, symbol, -, rfl | rfl⟩ | ⟨t, ms, -, m, -, rfl⟩ |
    ⟨scope, owner, -, -, -, -, p, -, rfl⟩
  · simp
  · simp
  · dsimp only
    split <;> simp
  · simp

end Store

/-! ### Several offers of one symbol -/

namespace Offer

variable {os ms es : List Offer} {symbol : SymbolId}

/-- Offers of a symbol before one that can be used can be used. -/
def Steady (os : List Offer) : Prop :=
  os.Pairwise fun a b => a.symbol = b.symbol → b.verdict = .applicable → a.verdict = .applicable

/-- Some offer of a symbol can be used, and the first one cannot. -/
def Contested (os : List Offer) (symbol : SymbolId) : Prop :=
  ∃ first, os.find? (fun o => o.symbol == symbol) = some first ∧ first.verdict ≠ .applicable ∧
    ∃ o ∈ os, o.symbol = symbol ∧ o.verdict = .applicable

/-- A symbol is offered as a member, and also as an extension method that can be called. -/
def Doubled (os : List Offer) (symbol : SymbolId) : Prop :=
  (∃ o ∈ os, o.symbol = symbol ∧ o.origin ≠ .extension) ∧
    ∃ o ∈ os, o.symbol = symbol ∧ o.origin = .extension ∧ o.verdict = .applicable

theorem Steady.of_pairwise_ne (h : os.Pairwise fun a b => a.symbol ≠ b.symbol) : Steady os :=
  h.imp fun hne heq => absurd heq hne

theorem Steady.not_contested (h : Steady os) (symbol : SymbolId) : ¬ Contested os symbol := by
  rintro ⟨first, hfirst, hno, o, ho, hsymbol, hv⟩
  obtain ⟨hfound, before, after, rfl, hbefore⟩ := List.find?_eq_some_iff_append.1 hfirst
  have hsame : first.symbol = symbol := by simpa using hfound
  rcases List.mem_append.1 ho with ho | ho
  · have hne := hbefore o ho
    simp [hsymbol] at hne
  · rcases List.mem_cons.1 ho with rfl | ho
    · exact hno hv
    · have hrest := (List.pairwise_cons.1 (List.pairwise_append.1 h).2.1).1
      exact hno (hrest o ho (hsame.trans hsymbol.symm) hv)

/-- The offers of members come before those of extension methods; neither are at odds among
themselves, and a member that can be called as an extension method is static. -/
structure Parted (ms es : List Offer) : Prop where
  members : Steady ms
  extensions : Steady es
  origin_members : ∀ o ∈ ms, o.origin ≠ .extension
  origin_extensions : ∀ o ∈ es, o.origin = .extension
  static : ∀ o ∈ ms, ∀ e ∈ es, o.symbol = e.symbol → e.verdict = .applicable →
    o.verdict = .excluded .staticViaInstance

namespace Parted

/-- Members alone. -/
theorem of_steady (hsteady : Steady ms) (horigin : ∀ o ∈ ms, o.origin ≠ .extension) :
    Parted ms [] where
  members := hsteady
  extensions := .nil
  origin_members := horigin
  origin_extensions _ ho := absurd ho List.not_mem_nil
  static _ _ _ he := absurd he List.not_mem_nil

variable (h : Parted ms es)
include h

theorem exists_of_doubled (hd : Doubled (ms ++ es) symbol) :
    (∃ o ∈ ms, o.symbol = symbol) ∧ ∃ e ∈ es, e.symbol = symbol ∧ e.verdict = .applicable := by
  obtain ⟨⟨o, ho, hsymbol, horigin⟩, e, he, hsymbol', horigin', hv⟩ := hd
  constructor
  · rcases List.mem_append.1 ho with ho | ho
    · exact ⟨o, ho, hsymbol⟩
    · exact absurd (h.origin_extensions o ho) horigin
  · rcases List.mem_append.1 he with he | he
    · exact absurd horigin' (h.origin_members e he)
    · exact ⟨e, he, hsymbol', hv⟩

/-- A member that can be called as an extension method is excluded as static by its first offer. -/
theorem exists_first_of_doubled (hd : Doubled (ms ++ es) symbol) :
    ∃ first, (ms ++ es).find? (fun o => o.symbol == symbol) = some first ∧
      first.verdict = .excluded .staticViaInstance := by
  obtain ⟨⟨o, ho, hsymbol⟩, e, he, hsymbol', hv⟩ := h.exists_of_doubled hd
  obtain ⟨first, hfirst⟩ : ∃ first, ms.find? (fun o => o.symbol == symbol) = some first := by
    rw [← Option.isSome_iff_exists, List.find?_isSome]
    exact ⟨o, ho, by simpa using hsymbol⟩
  have hsame : first.symbol = symbol := by simpa using List.find?_some hfirst
  refine ⟨first, ?_, h.static first (List.mem_of_find?_eq_some hfirst) e he
    (hsame.trans hsymbol'.symm) hv⟩
  rw [List.find?_append, hfirst, Option.some_or]

/-- **The contested symbols are those that are members and extension methods.** -/
theorem contested_iff : Contested (ms ++ es) symbol ↔ Doubled (ms ++ es) symbol := by
  constructor
  · rintro ⟨first, hfirst, hno, o, ho, hsymbol, hv⟩
    rw [List.find?_append] at hfirst
    cases hmember : ms.find? (fun o => o.symbol == symbol) with
    | some member =>
        -- another offer of the member would agree with the first
        rw [hmember, Option.some_or, Option.some.injEq] at hfirst
        subst hfirst
        rcases List.mem_append.1 ho with ho | ho
        · exact absurd ⟨member, hmember, hno, o, ho, hsymbol, hv⟩ (h.members.not_contested symbol)
        · have hmem := List.mem_of_find?_eq_some hmember
          have hsame : member.symbol = symbol := by simpa using List.find?_some hmember
          exact ⟨⟨member, List.mem_append_left _ hmem, hsame, h.origin_members member hmem⟩,
            o, List.mem_append_right _ ho, hsymbol, h.origin_extensions o ho, hv⟩
    | none =>
        rw [hmember, Option.none_or] at hfirst
        rcases List.mem_append.1 ho with ho | ho
        · have hne := List.find?_eq_none.1 hmember o ho
          simp [hsymbol] at hne
        · exact absurd ⟨first, hfirst, hno, o, ho, hsymbol, hv⟩ (h.extensions.not_contested symbol)
  · intro hd
    obtain ⟨first, hfirst, hstatic⟩ := h.exists_first_of_doubled hd
    obtain ⟨-, e, he, hsymbol, hv⟩ := h.exists_of_doubled hd
    exact ⟨first, hfirst, by simp [hstatic], e, List.mem_append_right _ he, hsymbol, hv⟩

end Parted

end Offer

/-! ### The offers at a cursor -/

namespace Store

variable {s : Store} {g : Setting} {os : List Offer}

/-- The offer for an entry: a symbol that can be named still has to fit the place. -/
theorem offerOfEntry_eq_ok {e : Entry} {symbol : Symbol} {o : Offer}
    (hstored : s.symbols[e.symbol]? = some symbol) (h : s.offerOfEntry g e = .ok o) :
    o.symbol = e.symbol ∧ o.origin = e.origin ∧
      if e.isVisible then g.filterObsolete symbol <$> s.slotVerdict g symbol = .ok o.verdict
      else o.verdict = e.verdict := by
  rw [offerOfEntry, hstored] at h
  cases hverdict : e.verdict with
  | applicable =>
      rw [if_pos (Entry.isVisible_eq_true_iff.2 hverdict)]
      rw [hverdict] at h
      obtain ⟨v, hv, h⟩ := Answer.bind_eq_ok.1 h
      cases h
      exact ⟨rfl, rfl, hv⟩
  | excluded reason =>
      have hvisible : e.isVisible ≠ true := by
        rw [ne_eq, Entry.isVisible_eq_true_iff, hverdict]
        simp
      rw [if_neg hvisible]
      rw [hverdict] at h
      cases h
      exact ⟨rfl, rfl, rfl⟩

theorem parted_lookup {signal : Signal} {options : Options} {position : UInt64} {p : Panorama}
    (hp : s.lookup signal options position = .ok p)
    (h : p.entries.mapM (s.offerOfEntry g) = .ok os) : Offer.Parted os [] := by
  obtain ⟨outlook, hentries⟩ := exists_scopingVerdict_of_lookup hp
  refine .of_steady ?_ fun o ho => ?_
  · refine Answer.pairwise_of_mapM h (pairwise_entries hp) ?_
    intro e he e' he' hsteady o o' ho ho' hsymbol hv
    obtain ⟨symbol, hstored, -⟩ := hentries e he
    obtain ⟨symbol', hstored', -⟩ := hentries e' he'
    obtain ⟨hsame, -, hverdict⟩ := offerOfEntry_eq_ok hstored ho
    obtain ⟨hsame', -, hverdict'⟩ := offerOfEntry_eq_ok hstored' ho'
    rw [hsame, hsame'] at hsymbol
    rw [← hsymbol, hstored] at hstored'
    cases hstored'
    have hvisible' : e'.isVisible = true := by
      by_contra hvisible'
      rw [if_neg hvisible', hv] at hverdict'
      exact hvisible' (Entry.isVisible_eq_true_iff.2 hverdict'.symm)
    rw [if_pos hvisible'] at hverdict'
    rw [if_pos (hsteady hsymbol hvisible'), hverdict'] at hverdict
    exact (Except.ok.inj hverdict).symm.trans hv
  · obtain ⟨e, he, ho⟩ := Answer.exists_mem_of_mapM h ho
    obtain ⟨symbol, hstored, -⟩ := hentries e he
    rw [(offerOfEntry_eq_ok hstored ho).2.1]
    obtain ⟨id, hcontributes⟩ := exists_contributes_of_mem_entries hp he
    exact origin_ne_extension_of_contributes hcontributes

/-- The offers for the members of a type: one for each member, with the verdict on it. -/
theorem Indexed.typeOffers_eq_ok (hs : s.Indexed) {approach : Approach} {t : TypeRef}
    (h : s.typeOffers g approach t = .ok os) :
    os.Pairwise (fun a b => a.symbol ≠ b.symbol) ∧
      ∀ o ∈ os, o.origin ≠ .extension ∧ ∃ m, s.symbols[o.symbol]? = some m ∧
        s.memberOffer g approach m = .ok o.verdict := by
  obtain ⟨ms, hms, h⟩ := Answer.bind_eq_ok.1 h
  constructor
  · refine Answer.pairwise_of_mapM h (hs.pairwise_typeMembers hms) ?_
    intro m _ m' _ hne o o' ho ho'
    obtain ⟨v, -, ho⟩ := Answer.bind_eq_ok.1 ho
    obtain ⟨v', -, ho'⟩ := Answer.bind_eq_ok.1 ho'
    cases ho
    cases ho'
    exact hne
  · intro o ho
    obtain ⟨m, hm, ho⟩ := Answer.exists_mem_of_mapM h ho
    obtain ⟨v, hv, ho⟩ := Answer.bind_eq_ok.1 ho
    cases ho
    refine ⟨?_, m.symbol, hs.stored_of_mem_typeMembers hms hm, hv⟩
    dsimp only
    split <;> simp

theorem Indexed.parted_typeOffers (hs : s.Indexed) {approach : Approach} {t : TypeRef}
    (h : s.typeOffers g approach t = .ok os) : Offer.Parted os [] :=
  .of_steady (.of_pairwise_ne (hs.typeOffers_eq_ok h).1) fun o ho =>
    ((hs.typeOffers_eq_ok h).2 o ho).1

theorem Indexed.parted_namespaceOffers (hs : s.Indexed) {nameSpace : SymbolId}
    (h : s.namespaceOffers g nameSpace = .ok os) : Offer.Parted os [] := by
  rw [namespaceOffers] at h
  split at h
  · cases h
    exact .of_steady .nil fun o ho => absurd ho List.not_mem_nil
  · refine .of_steady (.of_pairwise_ne ?_) fun o ho => ?_
    · refine Answer.pairwise_of_mapM h ((hs.pairwise_ne_symbolsIn _).filter _) ?_
      intro m _ m' _ hne o o' ho ho'
      obtain ⟨v, -, ho⟩ := Answer.bind_eq_ok.1 ho
      obtain ⟨v', -, ho'⟩ := Answer.bind_eq_ok.1 ho'
      cases ho
      cases ho'
      exact hne
    · obtain ⟨m, -, ho⟩ := Answer.exists_mem_of_mapM h ho
      obtain ⟨v, -, ho⟩ := Answer.bind_eq_ok.1 ho
      cases ho
      simp

/-- An extension method that can be called can be accessed. -/
theorem extensionOffer_eq_ok {t : TypeRef} {m : Symbol} {o : Offer}
    (h : s.extensionOffer g t m = .ok o) :
    o.symbol = m.id ∧ o.origin = .extension ∧
      (o.verdict = .applicable → s.canAccess g.signal g.site m = .ok true) := by
  obtain ⟨given, -, h⟩ := Answer.bind_eq_ok.1 h
  obtain ⟨v, hv, h⟩ := Answer.bind_eq_ok.1 h
  cases h
  refine ⟨rfl, rfl, fun hverdict => ?_⟩
  obtain ⟨reached, hreached, hv⟩ := Answer.bind_eq_ok.1 hv
  cases reached with
  | true => exact hreached
  | false =>
      cases hv
      cases hverdict

theorem memberOffer_value_of_isStatic {m : Symbol} {v : Verdict} (hstatic : m.isStatic = true)
    (haccess : s.canAccess g.signal g.site m = .ok true) (h : s.memberOffer g .value m = .ok v) :
    v = .excluded .staticViaInstance := by
  rw [memberOffer, haccess] at h
  have hreason : s.unreachable? m .value = some .staticViaInstance := by
    rw [unreachable?, if_pos hstatic]
  rw [hreason] at h
  exact (Except.ok.inj h).symm

/-- The offers for the extension methods that can be called on a value, if they are asked for. -/
def extensionOffers (s : Store) (g : Setting) (scope : ScopeId) (t : TypeRef) :
    Answer (List Offer) :=
  if g.options.extensionMethods then do
    (← s.extensionMethods g.signal scope).mapM (s.extensionOffer g t)
  else .ok []

/-- Every offer for an extension method is one for a method in scope. -/
theorem exists_method_of_mem_extensionOffers {scope : ScopeId} {t : TypeRef} {o : Offer}
    (h : s.extensionOffers g scope t = .ok os) (ho : o ∈ os) :
    g.options.extensionMethods = true ∧ ∃ methods, s.extensionMethods g.signal scope = .ok methods ∧
      ∃ m ∈ methods, s.extensionOffer g t m = .ok o := by
  rw [extensionOffers] at h
  split at h
  · rename_i hoption
    obtain ⟨methods, hmethods, h⟩ := Answer.bind_eq_ok.1 h
    exact ⟨hoption, methods, hmethods, Answer.exists_mem_of_mapM h ho⟩
  · cases h
    cases ho

/-- **The offers behind a value** of a known type: those for its members, and then those for the
extension methods that can be called on it. -/
theorem valueOffers_eq {scope : ScopeId} {type t : TypeRef}
    (ht : s.valueType g.cursor.link type = t) (hknown : t.isUnresolved = false) :
    s.valueOffers g scope type = (do
      let members ← s.typeOffers g .value t
      let extensions ← s.extensionOffers g scope t
      return members ++ extensions) := by
  rw [valueOffers, ht, if_neg (by simp [hknown])]
  refine congrArg _ (funext fun members => ?_)
  rw [extensionOffers]
  split
  · rw [bind_assoc]
  · exact congrArg Except.ok (List.append_nil members).symm

theorem valueOffers_eq_ok_iff {scope : ScopeId} {type t : TypeRef}
    (ht : s.valueType g.cursor.link type = t) :
    s.valueOffers g scope type = .ok os ↔
      t.isUnresolved = true ∧ os = [] ∨
        t.isUnresolved = false ∧ ∃ ms es, s.typeOffers g .value t = .ok ms ∧
          s.extensionOffers g scope t = .ok es ∧ os = ms ++ es := by
  cases hknown : t.isUnresolved with
  | true =>
      rw [valueOffers, ht, if_pos hknown]
      simp [eq_comm]
  | false =>
      rw [valueOffers_eq ht hknown]
      constructor
      · intro h
        obtain ⟨ms, hms, h⟩ := Answer.bind_eq_ok.1 h
        obtain ⟨es, hes, h⟩ := Answer.bind_eq_ok.1 h
        exact .inr ⟨rfl, ms, es, hms, hes, (Except.ok.inj h).symm⟩
      · rintro (⟨h, -⟩ | ⟨-, ms, es, hms, hes, rfl⟩)
        · cases h
        · exact Answer.bind_eq_ok.2 ⟨ms, hms, Answer.bind_eq_ok.2 ⟨es, hes, rfl⟩⟩

/-- The offers behind a value: its members, and the extension methods that can be called on it. -/
theorem Indexed.exists_parted_valueOffers (hs : s.Indexed) {scope : ScopeId} {t : TypeRef}
    (h : s.valueOffers g scope t = .ok os) :
    ∃ ms es, os = ms ++ es ∧ Offer.Parted ms es ∧
      (es ≠ [] → g.options.extensionMethods = true) := by
  rcases (valueOffers_eq_ok_iff rfl).1 h with ⟨-, rfl⟩ | ⟨-, ms, es, hms, hes, rfl⟩
  · exact ⟨[], [], rfl, .of_steady .nil fun o ho => absurd ho List.not_mem_nil, absurd rfl⟩
  · refine ⟨ms, es, rfl, ⟨(hs.parted_typeOffers hms).members, ?_,
      (hs.parted_typeOffers hms).origin_members, ?_, ?_⟩, fun hne => ?_⟩
    · -- offers of one method are the same offer
      refine List.pairwise_of_forall_mem_list fun o ho o' ho' hsymbol hv => ?_
      obtain ⟨-, methods, hmethods, m, hm, ho⟩ := exists_method_of_mem_extensionOffers hes ho
      obtain ⟨-, methods', hmethods', m', hm', ho'⟩ := exists_method_of_mem_extensionOffers hes ho'
      rw [(extensionOffer_eq_ok ho).1, (extensionOffer_eq_ok ho').1] at hsymbol
      have hstored := (hs.stored_of_mem_extensionMethods hmethods hm).1
      have hstored' := (hs.stored_of_mem_extensionMethods hmethods' hm').1
      rw [hsymbol, hstored'] at hstored
      cases hstored
      rw [ho] at ho'
      cases ho'
      exact hv
    · intro o ho
      obtain ⟨-, -, -, m, -, ho⟩ := exists_method_of_mem_extensionOffers hes ho
      exact (extensionOffer_eq_ok ho).2.1
    · intro o ho e he hsymbol hv
      obtain ⟨-, m, hstored, hverdict⟩ := (hs.typeOffers_eq_ok hms).2 o ho
      obtain ⟨-, methods, hmethods, m', hm', he⟩ := exists_method_of_mem_extensionOffers hes he
      obtain ⟨hstored', hstatic⟩ := hs.stored_of_mem_extensionMethods hmethods hm'
      obtain ⟨hsame, -, haccess⟩ := extensionOffer_eq_ok he
      rw [hsymbol, hsame, hstored'] at hstored
      cases hstored
      exact memberOffer_value_of_isStatic hstatic (haccess hv) hverdict
    · obtain ⟨o, ho⟩ := List.exists_mem_of_ne_nil es hne
      exact (exists_method_of_mem_extensionOffers hes ho).1

/-- The offers behind a receiver. -/
theorem Indexed.exists_parted_receiverOffers (hs : s.Indexed) {scope : ScopeId}
    {receiver : Receiver} (h : s.receiverOffers g scope receiver = .ok os) :
    ∃ ms es, os = ms ++ es ∧ Offer.Parted ms es ∧
      (es ≠ [] → g.options.extensionMethods = true ∧ ∃ t, receiver = .value t) := by
  cases receiver with
  | unbound =>
      cases h
      exact ⟨[], [], rfl, .of_steady .nil fun o ho => absurd ho List.not_mem_nil, absurd rfl⟩
  | nameSpace symbol =>
      exact ⟨os, [], (List.append_nil os).symm, hs.parted_namespaceOffers h, absurd rfl⟩
  | type t => exact ⟨os, [], (List.append_nil os).symm, hs.parted_typeOffers h, absurd rfl⟩
  | value t =>
      obtain ⟨ms, es, hos, hparted, hoption⟩ := hs.exists_parted_valueOffers h
      exact ⟨ms, es, hos, hparted, fun hes => ⟨hoption hes, t, rfl⟩⟩

end Store

namespace Snapshot

variable {snapshot : Snapshot} {signal : Signal} {options : Options} {request : Request}
  {offering : Offering}

/-- The offers at a cursor are for what a look-up meets, or for what is behind a receiver. -/
theorem offers_eq_ok (h : snapshot.offers signal options request = .ok offering) :
    offering.cursor = Cursor.ofText (snapshot.textBefore request.position) ∧
      ∃ g : Setting, g.options = options ∧
        ((∃ p, snapshot.store.lookup signal options request.position = .ok p ∧
          p.entries.mapM (snapshot.store.offerOfEntry g) = .ok offering.offers) ∨
        ∃ scope receiver, offering.receiver = some receiver ∧
          snapshot.store.receiverOffers g scope receiver = .ok offering.offers) := by
  obtain ⟨-, -, h⟩ := Answer.bind_eq_ok.1 h
  obtain ⟨site, -, h⟩ := Answer.bind_eq_ok.1 h
  split at h
  · obtain ⟨p, hp, h⟩ := Answer.bind_eq_ok.1 h
    obtain ⟨os, hos, h⟩ := Answer.bind_eq_ok.1 h
    cases h
    exact ⟨rfl, _, rfl, Or.inl ⟨p, hp, hos⟩⟩
  · dsimp only at h
    -- the receiver is given, or it is found from the text
    split at h
    all_goals
      obtain ⟨receiver, -, h⟩ := Answer.bind_eq_ok.1 h
      obtain ⟨os, hos, h⟩ := Answer.bind_eq_ok.1 h
      cases h
      exact ⟨rfl, _, rfl, Or.inr ⟨_, receiver, rfl, hos⟩⟩

/-- **The shape of the offers at a cursor.**  Extension methods are offered behind values only. -/
theorem exists_parted (hs : snapshot.store.Indexed)
    (h : snapshot.offers signal options request = .ok offering) :
    ∃ ms es, offering.offers = ms ++ es ∧ Offer.Parted ms es ∧
      (es ≠ [] → options.extensionMethods = true ∧ ∃ t, offering.receiver = some (.value t)) := by
  obtain ⟨-, g, rfl, ⟨p, hp, hos⟩ | ⟨scope, receiver, hreceiver, hos⟩⟩ := offers_eq_ok h
  · exact ⟨offering.offers, [], (List.append_nil _).symm, Store.parted_lookup hp hos, absurd rfl⟩
  · obtain ⟨ms, es, hsplit, hparted, hvalue⟩ := hs.exists_parted_receiverOffers hos
    refine ⟨ms, es, hsplit, hparted, fun hes => ?_⟩
    obtain ⟨hoption, t, rfl⟩ := hvalue hes
    exact ⟨hoption, t, hreceiver⟩

end Snapshot

end Ambit
