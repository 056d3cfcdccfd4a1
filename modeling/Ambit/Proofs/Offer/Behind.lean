/-
What is offered behind a receiver.

Behind an access operator, or when a receiver is given, the members of the receiver are offered.
Where an expression can stand, the verdict on a member has four parts that do not depend on each
other: it can be named from the place of the cursor, it can be reached through the receiver, it can
be the operand of a pattern if it is one, and it is not hidden as obsolete.  The question has an
answer exactly when it is known whether the member can be named.

Main definitions:

* `Ambit.Snapshot.cursorAt`, `Ambit.Snapshot.settingAt` — what the text says at a request, and the
  circumstances of its verdicts;
* `Ambit.Snapshot.receiverAt` — what stands before the cursor of a request.

Main results:

* `Ambit.Cursor.ofText_of_link_eq_none` — without an access operator there is neither a receiver nor
  a pattern;
* `Ambit.Snapshot.offers_behind_eq`, `Ambit.Snapshot.offers_behind` — the offers behind a receiver;
* `Ambit.Store.exists_memberOffer_iff`, `Ambit.Store.memberOffer_applicable_iff` — **when there is a
  verdict on a member, and when the member can be used**.
-/

import Ambit.Proofs.Offer

set_option relaxedAutoImplicit false
set_option autoImplicit false

namespace Ambit

/-! ### The cursor -/

namespace Cursor

/-- Without an access operator, the tokens name no receiver and form no operand of a pattern. -/
theorem afterTokens_of_link_eq_none {typed : String} {before : List Token}
    (h : (afterTokens typed before).link = none) :
    (afterTokens typed before).inPattern = false ∧ (afterTokens typed before).receiver = [] := by
  unfold afterTokens at h ⊢
  split
  · exact ⟨rfl, rfl⟩
  · rename_i t rest
    dsimp only at h
    split
    · rename_i link hlink
      rw [hlink] at h
      dsimp only [afterLink] at h
      split at h <;> cases h
    · exact ⟨rfl, rfl⟩

theorem ofText_eq_default_or (text : String) :
    ofText text = {} ∨ ∃ typed before, ofText text = afterTokens typed before := by
  unfold ofText
  split
  · exact .inl rfl
  · split
    · exact .inl rfl
    · split <;> exact .inr ⟨_, _, rfl⟩

/-- **Without an access operator there is neither a receiver nor a pattern.** -/
theorem ofText_of_link_eq_none {text : String} (h : (ofText text).link = none) :
    (ofText text).inPattern = false ∧ (ofText text).receiver = [] := by
  rcases ofText_eq_default_or text with htext | ⟨typed, before, htext⟩
  · rw [htext]
    exact ⟨rfl, rfl⟩
  · rw [htext] at h ⊢
    exact afterTokens_of_link_eq_none h

theorem link_isSome_of_inPattern {text : String} (h : (ofText text).inPattern = true) :
    (ofText text).link.isSome = true := by
  rw [Option.isSome_iff_ne_none]
  intro hlink
  rw [(ofText_of_link_eq_none hlink).1] at h
  cases h

end Cursor

/-! ### The receiver -/

namespace Snapshot

/-- What the text before a request says. -/
def cursorAt (snapshot : Snapshot) (request : Request) : Cursor :=
  Cursor.ofText (snapshot.textBefore request.position)

/-- The circumstances in which the symbols of a request are judged. -/
def settingAt (snapshot : Snapshot) (signal : Signal) (options : Options) (request : Request)
    (site : Site) : Setting :=
  { signal, options, site, cursor := snapshot.cursorAt request }

/-- **What stands before the cursor of a request**: what is given, or what the names before the
cursor stand for. -/
def receiverAt (snapshot : Snapshot) (signal : Signal) (options : Options) (request : Request) :
    Answer Receiver :=
  match request.receiver with
  | some receiver => .ok receiver
  | none =>
      snapshot.store.resolve signal options request.position (snapshot.cursorAt request).receiver

variable {snapshot : Snapshot} {signal : Signal} {options : Options} {request : Request}

/-- A value that stands before the cursor is given, or stands behind an access operator. -/
theorem behind_of_receiverAt {t : TypeRef}
    (h : snapshot.receiverAt signal options request = .ok (.value t)) :
    (snapshot.cursorAt request).link.isSome = true ∨ request.receiver.isSome = true := by
  rw [receiverAt] at h
  cases hreceiver : request.receiver with
  | some receiver => exact .inr rfl
  | none =>
      rw [hreceiver] at h
      refine .inl (Option.isSome_iff_ne_none.2 fun hlink => ?_)
      dsimp only at h
      rw [cursorAt, (Cursor.ofText_of_link_eq_none hlink).2] at h
      cases h

section Behind

variable
  (hbehind : (snapshot.cursorAt request).link.isSome = true ∨ request.receiver.isSome = true)
include hbehind

/-- Behind a receiver, the offers are what can be reached through it. -/
theorem offers_behind_eq :
    snapshot.offers signal options request = (do
      signal.check
      let site ← snapshot.store.siteAt (snapshot.store.scopeAt request.position)
      let receiver ← snapshot.receiverAt signal options request
      let os ← snapshot.store.receiverOffers (snapshot.settingAt signal options request site)
        (snapshot.store.scopeAt request.position) receiver
      return ⟨snapshot.cursorAt request, some receiver, os⟩) := by
  have hlookup : ¬ ((snapshot.cursorAt request).link.isNone && request.receiver.isNone) = true := by
    rcases hbehind with h | h <;> simp [Option.isNone_eq_false_iff.2 h]
  rw [cursorAt] at hlookup
  rw [offers, receiverAt]
  simp only [if_neg hlookup]
  cases request.receiver with
  | none => rfl
  | some receiver => rfl

/-- **The offers behind a receiver.** -/
theorem offers_behind {offering : Offering} :
    snapshot.offers signal options request = .ok offering ↔
      signal = .quiet ∧
        ∃ site receiver os,
          snapshot.store.siteAt (snapshot.store.scopeAt request.position) = .ok site ∧
          snapshot.receiverAt signal options request = .ok receiver ∧
          snapshot.store.receiverOffers (snapshot.settingAt signal options request site)
            (snapshot.store.scopeAt request.position) receiver = .ok os ∧
          offering = ⟨snapshot.cursorAt request, some receiver, os⟩ := by
  rw [offers_behind_eq hbehind]
  constructor
  · intro h
    obtain ⟨⟨⟩, hcheck, h⟩ := Answer.bind_eq_ok.1 h
    obtain ⟨site, hsite, h⟩ := Answer.bind_eq_ok.1 h
    obtain ⟨receiver, hreceiver, h⟩ := Answer.bind_eq_ok.1 h
    obtain ⟨os, hos, h⟩ := Answer.bind_eq_ok.1 h
    cases h
    exact ⟨Signal.eq_quiet_of_check hcheck, site, receiver, os, hsite, hreceiver, hos, rfl⟩
  · rintro ⟨rfl, site, receiver, os, hsite, hreceiver, hos, rfl⟩
    simp only [Answer.bind_eq_ok]
    exact ⟨(), rfl, site, hsite, receiver, hreceiver, os, hos, rfl⟩

end Behind

end Snapshot

/-! ### Members -/

namespace Store

variable {s : Store} {g : Setting} {approach : Approach} {m : Symbol}

theorem filterObsolete_applicable_iff :
    g.filterObsolete m .applicable = .applicable ↔
      ¬ (g.options.hideObsolete = true ∧ m.isObsolete = true) := by
  rw [Setting.filterObsolete]
  split <;> simp_all [Verdict.isApplicable]

/-- Where an expression can stand, a member that is reached is an operand of a pattern, or is
judged by whether it is obsolete alone. -/
theorem reachedVerdict_of_expression (hslot : g.cursor.slot = .expression) :
    s.reachedVerdict g m =
      .ok (if g.cursor.inPattern && !(m.isConstant || m.kind == .type) then .excluded .notAConstant
        else g.filterObsolete m .applicable) := by
  have hmember : memberSlotVerdict g m = .applicable := by
    simp [memberSlotVerdict, hslot, Verdict.requiring]
  rw [reachedVerdict, hmember]
  split
  · rfl
  · rw [if_neg (by simp [hslot])]

/-- **When there is a verdict on a member** where an expression can stand. -/
theorem exists_memberOffer_iff (hslot : g.cursor.slot = .expression) :
    (∃ v, s.memberOffer g approach m = .ok v) ↔ ∃ b, s.canAccess g.signal g.site m = .ok b := by
  constructor
  · rintro ⟨v, hv⟩
    obtain ⟨b, hb, -⟩ := Answer.bind_eq_ok.1 hv
    exact ⟨b, hb⟩
  · rintro ⟨b, hb⟩
    rw [memberOffer, hb]
    cases b with
    | false => exact ⟨_, rfl⟩
    | true =>
        cases hreach : s.unreachable? m approach with
        | some reason => exact ⟨_, rfl⟩
        | none => exact ⟨_, reachedVerdict_of_expression hslot⟩

/-- **When a member can be used** where an expression can stand: it can be named and reached, it can
be the operand of a pattern if it is one, and it is not hidden as obsolete. -/
theorem memberOffer_applicable_iff (hslot : g.cursor.slot = .expression) :
    s.memberOffer g approach m = .ok .applicable ↔
      s.canAccess g.signal g.site m = .ok true ∧ s.unreachable? m approach = none ∧
        (g.cursor.inPattern = true → m.isConstant = true ∨ m.kind = .type) ∧
        ¬ (g.options.hideObsolete = true ∧ m.isObsolete = true) := by
  rw [memberOffer, Answer.bind_eq_ok, ← filterObsolete_applicable_iff]
  constructor
  · rintro ⟨b, hb, h⟩
    cases b with
    | false => cases h
    | true =>
        refine ⟨hb, ?_⟩
        cases hreach : s.unreachable? m approach with
        | some reason =>
            rw [hreach] at h
            cases h
        | none =>
            rw [hreach] at h
            have hverdict := (reachedVerdict_of_expression hslot).symm.trans h
            rw [Except.ok.injEq] at hverdict
            split at hverdict
            · cases hverdict
            · rename_i hoperand
              refine ⟨rfl, fun hpattern => ?_, hverdict⟩
              simpa [hpattern, or_iff_not_imp_left] using hoperand
  · rintro ⟨hb, hreach, hpattern, hobsolete⟩
    refine ⟨true, hb, ?_⟩
    have hoperand : ¬ (g.cursor.inPattern && !(m.isConstant || m.kind == .type)) = true := by
      simpa [or_iff_not_imp_left] using hpattern
    simp only [hreach, reachedVerdict_of_expression hslot, if_neg hoperand, hobsolete]
    rfl

/-- The offers for the members of a type: there are some exactly when the members are known, and
whether they can be named. -/
theorem exists_typeOffers_iff (hslot : g.cursor.slot = .expression) {t : TypeRef} :
    (∃ os, s.typeOffers g approach t = .ok os) ↔
      ∃ ms, s.typeMembers g.signal t = .ok ms ∧
        ∀ m ∈ ms, ∃ b, s.canAccess g.signal g.site m.symbol = .ok b := by
  constructor
  · rintro ⟨os, h⟩
    obtain ⟨ms, hms, h⟩ := Answer.bind_eq_ok.1 h
    refine ⟨ms, hms, fun m hm => ?_⟩
    obtain ⟨o, -, ho⟩ := Answer.exists_answer_of_mapM h hm
    obtain ⟨v, hv, -⟩ := Answer.bind_eq_ok.1 ho
    exact (exists_memberOffer_iff hslot).1 ⟨v, hv⟩
  · rintro ⟨ms, hms, haccess⟩
    simp only [typeOffers, Answer.bind_eq_ok, hms, Except.ok.injEq, exists_eq_left']
    refine Answer.exists_mapM_eq_ok fun m hm => ?_
    obtain ⟨v, hv⟩ := (exists_memberOffer_iff hslot).2 (haccess m hm)
    rw [hv]
    exact ⟨_, rfl⟩

/-- **The offers for the members of a type** show each member, with the verdict on it. -/
theorem exists_mem_typeOffers_iff {t : TypeRef} {ms : List Member} {os : List Offer}
    (hms : s.typeMembers g.signal t = .ok ms) (hos : s.typeOffers g approach t = .ok os)
    {symbol : SymbolId} {v : Verdict} :
    (∃ o ∈ os, o.symbol = symbol ∧ o.verdict = v) ↔
      ∃ m ∈ ms, m.symbol.id = symbol ∧ s.memberOffer g approach m.symbol = .ok v := by
  rw [typeOffers, hms] at hos
  constructor
  · rintro ⟨o, ho, rfl, rfl⟩
    obtain ⟨m, hm, ho⟩ := Answer.exists_mem_of_mapM hos ho
    obtain ⟨v, hv, ho⟩ := Answer.bind_eq_ok.1 ho
    cases ho
    exact ⟨m, hm, rfl, hv⟩
  · rintro ⟨m, hm, rfl, hv⟩
    obtain ⟨o, ho, hmo⟩ := Answer.exists_answer_of_mapM hos hm
    rw [hv] at hmo
    cases hmo
    exact ⟨_, ho, rfl, rfl⟩

end Store

end Ambit
