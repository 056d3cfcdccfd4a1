/-
Completions in a pattern.

The operand of a pattern or of an equality is a constant or a type.  Behind the name of a type these
are the members that are constants or types themselves, and they belong to the type and not to an
instance, so all of them are reached through it.  Behind a value nothing is left: a member that a
value has is neither a constant nor a type, and an extension method is no constant either.  Which
rule excludes a symbol differs from symbol to symbol; that together they leave nothing does not
depend on the members of the value or on the extension methods in scope.

Main definitions:

* `Ambit.Symbol.IsOperand` — a constant or a type.

Main results:

* `Ambit.Store.unreachable?_typeName_of_isOperand`, `Ambit.Store.unreachable?_value_of_isOperand` —
  constants and types are reached through types, and never through values;
* `Ambit.Snapshot.complete_in_pattern` — **the completions in a pattern**.
-/

import Ambit.Proofs.Completion
import Ambit.Proofs.Offer.Behind

set_option relaxedAutoImplicit false
set_option autoImplicit false

namespace Ambit

/-! ### Operands -/

/-- A constant or a type: a member of an enumeration, a constant member, or a nested type. -/
def Symbol.IsOperand (symbol : Symbol) : Prop :=
  symbol.kind = .enumMember ∨ symbol.has .const = true ∨ symbol.kind = .type

theorem Symbol.isOperand_iff {symbol : Symbol} :
    symbol.IsOperand ↔ symbol.isConstant = true ∨ symbol.kind = .type := by
  simp [IsOperand, isConstant, or_assoc]

theorem Symbol.IsOperand.isStatic {symbol : Symbol} (h : symbol.IsOperand) :
    symbol.isStatic = true := by
  rcases h with h | h | h <;> simp [Symbol.isStatic, h]

namespace Store

variable {s : Store} {g : Setting} {m : Symbol}

/-- Constants and types are reached through the name of a type. -/
theorem unreachable?_typeName_of_isOperand (h : m.IsOperand) :
    s.unreachable? m .typeName = none := by
  simp [unreachable?, Symbol.isInstanceMember, h.isStatic]

/-- Constants and types are never reached through a value. -/
theorem unreachable?_value_of_isOperand (h : m.IsOperand) : s.unreachable? m .value ≠ none := by
  simp [unreachable?, h.isStatic]

/-- **In a pattern, exactly the constants and types that can be named are used behind the name of a
type.** -/
theorem memberOffer_typeName_in_pattern (hpattern : g.cursor.inPattern = true)
    (hslot : g.cursor.slot = .expression) :
    s.memberOffer g .typeName m = .ok .applicable ↔
      s.canAccess g.signal g.site m = .ok true ∧ m.IsOperand ∧
        ¬ (g.options.hideObsolete = true ∧ m.isObsolete = true) := by
  rw [memberOffer_applicable_iff hslot, Symbol.isOperand_iff]
  constructor
  · rintro ⟨haccess, -, hoperand, hobsolete⟩
    exact ⟨haccess, hoperand hpattern, hobsolete⟩
  · rintro ⟨haccess, hoperand, hobsolete⟩
    exact ⟨haccess, unreachable?_typeName_of_isOperand (Symbol.isOperand_iff.2 hoperand),
      fun _ => hoperand, hobsolete⟩

/-- **In a pattern, no member is used behind a value.** -/
theorem memberOffer_value_in_pattern (hpattern : g.cursor.inPattern = true)
    (hslot : g.cursor.slot = .expression) : s.memberOffer g .value m ≠ .ok .applicable := by
  rw [ne_eq, memberOffer_applicable_iff hslot]
  rintro ⟨-, hreach, hoperand, -⟩
  exact unreachable?_value_of_isOperand (Symbol.isOperand_iff.2 (hoperand hpattern)) hreach

theorem extensionOffer_in_pattern (hpattern : g.cursor.inPattern = true) {t : TypeRef} {o : Offer}
    (h : s.extensionOffer g t m = .ok o) : o.verdict ≠ .applicable := by
  obtain ⟨given, -, h⟩ := Answer.bind_eq_ok.1 h
  obtain ⟨v, hv, h⟩ := Answer.bind_eq_ok.1 h
  cases h
  obtain ⟨reached, -, hv⟩ := Answer.bind_eq_ok.1 hv
  cases reached with
  | false =>
      cases hv
      simp [Setting.filterObsolete, Verdict.isApplicable]
  | true =>
      rw [if_neg (by simp), if_pos hpattern] at hv
      cases hv
      simp [Setting.filterObsolete, Verdict.isApplicable]

/-- **In a pattern, nothing is used behind a value.** -/
theorem valueOffers_in_pattern (hpattern : g.cursor.inPattern = true)
    (hslot : g.cursor.slot = .expression) {scope : ScopeId} {t : TypeRef} {os : List Offer}
    (h : s.valueOffers g scope t = .ok os) : ∀ o ∈ os, o.verdict ≠ .applicable := by
  rcases (valueOffers_eq_ok_iff rfl).1 h with ⟨-, rfl⟩ | ⟨-, ms, es, hms, hes, rfl⟩
  · exact fun o ho => absurd ho List.not_mem_nil
  · intro o ho
    rcases List.mem_append.1 ho with ho | ho
    · intro hv
      obtain ⟨found, hfound, -⟩ := Answer.bind_eq_ok.1 hms
      obtain ⟨m, -, -, hm⟩ := (exists_mem_typeOffers_iff hfound hms).1 ⟨o, ho, rfl, hv⟩
      exact memberOffer_value_in_pattern hpattern hslot hm
    · obtain ⟨-, -, -, method, -, ho⟩ := exists_method_of_mem_extensionOffers hes ho
      exact extensionOffer_in_pattern hpattern ho

end Store

/-! ### The completions -/

namespace Snapshot

variable {snapshot : Snapshot} {signal : Signal} {options : Options} {request : Request}
  {offering : Offering}

theorem isTyped_empty (name : String) : isTyped "" name = true := rfl

/-- Where nothing is typed, the completions are for the symbols that are offered and can be used. -/
theorem exists_complete_untyped (hs : snapshot.store.Indexed)
    (h : snapshot.offers signal options request = .ok offering)
    (hcollapse : options.collapseOverloads = false) (htyped : offering.cursor.typed = "") :
    ∃ cs, snapshot.complete signal options request = .ok cs ∧ Candidate.Arranged cs ∧
      ∀ symbol, (∃ c ∈ cs, c.symbol = symbol) ↔
        snapshot.store.symbols[symbol.id]? = some symbol ∧
          ∃ o ∈ offering.offers, o.symbol = symbol.id ∧ o.verdict = .applicable := by
  have hall : (snapshot.store.shown options (Offer.usable offering.offers)).filter
      (fun c => isTyped offering.cursor.typed c.symbol.name) =
      snapshot.store.shown options (Offer.usable offering.offers) := by
    rw [htyped, List.filter_eq_self]
    exact fun c _ => isTyped_empty c.symbol.name
  refine ⟨_, complete_eq h hcollapse, ?_⟩
  rw [hall]
  refine ⟨Candidate.arranged_sort (hs.pairwise_shown _), fun symbol => ?_⟩
  simp only [Candidate.mem_sort]
  rw [hs.exists_mem_shown_iff]
  simp only [Offer.usable, List.mem_filter, Offer.isApplicable_iff, and_assoc, and_comm]

/-- Behind a type that is no type parameter, its members are offered as reached by its name. -/
theorem receiverOffers_type {s : Store} {g : Setting} {scope : ScopeId} {t : TypeRef}
    (hparam : t.isParam = false) :
    s.receiverOffers g scope (.type t) = s.typeOffers g .typeName t := by
  rw [Store.receiverOffers, hparam]
  rfl

section Pattern

variable (hpattern : (snapshot.cursorAt request).inPattern = true)
  (hslot : (snapshot.cursorAt request).slot = .expression) {t : TypeRef}
include hpattern hslot

/-- In a pattern behind the name of a type there is an answer exactly when the members of the type
are known, and whether they can be named. -/
theorem exists_offers_behind_type_iff
    (hreceiver : snapshot.receiverAt signal options request = .ok (.type t))
    (hparam : t.isParam = false) :
    (∃ offering, snapshot.offers signal options request = .ok offering) ↔
      signal = .quiet ∧ ∃ site ms,
        snapshot.store.siteAt (snapshot.store.scopeAt request.position) = .ok site ∧
        snapshot.store.typeMembers signal t = .ok ms ∧
        ∀ m ∈ ms, ∃ b, snapshot.store.canAccess signal site m.symbol = .ok b := by
  have hlink := Cursor.link_isSome_of_inPattern hpattern
  constructor
  · rintro ⟨offering, h⟩
    obtain ⟨hquiet, site, receiver, os, hsite, hreceiver', hos, -⟩ :=
      (offers_behind (.inl hlink)).1 h
    rw [hreceiver] at hreceiver'
    cases hreceiver'
    rw [receiverOffers_type hparam] at hos
    obtain ⟨ms, hms, haccess⟩ := (Store.exists_typeOffers_iff hslot).1 ⟨os, hos⟩
    exact ⟨hquiet, site, ms, hsite, hms, haccess⟩
  · rintro ⟨hquiet, site, ms, hsite, hms, haccess⟩
    obtain ⟨os, hos⟩ : ∃ os, snapshot.store.typeOffers
        (snapshot.settingAt signal options request site) .typeName t = .ok os :=
      (Store.exists_typeOffers_iff hslot).2 ⟨ms, hms, haccess⟩
    exact ⟨_, (offers_behind (.inl hlink)).2 ⟨hquiet, site, _, os, hsite, hreceiver,
      (receiverOffers_type hparam).trans hos, rfl⟩⟩

/-- **In a pattern behind the name of a type**, the completions are the constants and types among
the members that can be named. -/
theorem complete_behind_type (hs : snapshot.store.Indexed)
    (hcollapse : options.collapseOverloads = false)
    (htyped : (snapshot.cursorAt request).typed = "")
    (hreceiver : snapshot.receiverAt signal options request = .ok (.type t))
    (hparam : t.isParam = false) {cs : List Candidate}
    (hcs : snapshot.complete signal options request = .ok cs) :
    Candidate.Arranged cs ∧ ∃ site ms,
      snapshot.store.siteAt (snapshot.store.scopeAt request.position) = .ok site ∧
      snapshot.store.typeMembers signal t = .ok ms ∧
      ∀ symbol, (∃ c ∈ cs, c.symbol = symbol) ↔
        (∃ m ∈ ms, m.symbol = symbol) ∧
          snapshot.store.canAccess signal site symbol = .ok true ∧ symbol.IsOperand ∧
          ¬ (options.hideObsolete = true ∧ symbol.isObsolete = true) := by
  have hlink := Cursor.link_isSome_of_inPattern hpattern
  obtain ⟨offering, hoffers, -⟩ := Answer.bind_eq_ok.1 hcs
  obtain ⟨-, site, receiver, os, hsite, hreceiver', hos, rfl⟩ :=
    (offers_behind (.inl hlink)).1 hoffers
  rw [hreceiver] at hreceiver'
  cases hreceiver'
  rw [receiverOffers_type hparam] at hos
  obtain ⟨ms, hms, -⟩ := Answer.bind_eq_ok.1 hos
  obtain ⟨cs', hcs', harranged, hmem⟩ := exists_complete_untyped hs hoffers hcollapse htyped
  rw [hcs] at hcs'
  cases hcs'
  refine ⟨harranged, site, ms, hsite, hms, fun symbol => ?_⟩
  rw [hmem, Store.exists_mem_typeOffers_iff hms hos]
  constructor
  · rintro ⟨hstored, m, hm, hid, hoffer⟩
    -- the member and the symbol are stored under the same number
    have hsame := hs.stored_of_mem_typeMembers hms hm
    rw [hid, hstored] at hsame
    cases hsame
    exact ⟨⟨m, hm, rfl⟩, (Store.memberOffer_typeName_in_pattern hpattern hslot).1 hoffer⟩
  · rintro ⟨⟨m, hm, rfl⟩, hoffer⟩
    exact ⟨hs.stored_of_mem_typeMembers hms hm, m, hm, rfl,
      (Store.memberOffer_typeName_in_pattern hpattern hslot).2 hoffer⟩

/-- **In a pattern behind a value** there are no completions. -/
theorem complete_behind_value (hs : snapshot.store.Indexed)
    (hcollapse : options.collapseOverloads = false)
    (htyped : (snapshot.cursorAt request).typed = "")
    (hreceiver : snapshot.receiverAt signal options request = .ok (.value t)) :
    snapshot.complete signal options request =
      (snapshot.offers signal options request).map fun _ => [] := by
  have hlink := Cursor.link_isSome_of_inPattern hpattern
  cases hoffers : snapshot.offers signal options request with
  | error fault =>
      rw [complete, hoffers]
      rfl
  | ok offering =>
      obtain ⟨-, site, receiver, os, -, hreceiver', hos, rfl⟩ :=
        (offers_behind (.inl hlink)).1 hoffers
      rw [hreceiver] at hreceiver'
      cases hreceiver'
      obtain ⟨cs, hcs, -, hmem⟩ := exists_complete_untyped hs hoffers hcollapse htyped
      have hnone : cs = [] := by
        rw [List.eq_nil_iff_forall_not_mem]
        intro c hc
        obtain ⟨-, o, ho, -, hv⟩ := (hmem c.symbol).1 ⟨c, hc, rfl⟩
        exact Store.valueOffers_in_pattern hpattern hslot hos o ho hv
      rw [hcs, hnone]
      rfl

end Pattern

/-- **The completions in a pattern.**  Behind the name of a type they are the constants and the
nested types among the members that can be named from the place, less the obsolete ones if these are
hidden, each once; there is an answer exactly when the members are known, and whether they can be
named.  Behind a value there are no completions. -/
theorem complete_in_pattern (hs : snapshot.store.Built) {options : Options}
    (hcollapse : options.collapseOverloads = false) {request : Request}
    (hpattern : (snapshot.cursorAt request).inPattern = true)
    (hslot : (snapshot.cursorAt request).slot = .expression)
    (htyped : (snapshot.cursorAt request).typed = "") (signal : Signal) :
    (∀ t, snapshot.receiverAt signal options request = .ok (.type t) → t.isParam = false →
      ((∃ cs, snapshot.complete signal options request = .ok cs) ↔
        signal = .quiet ∧ ∃ site ms,
          snapshot.store.siteAt (snapshot.store.scopeAt request.position) = .ok site ∧
          snapshot.store.typeMembers signal t = .ok ms ∧
          ∀ m ∈ ms, ∃ b, snapshot.store.canAccess signal site m.symbol = .ok b) ∧
      ∀ cs, snapshot.complete signal options request = .ok cs →
        Candidate.Arranged cs ∧ ∃ site ms,
          snapshot.store.siteAt (snapshot.store.scopeAt request.position) = .ok site ∧
          snapshot.store.typeMembers signal t = .ok ms ∧
          ∀ symbol, (∃ c ∈ cs, c.symbol = symbol) ↔
            (∃ m ∈ ms, m.symbol = symbol) ∧
              snapshot.store.canAccess signal site symbol = .ok true ∧
              (symbol.kind = .enumMember ∨ symbol.has .const = true ∨ symbol.kind = .type) ∧
              ¬ (options.hideObsolete = true ∧ symbol.isObsolete = true)) ∧
    ∀ t, snapshot.receiverAt signal options request = .ok (.value t) →
      snapshot.complete signal options request =
        (snapshot.offers signal options request).map fun _ => [] := by
  refine ⟨fun t hreceiver hparam => ⟨?_, fun cs hcs => ?_⟩, fun t hreceiver => ?_⟩
  · rw [← exists_offers_behind_type_iff hpattern hslot hreceiver hparam]
    constructor
    · rintro ⟨cs, hcs⟩
      obtain ⟨offering, hoffers, -⟩ := Answer.bind_eq_ok.1 hcs
      exact ⟨offering, hoffers⟩
    · rintro ⟨offering, hoffers⟩
      exact ⟨_, complete_eq hoffers hcollapse⟩
  · exact complete_behind_type hpattern hslot hs.indexed hcollapse htyped hreceiver hparam hcs
  · exact complete_behind_value hpattern hslot hs.indexed hcollapse htyped hreceiver

/-- A class and its members: two constants, one of them obsolete, a constant that cannot be named
from outside, a field, a method that belongs to the class, and a nested type. -/
def motleyClass : List Symbol := [
    { id := ⟨0⟩, kind := .type, name := "K", scope := ⟨0⟩ },
    { id := ⟨1⟩, kind := .field, name := "Limit", scope := ⟨1⟩, container := some ⟨0⟩,
      modifiers := [.const] },
    { id := ⟨2⟩, kind := .field, name := "Old", scope := ⟨1⟩, container := some ⟨0⟩,
      modifiers := [.const, .obsolete] },
    { id := ⟨3⟩, kind := .field, name := "secret", scope := ⟨1⟩, container := some ⟨0⟩,
      access := .container, modifiers := [.const] },
    { id := ⟨4⟩, kind := .field, name := "size", scope := ⟨1⟩, container := some ⟨0⟩ },
    { id := ⟨5⟩, kind := .method, name := "Make", scope := ⟨1⟩, container := some ⟨0⟩,
      modifiers := [.static] },
    { id := ⟨6⟩, kind := .type, name := "Inner", scope := ⟨1⟩, container := some ⟨0⟩ }]

/-- The members of the class. -/
def motleyMembers : List Member := motleyClass.tail.map (⟨·, .plain ⟨0⟩, false⟩)

/-- A pattern behind the name of the class. -/
def patternText : Snapshot where
  store := motleyClass.foldl Store.insertSymbol
    (Store.empty.insertScope { id := ⟨0⟩, kind := .nameSpace, span := ⟨0, 90⟩ }
      |>.insertScope { id := ⟨1⟩, kind := .type, span := ⟨20, 80⟩, parent := some ⟨0⟩,
                       owner := some ⟨0⟩ }
      |>.insertType { id := ⟨0⟩, kind := .classType })
  text := "x is K."
  version := 1

theorem built_patternText : patternText.store.Built :=
  .insertSymbol _ (.insertSymbol _ (.insertSymbol _ (.insertSymbol _ (.insertSymbol _
    (.insertSymbol _ (.insertSymbol _ (.insertType _ (.insertScope _ (.insertScope _
      .empty)))))))))

/-- Every symbol is shown for itself, unless it is obsolete. -/
def hidingObsolete : Options where
  collapseOverloads := false
  hideObsolete := true

/-- Behind the name of the class, the constant and the nested type are left; behind a value of the
class nothing is. -/
theorem complete_in_pattern_patternText :
    (patternText.cursorAt ⟨7, none⟩).inPattern = true ∧
      patternText.receiverAt .quiet hidingObsolete ⟨7, none⟩ = .ok (.type (.plain ⟨0⟩)) ∧
      (∃ cs, patternText.complete .quiet hidingObsolete ⟨7, none⟩ = .ok cs ∧
        ∀ symbol ∈ motleyClass, (∃ c ∈ cs, c.symbol = symbol) ↔
          symbol.name ∈ ["Limit", "Inner"]) ∧
      patternText.complete .quiet hidingObsolete ⟨7, some (.value (.plain ⟨0⟩))⟩ = .ok [] := by
  have hcollapse : hidingObsolete.collapseOverloads = false := rfl
  -- what the text says does not depend on the receiver that is given
  have hcursor : ∀ receiver, patternText.cursorAt ⟨7, receiver⟩ =
      { link := some .dot, inPattern := true, receiver := ["K"] } := by
    have htext : Cursor.ofText (patternText.textBefore 7) =
        { link := some .dot, inPattern := true, receiver := ["K"] } := by decide +kernel
    exact fun _ => htext
  have hpattern := fun receiver => congrArg Cursor.inPattern (hcursor receiver)
  have hslot := fun receiver => congrArg Cursor.slot (hcursor receiver)
  have htyped := fun receiver => congrArg Cursor.typed (hcursor receiver)
  have hreceiver : patternText.receiverAt .quiet hidingObsolete ⟨7, none⟩ =
      .ok (.type (.plain ⟨0⟩)) := by decide +kernel
  have hsite : patternText.store.siteAt (patternText.store.scopeAt 7) = .ok ⟨[]⟩ := by
    decide +kernel
  have hmembers : patternText.store.typeMembers .quiet (.plain ⟨0⟩) = .ok motleyMembers := by
    decide +kernel
  obtain ⟨hanswer, hsymbols⟩ := (complete_in_pattern built_patternText hcollapse (hpattern none)
    (hslot none) (htyped none) .quiet).1 _ hreceiver rfl
  obtain ⟨cs, hcs⟩ := hanswer.2 ⟨rfl, ⟨[]⟩, motleyMembers, hsite, hmembers, by decide +kernel⟩
  have hvalue := (complete_in_pattern built_patternText hcollapse
    (hpattern (some (.value (.plain ⟨0⟩)))) (hslot _) (htyped _) .quiet).2 _ rfl
  refine ⟨hpattern none, hreceiver, ⟨cs, hcs, ?_⟩, ?_⟩
  · obtain ⟨-, site, ms, hsite', hms, hmem⟩ := hsymbols cs hcs
    rw [hsite] at hsite'
    rw [hmembers] at hms
    cases hsite'
    cases hms
    simp only [hmem]
    decide +kernel
  · rw [hvalue]
    decide +kernel

end Snapshot

end Ambit
