/-
Stores that answer alike.

Everything that is asked of a store goes back to its facts and to three questions: which symbols a
scope has, which scope is the body of a symbol, and which type parameters a symbol has.  Two stores
with the same facts that answer these alike answer everything alike, whatever their indexes look
like inside.  Unlike stores that merely agree about types, they also have the same faults.

Main definitions:

* `Ambit.Store.Alike` — stores with the same facts that answer the three questions alike.

Main results:

* `Ambit.Store.Alike.typeMembers` — such stores have the same members;
* `Ambit.Store.Alike.lookup` — the same can be named in them;
* `Ambit.Store.Alike.complete` — **and they have the same completions**.
-/

import Ambit.Completion
import Ambit.Proofs.Agreement
import Ambit.Proofs.Lookup.View
import Ambit.Proofs.Store.Facts

set_option relaxedAutoImplicit false
set_option autoImplicit false

namespace Ambit.Store

/-- Stores with the same facts that answer alike which symbols a scope has, which scope is the body
of a symbol, and which type parameters a symbol has. -/
structure Alike (s s' : Store) : Prop where
  facts : s'.facts = s.facts
  symbolsIn : s'.symbolsIn = s.symbolsIn
  body? : s'.body? = s.body?
  typeParamsOf : s'.typeParamsOf = s.typeParamsOf

namespace Alike

variable {s s' : Store} (h : s.Alike s')
include h

/-! ### Facts -/

theorem symbols : s'.symbols = s.symbols := symbols_of_facts h.facts

theorem scopes : s'.scopes = s.scopes := scopes_of_facts h.facts

theorem types : s'.types = s.types := types_of_facts h.facts

theorem typeParams : s'.typeParams = s.typeParams := typeParams_of_facts h.facts

theorem signatures : s'.signatures = s.signatures := signatures_of_facts h.facts

theorem wellKnown : s'.wellKnown = s.wellKnown := wellKnown_of_facts h.facts

theorem nameOf : s'.nameOf = s.nameOf := by
  funext id
  rw [Store.nameOf, Store.nameOf, h.symbols]

theorem typeOf? : s'.typeOf? = s.typeOf? := by
  funext id
  rw [Store.typeOf?, Store.typeOf?, h.symbols, h.typeParamsOf]

theorem membersOf : s'.membersOf = s.membersOf := by
  funext type
  rw [Store.membersOf, Store.membersOf, h.body?, h.symbolsIn]

/-- Stores that answer alike agree about types. -/
theorem agrees : s.Agrees s' where
  types := h.types
  typeParams := h.typeParams
  wellKnown := h.wellKnown
  typeParamsOf := h.typeParamsOf
  signatures := h.signatures
  typeOf? := h.typeOf?
  membersOf := h.membersOf

theorem sameLineage : s.SameLineage s' :=
  { h.agrees with nameOf := h.nameOf }

/-! ### Looking up -/

/-- Stores that answer alike have the same members in every type. -/
theorem typeMembers : s'.typeMembers = s.typeMembers := by
  funext signal t
  simp only [Store.typeMembers, memberTypes, h.agrees.normalize, h.sameLineage.supertypes,
    h.agrees.isInterface, h.agrees.plainWellKnown?, h.agrees.unhiddenMembers]

theorem siteAt : s'.siteAt = s.siteAt := siteAt_of_scopes h.scopes

theorem scopeAt : s'.scopeAt = s.scopeAt := scopeAt_of_scopes h.scopes

theorem leave : s'.leave = s.leave := by
  funext f scope
  simp only [Store.leave, isStaticFunction, h.symbols]

theorem groupsOf : s'.groupsOf = s.groupsOf := by
  funext signal scope
  have hdeclared : s'.declaredIn = s.declaredIn := by
    funext scope admits
    rw [declaredIn, declaredIn, h.symbolsIn]
  have himported : s'.importedTypes = s.importedTypes := by
    funext nameSpace
    rw [importedTypes, importedTypes, h.body?, h.symbolsIn]
  simp only [Store.groupsOf, memberGroup, ownGroup, hdeclared, himported, h.typeOf?, h.typeMembers,
    h.typeParamsOf]

theorem entryOf : s'.entryOf = s.entryOf := by
  funext o f bound found
  simp only [Store.entryOf, scopingVerdict, memberVerdict, h.symbols, h.sameLineage.canAccess]

/-- Stores that answer alike look the same from every position. -/
theorem sameView (position : UInt64) : s.SameView position s' where
  scopes := h.scopes
  groupsOf := h.groupsOf
  leave := h.leave
  entryOf := fun o _ => by rw [h.entryOf]
  boundName? := by
    funext o e
    rw [boundName?, boundName?, h.symbols]

/-- In stores that answer alike the same can be named at every position. -/
theorem lookup : s'.lookup = s.lookup := by
  funext signal options position
  exact (h.sameView position).lookup signal options

/-! ### Receivers -/

theorem receiverOf : s'.receiverOf = s.receiverOf := by
  funext symbol via
  simp only [Store.receiverOf, aliasReceiver, h.symbols, h.typeOf?, h.agrees.instantiation]

theorem firstReceiver : s'.firstReceiver = s.firstReceiver := by
  funext signal options position name
  have hself : s'.selfReceiver = s.selfReceiver := by
    funext signal options position isBase
    simp only [selfReceiver, h.lookup, h.siteAt, h.scopeAt, h.typeOf?, h.agrees.directSupertypes,
      h.agrees.isInterface]
  simp only [Store.firstReceiver, Panorama.findVisible?, hself, h.lookup, h.symbols, h.receiverOf]

theorem nextReceiver : s'.nextReceiver = s.nextReceiver := by
  funext signal options receiver name
  have htype : s'.typeMember = s.typeMember := by
    funext signal options t name
    rw [typeMember, typeMember, h.typeMembers, h.receiverOf]
  cases receiver with
  | nameSpace symbol =>
      simp only [Store.nextReceiver, namespaceMember, h.body?, h.symbolsIn, h.receiverOf]
  | type t => rw [Store.nextReceiver, Store.nextReceiver, htype]
  | value t => rw [Store.nextReceiver, Store.nextReceiver, htype]
  | unbound => rfl

theorem resolve (signal : Signal) (options : Options) (position : UInt64) (names : List String) :
    s'.resolve signal options position names = s.resolve signal options position names := by
  cases names with
  | nil => rfl
  | cons first rest => rw [Store.resolve, Store.resolve, h.firstReceiver, h.nextReceiver]

/-! ### Extension methods -/

theorem extensionMethods : s'.extensionMethods = s.extensionMethods := by
  funext signal scope
  have hopened : s'.openedBy = s.openedBy := by
    funext id
    simp only [openedBy, h.scopes, h.body?]
  have hextension : s'.isExtensionMethod = s.isExtensionMethod := by
    funext symbol
    rw [isExtensionMethod, isExtensionMethod, h.signatures]
  have hextensions : s'.extensionsIn = s.extensionsIn := by
    funext nameSpace
    have hcan : s'.canExtend = s.canExtend := by
      funext symbol
      rw [canExtend, canExtend, isStaticType, isStaticType, h.symbols]
    simp only [extensionsIn, hcan, hextension, h.symbolsIn, h.membersOf]
  rw [Store.extensionMethods, Store.extensionMethods, ancestors_of_scopes h.scopes, hopened,
    hextensions]

theorem reduce : s'.reduce = s.reduce := by
  funext signal method receiver
  simp only [Store.reduce, h.signatures, h.agrees.normalize, h.typeParamsOf,
    h.sameLineage.bindReceiver, h.sameLineage.meetConstraints]

/-! ### Offers -/

theorem constraintVerdict : s'.constraintVerdict = s.constraintVerdict := by
  funext g symbol
  have hany : ∀ ms, s'.anyAccessibleType g ms = s.anyAccessibleType g ms := by
    intro ms
    induction ms with
    | nil => rfl
    | cons m ms ih => simp only [anyAccessibleType, h.sameLineage.canAccess, ih]
  have hclosed : s'.isClosedType = s.isClosedType := by
    funext symbol
    rw [isClosedType, isClosedType, h.types]
  rw [Store.constraintVerdict, Store.constraintVerdict, hclosed, h.membersOf, hany]

theorem offerOfEntry : s'.offerOfEntry = s.offerOfEntry := by
  funext g e
  simp only [Store.offerOfEntry, slotVerdict, h.symbols, h.constraintVerdict]

theorem memberOffer : s'.memberOffer = s.memberOffer := by
  funext g approach m
  have hunreachable : s'.unreachable? m approach = s.unreachable? m approach := by
    have hstatic : s'.isStaticInterfaceMember = s.isStaticInterfaceMember := by
      funext m
      rw [isStaticInterfaceMember, isStaticInterfaceMember, h.types]
    cases approach with
    | typeParameter => rw [unreachable?, unreachable?, hstatic]
    | value | typeName | nameSpace => rfl
  simp only [Store.memberOffer, reachedVerdict, hunreachable, h.sameLineage.canAccess,
    h.constraintVerdict]

theorem typeOffers : s'.typeOffers = s.typeOffers := by
  funext g approach t
  rw [Store.typeOffers, Store.typeOffers, h.typeMembers, h.memberOffer]

theorem extensionOffer : s'.extensionOffer = s.extensionOffer := by
  funext g receiver method
  simp only [Store.extensionOffer, extensionVerdict, h.reduce, h.sameLineage.canAccess]

theorem receiverOffers (g : Setting) (scope : ScopeId) (receiver : Receiver) :
    s'.receiverOffers g scope receiver = s.receiverOffers g scope receiver := by
  have hvalue : s'.valueType = s.valueType := by
    funext link t
    rw [valueType, valueType, h.agrees.underlying?, h.agrees.normalize]
  cases receiver with
  | nameSpace symbol =>
      simp only [Store.receiverOffers, namespaceOffers, h.body?, h.symbolsIn, h.memberOffer]
  | type t => rw [Store.receiverOffers, Store.receiverOffers, h.typeOffers]
  | value t =>
      simp only [Store.receiverOffers, valueOffers, hvalue, h.typeOffers, h.extensionMethods,
        h.extensionOffer]
  | unbound => rfl

theorem offers (text : String) (version : UInt64) (signal : Signal) (options : Options)
    (request : Request) :
    (⟨s', text, version⟩ : Snapshot).offers signal options request =
      (⟨s, text, version⟩ : Snapshot).offers signal options request := by
  have htext : ∀ position, Snapshot.textBefore ⟨s', text, version⟩ position =
      Snapshot.textBefore ⟨s, text, version⟩ position := fun _ => rfl
  simp only [Snapshot.offers, htext, h.scopeAt, h.siteAt, h.lookup, h.offerOfEntry, h.resolve,
    h.receiverOffers]

/-! ### Completions -/

theorem candidate? : s'.candidate? = s.candidate? := by
  funext options offer
  have hgeneric : s'.isGeneric = s.isGeneric := by
    funext symbol
    rw [isGeneric, isGeneric, h.typeParamsOf]
  have hclosed : s'.closed = s.closed := by
    funext offer t
    rw [closed, closed, h.agrees.instantiation]
  have hdetails : s'.details = s.details := by
    funext offer symbol
    simp only [details, passedParams, paramsText, hclosed, h.signatures, h.nameOf]
  rw [Store.candidate?, Store.candidate?, hgeneric, hdetails, h.symbols]

/-- **Stores that answer alike have the same completions** at every cursor in every text. -/
theorem complete (text : String) (version : UInt64) (signal : Signal) (options : Options)
    (request : Request) :
    (⟨s', text, version⟩ : Snapshot).complete signal options request =
      (⟨s, text, version⟩ : Snapshot).complete signal options request := by
  simp only [Snapshot.complete, h.offers, h.candidate?]

end Alike

end Ambit.Store
