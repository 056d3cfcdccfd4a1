/-
What can be written at a cursor.

The text before the cursor says what can stand there.  Without an access operator all symbols that
can be named are considered; after one, the members of what stands before it, and the extension
methods that can be called on it.  Every symbol that is considered gets a verdict: labels belong
after `goto` only, types alone can stand in a type, a static, sealed or value type is no constraint
unless a type inside it can be named, only constants and types stand in a pattern, and a member is
reached through a value, a type or a type parameter according to whom it belongs to.

Main definitions:

* `Ambit.Request` — where symbols are asked for, and on what;
* `Ambit.Offer` — a symbol with its verdict;
* `Ambit.Snapshot.offers` — **the symbols considered at a cursor**;
* `Ambit.Snapshot.verdictOn` — the verdict on one symbol.
-/

import Ambit.Cursor
import Ambit.Extension
import Ambit.Receiver
import Ambit.Snapshot

set_option relaxedAutoImplicit false
set_option autoImplicit false

namespace Ambit

/-- Where symbols are asked for. -/
structure Request where
  position : UInt64
  /-- What stands before the cursor, if it is known. -/
  receiver : Option Receiver := none
deriving DecidableEq, Repr

/-- A symbol that is considered at a cursor. -/
structure Offer where
  symbol : SymbolId
  /-- The type that it was found on, for a member. -/
  via : Option TypeRef
  verdict : Verdict
  origin : Origin
  /-- The types of the parameters of an extension method. -/
  inferred : Substitution := ∅

/-- The symbols that are considered at a cursor. -/
structure Offering where
  cursor : Cursor
  /-- What stands before the access operator. -/
  receiver : Option Receiver
  offers : List Offer

/-- The verdict on a symbol: the first one, or that it was not considered. -/
def Offering.verdictOn (o : Offering) (symbol : SymbolId) : Verdict :=
  match o.offers.find? fun offer => offer.symbol == symbol with
  | some offer => offer.verdict
  | none => .excluded .notInScope

/-- The circumstances in which symbols are judged. -/
structure Setting where
  signal : Signal
  options : Options
  site : Site
  cursor : Cursor

/-- Through what a member is reached. -/
inductive Approach where
  | value
  | typeName
  | typeParameter
  | nameSpace
deriving DecidableEq, Repr

/-! ### Verdicts at a position -/

/-- Hides a symbol that is obsolete, if such symbols are hidden. -/
def Setting.filterObsolete (g : Setting) (symbol : Symbol) (verdict : Verdict) : Verdict :=
  if verdict.isApplicable && g.options.hideObsolete && symbol.isObsolete then .excluded .obsolete
  else verdict

/-- Whether a symbol names a type or a namespace; an alias does if its target is resolved. -/
def Symbol.namesTypeOrNamespace (symbol : Symbol) : Bool :=
  match symbol.kind, symbol.type with
  | .aliasName, some target => !target.isUnresolved
  | .aliasName, none => false
  | kind, _ => kind.isTypeOrNamespace

namespace Store

/-- Whether a type cannot be a constraint itself. -/
def isClosedType (s : Store) (symbol : Symbol) : Bool :=
  symbol.has .static || symbol.has .sealed ||
    match s.types[symbol.id]? with
    | some decl => decl.kind.isValueType || decl.kind == .delegateType
    | none => false

/-- Whether one of the symbols is a type that can be named. -/
def anyAccessibleType (s : Store) (g : Setting) : List Symbol → Answer Bool
  | [] => .ok false
  | m :: ms =>
      if m.kind = .type then do
        if ← s.canAccess g.signal g.site m then return true else s.anyAccessibleType g ms
      else s.anyAccessibleType g ms

/-- Whether a symbol can stand in a constraint: a type that cannot be one itself may still lead to a
type inside it. -/
def constraintVerdict (s : Store) (g : Setting) (symbol : Symbol) : Answer Verdict :=
  if symbol.kind != .type || !s.isClosedType symbol then .ok .applicable
  else do
    return .requiring (← s.anyAccessibleType g (s.membersOf symbol.id)) .invalidConstraintType

/-- Whether a symbol that can be named can stand at the cursor. -/
def slotVerdict (s : Store) (g : Setting) (symbol : Symbol) : Answer Verdict :=
  if g.cursor.slot = .label then .ok (.requiring (symbol.kind == .label) .notALabel)
  else if symbol.kind = .label then .ok (.excluded .labelOutsideGoto)
  else
    match g.cursor.slot with
    | .typeOnly => .ok (.requiring symbol.namesTypeOrNamespace .notAType)
    | .typeConstraint =>
        if symbol.namesTypeOrNamespace then s.constraintVerdict g symbol
        else .ok (.excluded .notAType)
    | _ => .ok .applicable

/-- The verdict on a symbol that is met when looking outwards. -/
def offerOfEntry (s : Store) (g : Setting) (e : Entry) : Answer Offer := do
  let verdict ←
    match e.verdict, s.symbols[e.symbol]? with
    | .applicable, some symbol => g.filterObsolete symbol <$> s.slotVerdict g symbol
    | verdict, _ => pure verdict
  return { symbol := e.symbol, via := e.via, verdict, origin := e.origin }

/-! ### Verdicts on members -/

/-- Whether a member belongs to an interface and is meant to be reached through a type
parameter. -/
def isStaticInterfaceMember (s : Store) (m : Symbol) : Bool :=
  (match m.container.bind (s.types[·]?) with
    | some decl => decl.kind == .interfaceType
    | none => false) &&
  m.isStatic && (m.has .abstract || m.has .virtual)

/-- The reason for which a member cannot be reached in some way. -/
def unreachable? (s : Store) (m : Symbol) : Approach → Option Exclusion
  | .value => if m.isStatic then some .staticViaInstance else none
  | .typeName => if m.isInstanceMember then some .instanceInStaticContext else none
  | .typeParameter =>
      if s.isStaticInterfaceMember m then none else some .notThroughTypeParameter
  | .nameSpace => none

/-- Whether a member can stand where only types may. -/
def memberSlotVerdict (g : Setting) (m : Symbol) : Verdict :=
  .requiring (g.cursor.slot = .expression || g.cursor.slot = .label || m.kind.isTypeOrNamespace)
    .notAType

/-- The verdict on a member that can be named and reached. -/
def reachedVerdict (s : Store) (g : Setting) (m : Symbol) : Answer Verdict :=
  if g.cursor.inPattern && !(m.isConstant || m.kind == .type) then .ok (.excluded .notAConstant)
  else if g.cursor.slot = .typeConstraint && m.kind.isTypeOrNamespace then
    g.filterObsolete m <$> s.constraintVerdict g m
  else .ok (g.filterObsolete m (memberSlotVerdict g m))

def memberOffer (s : Store) (g : Setting) (approach : Approach) (m : Symbol) : Answer Verdict := do
  if !(← s.canAccess g.signal g.site m) then return .excluded .inaccessible
  else
    match s.unreachable? m approach with
    | some reason => return .excluded reason
    | none => s.reachedVerdict g m

def typeOffers (s : Store) (g : Setting) (approach : Approach) (t : TypeRef) :
    Answer (List Offer) := do
  (← s.typeMembers g.signal t).mapM fun m => do
    return {
      symbol := m.symbol.id
      via := some m.declaring
      verdict := ← s.memberOffer g approach m.symbol
      origin := if m.inherited then .inherited else .declared }

def namespaceOffers (s : Store) (g : Setting) (nameSpace : SymbolId) : Answer (List Offer) :=
  match s.body? nameSpace with
  | none => .ok []
  | some body =>
      ((s.symbolsIn body.id).filter fun m => m.kind == .nameSpace || m.kind == .type).mapM
        fun m => do
          return {
            symbol := m.id
            via := none
            verdict := ← s.memberOffer g .nameSpace m
            origin := .declared }

/-- The verdict on an extension method, when the types of its parameters are known or it cannot be
called. -/
def extensionVerdict (s : Store) (g : Setting) (method : Symbol) (given : Option Substitution) :
    Answer Verdict := do
  if !(← s.canAccess g.signal g.site method) then return .excluded .inaccessible
  else if g.cursor.inPattern then return .excluded .notAConstant
  else if given.isNone then return .excluded .constraintNotSatisfied
  else return memberSlotVerdict g method

def extensionOffer (s : Store) (g : Setting) (receiver : TypeRef) (method : Symbol) :
    Answer Offer := do
  let given ← s.reduce g.signal method.id receiver
  return {
    symbol := method.id
    via := some receiver
    verdict := g.filterObsolete method (← s.extensionVerdict g method given)
    origin := .extension
    inferred := given.getD ∅ }

/-- The type whose members a value has: behind `?.` the one that a nullable value wraps. -/
def valueType (s : Store) (link : Option Link) (t : TypeRef) : TypeRef :=
  if link = some .conditionalDot then (s.underlying? t).getD t else s.normalize t

/-- The verdicts on the members of a value, and on the extension methods that can be called on
it. -/
def valueOffers (s : Store) (g : Setting) (scope : ScopeId) (type : TypeRef) :
    Answer (List Offer) :=
  let t := s.valueType g.cursor.link type
  if t.isUnresolved then .ok []
  else do
    let members ← s.typeOffers g .value t
    if g.options.extensionMethods then
      let extensions ← (← s.extensionMethods g.signal scope).mapM (s.extensionOffer g t)
      return members ++ extensions
    else return members

def receiverOffers (s : Store) (g : Setting) (scope : ScopeId) : Receiver → Answer (List Offer)
  | .unbound => .ok []
  | .nameSpace symbol => s.namespaceOffers g symbol
  | .type t => s.typeOffers g (if t.isParam then .typeParameter else .typeName) t
  | .value t => s.valueOffers g scope t

end Store

/-! ### The cursor -/

namespace Snapshot

/-- **The symbols considered at a cursor.** -/
def offers (snapshot : Snapshot) (signal : Signal) (options : Options) (request : Request) :
    Answer Offering := do
  signal.check
  let s := snapshot.store
  let cursor := Cursor.ofText (snapshot.textBefore request.position)
  let scope := s.scopeAt request.position
  let g : Setting := { signal, options, site := ← s.siteAt scope, cursor }
  if cursor.link.isNone && request.receiver.isNone then
    let found ← s.lookup signal options request.position
    return { cursor, receiver := none, offers := ← found.entries.mapM (s.offerOfEntry g) }
  else
    let receiver ←
      match request.receiver with
      | some receiver => pure receiver
      | none => s.resolve signal options request.position cursor.receiver
    return { cursor, receiver := some receiver, offers := ← s.receiverOffers g scope receiver }

/-- The verdict on one symbol. -/
def verdictOn (snapshot : Snapshot) (signal : Signal) (options : Options) (request : Request)
    (symbol : SymbolId) : Answer Verdict := do
  return (← snapshot.offers signal options request).verdictOn symbol

end Snapshot

end Ambit
