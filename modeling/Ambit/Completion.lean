/-
Lists of completions.

The symbols that can be written at a cursor are shown with their names, their types or parameters,
and some tags.  The list holds the symbols whose names begin with what is typed, ignoring case; the
methods of one name can be shown together, by the first of them that is not obsolete and the number
of further parameter lists.  The list is sorted by what is shown.

Main definitions:

* `Ambit.Candidate` — a symbol as it is shown;
* `Ambit.Candidate.collapse` — the methods of one name together;
* `Ambit.Candidate.sort` — the order in which candidates are shown;
* `Ambit.Snapshot.candidates` — all symbols considered, with their verdicts;
* `Ambit.Snapshot.complete` — **the list of completions**.
-/

import Ambit.Offer

set_option relaxedAutoImplicit false
set_option autoImplicit false

namespace Ambit

/-- What is noted beside a candidate. -/
inductive Tag where
  | extensionMethod
  | inherited
  | obsolete
  | static
  | generic
deriving DecidableEq, Repr

instance : Spelled Tag where
  members := [.extensionMethod, .inherited, .obsolete, .static, .generic]
  spell
    | .extensionMethod => "extension_method"
    | .inherited => "inherited"
    | .obsolete => "obsolete"
    | .static => "static"
    | .generic => "generic"
  find_spell a := by cases a <;> rfl

/-- A symbol as it is shown. -/
structure Candidate where
  symbol : Symbol
  verdict : Verdict
  origin : Origin
  /-- It has type parameters. -/
  isGeneric : Bool
  /-- The name as it is shown. -/
  display : String
  /-- The types of the parameters of a method. -/
  params : Option (List TypeRef)
  /-- The parameters of a method, or the type. -/
  signature : Option String
  /-- The number of further parameter lists. -/
  overloads : Nat := 0
deriving DecidableEq, Repr

/-! ### Showing a symbol -/

namespace Store

/-- Whether a symbol has type parameters. -/
def isGeneric (s : Store) (symbol : Symbol) : Bool :=
  (symbol.kind == .type || symbol.kind == .method || symbol.kind == .localFunction) &&
    (symbol.arity != 0 || !(s.typeParamsOf symbol.id).isEmpty)

/-- A type with the arguments of the type it was found on, and the inferred ones, put in. -/
def closed (s : Store) (offer : Offer) (t : TypeRef) : TypeRef :=
  let found : Substitution :=
    match offer.origin, offer.via with
    | .extension, _ => ∅
    | _, some via => s.instantiation via
    | _, none => ∅
  (t.substitute found).substitute offer.inferred

/-- The parameters that a call passes; the receiver of an extension method is not among them. -/
def passedParams (s : Store) (offer : Offer) : List Parameter :=
  match s.signatures[offer.symbol]? with
  | none => []
  | some signature =>
      if offer.origin = .extension ∧ signature.receiver?.isSome then signature.params.drop 1
      else signature.params

def paramsText (s : Store) (params : List (String × TypeRef)) : String :=
  "(" ++ ", ".intercalate (params.map fun (name, t) => t.render s.nameOf ++ " " ++ name) ++ ")"

/-- The types of the parameters of a method, and the text that is shown with a symbol. -/
def details (s : Store) (offer : Offer) (symbol : Symbol) :
    Option (List TypeRef) × Option String :=
  match symbol.kind with
  | .method | .localFunction =>
      let params := (s.passedParams offer).map fun p => (p.name, s.closed offer p.type)
      (some (params.map Prod.snd), some (s.paramsText params))
  | .type | .typeParameter | .nameSpace | .label => (none, none)
  | _ => (none, symbol.type.map fun t => (s.closed offer t).render s.nameOf)

/-- An offer as it is shown. -/
def candidate? (s : Store) (options : Options) (offer : Offer) : Option Candidate :=
  (s.symbols[offer.symbol]?).map fun symbol =>
    let isGeneric := s.isGeneric symbol
    let details := s.details offer symbol
    { symbol
      verdict := offer.verdict
      origin := offer.origin
      isGeneric
      display := if isGeneric && options.genericSuffix then symbol.name ++ "<>" else symbol.name
      params := details.1
      signature := details.2 }

end Store

namespace Candidate

/-- The tags of a candidate. -/
def tags (c : Candidate) : List Tag :=
  (if c.origin = .extension then [.extensionMethod] else []) ++
    (if c.origin = .inherited then [.inherited] else []) ++
    (if c.symbol.isObsolete then [.obsolete] else []) ++
    (if c.symbol.kind.isMember && c.symbol.isStatic && c.origin != .extension then [.static]
      else []) ++
    (if c.isGeneric then [.generic] else [])

/-! ### Methods of one name -/

/-- The order of methods of one name: by the places of their declarations, those without a place
first, and then by their numbers. -/
def declaredBefore (a b : Candidate) : Bool :=
  match a.symbol.span, b.symbol.span with
  | none, some _ => true
  | some _, none => false
  | none, none => a.symbol.id.val ≤ b.symbol.id.val
  | some x, some y =>
      x.start < y.start || (x.start == y.start && a.symbol.id.val ≤ b.symbol.id.val)

/-- The methods of one name by the first that is not obsolete, or the first, and the number of
further parameter lists. -/
def representative? (group : List Candidate) : Option Candidate :=
  let sorted := group.mergeSort declaredBefore
  let lists := (sorted.map Candidate.params).eraseDups
  ((sorted.find? fun c => !c.symbol.isObsolete) <|> sorted.head?).map fun c =>
    { c with overloads := lists.length - 1 }

/-- **The methods of one name together**; other symbols stay as they are. -/
def collapse (cs : List Candidate) : List Candidate :=
  let methods := cs.filter fun c => c.params.isSome
  let names := (methods.map fun c => c.symbol.name).eraseDups
  (cs.filter fun c => c.params.isNone) ++
    names.filterMap fun name => representative? (methods.filter fun c => c.symbol.name == name)

/-! ### The order -/

/-- How two candidates compare: by what is shown ignoring case, by what is shown, by their kinds,
and by their numbers. -/
def order (a b : Candidate) : Ordering :=
  (compare (Text.lower a.display) (Text.lower b.display)).then
    ((compare a.display b.display).then
      ((compare (Spelled.spell a.symbol.kind) (Spelled.spell b.symbol.kind)).then
        (compare a.symbol.id b.symbol.id)))

/-- The candidates in the order in which they are shown. -/
def sort (cs : List Candidate) : List Candidate := cs.mergeSort fun a b => (order a b).isLE

end Candidate

/-! ### The lists -/

/-- The offers without those of a symbol that came before. -/
def Offer.distinct : List SymbolId → List Offer → List Offer
  | _, [] => []
  | seen, o :: os =>
      if seen.contains o.symbol then distinct seen os else o :: distinct (o.symbol :: seen) os

namespace Snapshot

/-- All symbols considered at a cursor, as they are shown. -/
def candidates (snapshot : Snapshot) (signal : Signal) (options : Options) (request : Request) :
    Answer (List Candidate) := do
  let offering ← snapshot.offers signal options request
  return Candidate.sort
    ((Offer.distinct [] offering.offers).filterMap (snapshot.store.candidate? options))

/-- Whether a name begins with what is typed, ignoring case. -/
def isTyped (typed name : String) : Bool :=
  (Text.lower typed).toList.isPrefixOf (Text.lower name).toList

/-- **The list of completions** at a cursor. -/
def complete (snapshot : Snapshot) (signal : Signal) (options : Options) (request : Request) :
    Answer (List Candidate) := do
  let offering ← snapshot.offers signal options request
  let applicable := offering.offers.filter fun o => o.verdict.isApplicable
  let shown := (Offer.distinct [] applicable).filterMap (snapshot.store.candidate? options)
  let typed := shown.filter fun c => isTyped offering.cursor.typed c.symbol.name
  return Candidate.sort (if options.collapseOverloads then Candidate.collapse typed else typed)

end Snapshot

end Ambit
