/-
What can be named at a place.

From a position the scopes lead outwards.  Each scope contributes groups of symbols: a type its type
parameters and then its members, a namespace its own symbols and then the imported types, and every
other scope its symbols together with the type parameters of its owner.  A name that is bound in one
group shadows the symbols of that name in all later groups.  On the way outwards the footing of the
code changes: leaving a static function or a type there is no instance any more, leaving a static
local function no variable can be captured, and inside an attribute there is no instance; inside
the operand of `nameof` neither is needed.

Main definitions:

* `Ambit.Footing` — what code inside some scopes can rely on;
* `Ambit.Finding`, `Ambit.Entry` — a symbol that is met, and the verdict on it;
* `Ambit.Store.groupsOf` — the groups of symbols that a scope contributes;
* `Ambit.Store.lookup` — **what can be named at a position**, and why other symbols cannot.
-/

import Ambit.Access
import Ambit.Member
import Ambit.Options
import Ambit.Verdict

set_option relaxedAutoImplicit false
set_option autoImplicit false

namespace Ambit

/-! ### The footing of code -/

/-- What code inside some scopes can rely on when it names symbols of a scope around them. -/
structure Footing where
  /-- There is an instance whose members can be used. -/
  hasInstance : Bool := true
  /-- Variables can be captured. -/
  mayCapture : Bool := true
  /-- The code only names symbols and does not use them. -/
  inNameOf : Bool := false
deriving DecidableEq, Repr

/-- The footing inside a scope. -/
def Footing.enter (f : Footing) (scope : Scope) : Footing :=
  match scope.kind with
  | .nameOf => { f with inNameOf := true }
  | .attributeArgument => { f with hasInstance := false }
  | _ => f

namespace Store

def isStaticFunction (s : Store) (scope : Scope) : Bool :=
  scope.kind.isFunctionLike &&
    (scope.isStatic ||
      match scope.owner.bind (s.symbols[·]?) with
      | some owner => owner.has .static
      | none => false)

/-- The footing after leaving a scope. -/
def leave (s : Store) (f : Footing) (scope : Scope) : Footing :=
  let isNested := scope.kind == .localFunction || scope.kind == .lambda
  { f with
    hasInstance := f.hasInstance && !(scope.kind == .type || s.isStaticFunction scope)
    mayCapture := f.mayCapture && !(isNested && s.isStaticFunction scope) }

/-- Whether there is an instance of the innermost type around the code. -/
def instanceWithin (s : Store) : Footing → List Scope → Bool
  | _, [] => false
  | f, scope :: scopes =>
      if scope.kind = .type then f.hasInstance
      else s.instanceWithin (s.leave (f.enter scope) scope) scopes

end Store

/-! ### Groups of symbols -/

/-- A symbol that is met on the way outwards. -/
structure Finding where
  symbol : SymbolId
  /-- The type that it was found on, for a member. -/
  via : Option TypeRef := none
  origin : Origin := .declared
deriving DecidableEq, Repr

namespace Store

/-- The symbols of a scope that satisfy a condition. -/
def declaredIn (s : Store) (scope : ScopeId) (admits : Symbol → Bool) : List Finding :=
  ((s.symbolsIn scope).filter admits).map fun symbol => { symbol := symbol.id }

def memberGroup (s : Store) (signal : Signal) (scope : Scope) : Answer (List Finding) :=
  match scope.owner.bind s.typeOf? with
  | none => .ok (s.declaredIn scope.id fun symbol => symbol.kind.isMember)
  | some self => do
      return (← s.typeMembers signal self).map fun m =>
        { symbol := m.symbol.id, via := some m.declaring,
          origin := if m.inherited then .inherited else .declared }

def importedTypes (s : Store) (nameSpace : SymbolId) : List Finding :=
  match s.body? nameSpace with
  | none => []
  | some body =>
      ((s.symbolsIn body.id).filter fun symbol => symbol.kind == .type).map fun symbol =>
        { symbol := symbol.id, origin := .imported }

/-- The symbols of a scope, and the type parameters of its owner that are not among them. -/
def ownGroup (s : Store) (scope : Scope) : List Finding :=
  let declared := s.declaredIn scope.id fun _ => true
  let params :=
    match scope.owner with
    | none => []
    | some owner => (s.typeParamsOf owner).filter fun p => !declared.any (·.symbol == p)
  declared ++ params.map fun p => { symbol := p }

/-- **The groups of symbols that a scope contributes.** -/
def groupsOf (s : Store) (signal : Signal) (scope : Scope) : Answer (List (List Finding)) :=
  match scope.kind with
  | .type => do
      let params := s.declaredIn scope.id fun symbol => symbol.kind == .typeParameter
      return [params, ← s.memberGroup signal scope]
  | .nameSpace =>
      .ok [s.declaredIn scope.id fun _ => true, scope.imports.flatMap s.importedTypes]
  | _ => .ok [s.ownGroup scope]

end Store

/-! ### Verdicts -/

/-- A symbol that was met, and whether it can be named. -/
structure Entry where
  symbol : SymbolId
  via : Option TypeRef
  verdict : Verdict
  origin : Origin
deriving DecidableEq, Repr

namespace Entry

def isVisible (e : Entry) : Bool := e.verdict.isApplicable

/-- Whether the entry binds its name, so that it shadows symbols further out. -/
def binds (e : Entry) : Bool :=
  e.verdict != .excluded .shadowed && e.verdict != .excluded .inaccessible

end Entry

/-- The place that symbols are looked up from. -/
structure Outlook where
  signal : Signal
  options : Options
  position : UInt64
  site : Site

namespace Store

def memberVerdict (s : Store) (o : Outlook) (f : Footing) (symbol : Symbol) : Answer Verdict := do
  if !(← s.canAccess o.signal o.site symbol) then return .excluded .inaccessible
  else
    return .requiring (!symbol.isInstanceMember || f.hasInstance || f.inNameOf)
      .instanceInStaticContext

/-- Whether a symbol that is not shadowed can be named. -/
def scopingVerdict (s : Store) (o : Outlook) (f : Footing) (symbol : Symbol) : Answer Verdict :=
  if symbol.kind.isTextuallyScoped && !symbol.isDeclaredBefore o.position then
    .ok (.excluded .declaredLater)
  else if symbol.kind.isCapturable && !f.mayCapture && !symbol.isConstant && !f.inNameOf then
    .ok (.excluded .capturedInStaticFunction)
  else if symbol.kind.isMember then s.memberVerdict o f symbol
  else .ok .applicable

/-- The entry for a symbol that is met when some names are bound. -/
def entryOf (s : Store) (o : Outlook) (f : Footing) (bound : List String) (found : Finding) :
    Answer Entry :=
  match s.symbols[found.symbol]? with
  | none => .error (.breach (.missingListed found.symbol))
  | some symbol => do
      let verdict ←
        if bound.contains (o.options.fold symbol.name) then pure (.excluded .shadowed)
        else s.scopingVerdict o f symbol
      return { symbol := found.symbol, via := found.via, verdict, origin := found.origin }

def boundName? (s : Store) (o : Outlook) (e : Entry) : Option String :=
  if e.binds then (s.symbols[e.symbol]?).map fun symbol => o.options.fold symbol.name else none

/-- The entries of groups that are met one after the other, and the names bound after them. -/
def entriesOf (s : Store) (o : Outlook) (f : Footing) :
    List String → List (List Finding) → Answer (List (List Entry) × List String)
  | bound, [] => .ok ([], bound)
  | bound, group :: groups => do
      let entries ← group.mapM (s.entryOf o f bound)
      let (later, bound) ← s.entriesOf o f (entries.filterMap (s.boundName? o) ++ bound) groups
      return (entries :: later, bound)

/-! ### The way outwards -/

/-- The entries of the scopes on the way outwards, group by group. -/
def entriesAlong (s : Store) (o : Outlook) :
    Footing → List String → List ScopeId → Answer (List (ScopeId × List (List Entry)))
  | _, _, [] => .ok []
  | f, bound, id :: rest =>
      match s.scopes[id]? with
      | none => .error (.breach (.missingScope id))
      | some scope => do
          let inside := f.enter scope
          let groups ← s.groupsOf o.signal scope
          let (entries, bound) ← s.entriesOf o inside bound groups
          let later ← s.entriesAlong o (s.leave inside scope) bound rest
          return (id, entries) :: later

end Store

/-- What is met from a position outwards. -/
structure Panorama where
  /-- The innermost scope at the position. -/
  scope : ScopeId := .outside
  /-- The entries of each scope, group by group. -/
  groups : List (ScopeId × List (List Entry)) := []
  /-- There is an instance of the innermost type. -/
  hasInstance : Bool := false
deriving DecidableEq, Repr

namespace Panorama

/-- All entries, the innermost first. -/
def entries (p : Panorama) : List Entry := p.groups.flatMap fun (_, groups) => groups.flatten

def visible (p : Panorama) : List Entry := p.entries.filter Entry.isVisible

def ofSymbol? (p : Panorama) (symbol : SymbolId) : Option Entry :=
  p.entries.find? fun e => e.symbol == symbol

/-- The innermost entry of a name that can be named. -/
def findVisible? (p : Panorama) (s : Store) (options : Options) (name : String) : Option Entry :=
  p.visible.find? fun e =>
    match s.symbols[e.symbol]? with
    | some symbol => options.fold symbol.name == options.fold name
    | none => false

end Panorama

namespace Store

/-- The innermost scope at a position, or the place outside every scope. -/
def scopeAt (s : Store) (position : UInt64) : ScopeId :=
  match s.innermost? position with
  | some scope => scope.id
  | none => .outside

/-- **What can be named at a position**, and why other symbols cannot. -/
def lookup (s : Store) (signal : Signal) (options : Options) (position : UInt64) :
    Answer Panorama := do
  signal.check
  let start := s.scopeAt position
  if start = .outside then return {}
  else
    let site ← s.siteAt start
    let chain ← s.ancestors start
    return {
      scope := start
      groups := ← s.entriesAlong { signal, options, position, site } {} [] chain
      hasInstance := s.instanceWithin {} (chain.filterMap (s.scopes[·]?)) }

def visibleSymbols (s : Store) (signal : Signal) (options : Options) (position : UInt64) :
    Answer (List Symbol) := do
  return (← s.lookup signal options position).visible.filterMap fun e => s.symbols[e.symbol]?

/-- The scope that a variable at a position is declared in: the given container if it is there, and
otherwise the innermost scope in which variables can be declared, or the innermost scope at all. -/
def enclosingSpace (s : Store) (signal : Signal) (position : UInt64) (container : Option ScopeId) :
    Answer ScopeId :=
  match container with
  | some scope => .ok (if scope ∈ s.scopes then scope else .outside)
  | none =>
      let start := s.scopeAt position
      if start = .outside then .ok start
      else do
        let chain ← s.ancestors start
        signal.check
        let isSpace (id : ScopeId) : Bool :=
          match s.scopes[id]? with
          | some scope => scope.kind.isLocalSpace
          | none => false
        return (chain.find? isSpace).getD start

end Store

end Ambit
