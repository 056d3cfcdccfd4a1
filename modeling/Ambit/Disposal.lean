/-
Methods that are called by their shape.

A resource is disposed of by the method that implements the member of the disposal interface, if its
type implements that interface.  Otherwise the method is found by its shape — its name, its number
of parameters and its result: the asynchronous one on every type, the other one only on types whose
values live on the stack.  A call can also be taken over by a method that is declared for its place.

Main definitions:

* `Ambit.Result` — what a method has to return;
* `Ambit.Store.patternMethod?` — **the method of a shape**;
* `Ambit.Store.disposeMethod?` — **the method that disposes of a resource**;
* `Ambit.Store.interceptor?` — the method that takes over a call.
-/

import Ambit.Conformance

set_option relaxedAutoImplicit false
set_option autoImplicit false

namespace Ambit

/-- What a method has to return. -/
inductive Result where
  /-- Nothing. -/
  | nothing
  /-- Something that can be awaited. -/
  | awaitable
  /-- Anything. -/
  | anything
deriving DecidableEq, Repr

namespace Store

/-- Whether a method may return what it returns. -/
def acceptsResult (s : Store) (result : Result) (returns : Option TypeRef) : Bool :=
  match result with
  | .nothing => returns.isNone
  | .awaitable =>
      match returns.bind TypeRef.definition? with
      | some d => s.isWellKnown d .task || s.isWellKnown d .valueTask
      | none => false
  | .anything => true

/-- The number of parameters for which a call has to pass an argument. -/
def requiredCount (signature : Signature) : Nat :=
  (signature.params.filter fun p => !p.hasDefault && p.kind != .rest).length

/-- Whether a member is a public method of an instance that has a shape. -/
def hasShape (s : Store) (name : String) (result : Result) (count : Nat) (m : Symbol) : Bool :=
  m.kind == .method && m.name == name && m.access == .everywhere && !m.isStatic &&
    !m.isExplicit &&
    match s.signatures[m.id]? with
    | none => count == 0 && s.acceptsResult result m.type
    | some signature =>
        requiredCount signature == count && s.acceptsResult result signature.returns

/-- The method of a shape that a class declares itself. -/
def ownPatternMethod? (s : Store) (name : String) (result : Result) (count : Nat) (t : TypeRef) :
    Option SymbolId :=
  match t.definition? with
  | none => none
  | some d => ((s.membersOf d).find? (s.hasShape name result count)).map Symbol.id

/-- **The method of a shape** that a type or one of its base classes declares. -/
def patternMethod? (s : Store) (signal : Signal) (t : TypeRef) (name : String) (result : Result)
    (count : Nat) : Answer (Option SymbolId) := do
  return (← s.baseChain signal t).findSome? (s.ownPatternMethod? name result count)

/-- The method that implements the member of a disposal interface, if a type implements it; where
the type has none, the member itself. -/
def nominalDispose? (s : Store) (signal : Signal) (t : TypeRef) (kind : WellKnown)
    (name : String) : Answer (Option SymbolId) :=
  match s.wellKnown[kind]? with
  | none => .ok none
  | some contract => do
      if ← s.implements signal t contract then
        match (s.membersOf contract).find? fun m => m.kind == .method && m.name == name with
        | none => return none
        | some member => return (← s.implementation? signal t member.id) <|> some member.id
      else return none

def isRefLike (s : Store) (t : TypeRef) : Bool :=
  match s.declOf? t with
  | some decl => decl.isRefLike
  | none => false

/-- **The method that disposes of a resource.** -/
def disposeMethod? (s : Store) (signal : Signal) (type : TypeRef) (isAsync : Bool) :
    Answer (Option SymbolId) := do
  signal.check
  let t := s.normalize type
  if t.isUnresolved then return none
  else
    let (kind, name, result) :=
      if isAsync then (WellKnown.asyncDisposable, "DisposeAsync", Result.awaitable)
      else (WellKnown.disposable, "Dispose", Result.nothing)
    match ← s.nominalDispose? signal t kind name with
    | some method => return some method
    | none =>
        if isAsync || s.isRefLike t then s.patternMethod? signal t name result 0 else return none

/-- The method that takes over the call at a position. -/
def interceptor? (s : Store) (signal : Signal) (position : UInt64) : Answer (Option SymbolId) := do
  signal.check
  match s.interceptorAt position with
  | none => return none
  | some method =>
      if method ∈ s.symbols then return some method
      else .error (.breach (.missingInterceptor position method))

end Store

end Ambit
