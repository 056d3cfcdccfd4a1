/-
Extension methods.

An extension method is a static method whose first parameter takes a receiver.  It is in scope when
it belongs to a static class that is not generic and that lies in a namespace around the place or in
an imported one.  It can be called on a receiver when the type of its first parameter becomes the
type of the receiver, or a supertype of it, for some types of the method's own parameters that meet
their constraints.

Main definitions:

* `Ambit.Store.isExtensionMethod` — whether a symbol is an extension method;
* `Ambit.Store.extensionMethods` — **the extension methods in scope**;
* `Ambit.Store.reduce` — **the types of the parameters of a method** when it is called on a
  receiver.
-/

import Ambit.Lineage
import Ambit.Store.Chain
import Ambit.TypeRef.Fit

set_option relaxedAutoImplicit false
set_option autoImplicit false

namespace Ambit.Store

/-! ### Extension methods in scope -/

/-- Whether a symbol is an extension method. -/
def isExtensionMethod (s : Store) (symbol : Symbol) : Bool :=
  symbol.kind == .method && symbol.has .static &&
    (symbol.has .extension ||
      match s.signatures[symbol.id]? with
      | some signature => signature.receiver?.isSome
      | none => false)

/-- The namespace bodies that a scope opens: itself, and those of its imports. -/
def openedBy (s : Store) (id : ScopeId) : List ScopeId :=
  match s.scopes[id]? with
  | none => []
  | some scope =>
      (if scope.kind = .nameSpace then [id] else []) ++
        (scope.imports.filterMap s.body?).map Scope.id

/-- Whether extension methods can be declared in a class. -/
def canExtend (s : Store) (symbol : Symbol) : Bool := s.isStaticType symbol.id && symbol.arity == 0

def extensionsIn (s : Store) (nameSpace : ScopeId) : List Symbol :=
  ((s.symbolsIn nameSpace).filter s.canExtend).flatMap fun c =>
    (s.membersOf c.id).filter s.isExtensionMethod

/-- **The extension methods in scope.** -/
def extensionMethods (s : Store) (signal : Signal) (scope : ScopeId) : Answer (List Symbol) := do
  let chain ← s.ancestors scope
  signal.during chain
  return (chain.flatMap s.openedBy).eraseDups.flatMap s.extensionsIn

/-! ### Calling on a receiver -/

/-- The types of the parameters of a method for which the type of its receiver parameter becomes the
type of a receiver or one of its supertypes. -/
def bindReceiver (s : Store) (signal : Signal) (params : List SymbolId)
    (pattern receiver : TypeRef) : Answer (Option Substitution) :=
  if !pattern.mentionsAny params then do
    return if ← s.derivesFrom signal receiver pattern then some ∅ else none
  else
    match pattern with
    | .named d args => do
        match ← s.supertypeWith? signal receiver d with
        | none => return none
        | some found => return TypeRef.fitAll? params args found.args ∅
    | .nullable inner =>
        .ok ((s.underlying? receiver).bind fun t => TypeRef.fit? params inner t ∅)
    | .param p => .ok (TypeRef.fit? params (.param p) receiver ∅)
    | .array element rank => .ok (TypeRef.fit? params (.array element rank) receiver ∅)
    | .unresolved => .ok none

def meetConstraints (s : Store) (signal : Signal) (given : Substitution) :
    List SymbolId → Answer Bool
  | [] => .ok true
  | p :: ps =>
      match given[p]? with
      | none => s.meetConstraints signal given ps
      | some t => do
          if ← s.satisfies signal t p given then s.meetConstraints signal given ps
          else return false

/-- **The types of the parameters of a method** when it is called on a receiver. -/
def reduce (s : Store) (signal : Signal) (method : SymbolId) (receiver : TypeRef) :
    Answer (Option Substitution) :=
  match (s.signatures[method]?).bind Signature.receiver? with
  | none => .ok none
  | some parameter =>
      let receiver := s.normalize receiver
      if receiver.isUnresolved then .ok none
      else do
        let params := s.typeParamsOf method
        match ← s.bindReceiver signal params parameter.type receiver with
        | none => return none
        | some given =>
            return if ← s.meetConstraints signal given params then some given else none

end Ambit.Store
