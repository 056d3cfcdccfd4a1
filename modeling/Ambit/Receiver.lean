/-
What stands before a dot.

The names before a dot are resolved from left to right: the first one is looked up at its position,
or is the instance of the enclosing type or of its base, and each further one is a member of what
comes before it.  A name that cannot be resolved leaves the receiver unbound.

Main definitions:

* `Ambit.Receiver` — a value, a type, a namespace, or nothing known;
* `Ambit.Store.receiverOf` — what a symbol stands for before a dot;
* `Ambit.Store.resolve` — **what a sequence of names stands for**.
-/

import Ambit.Lookup

set_option relaxedAutoImplicit false
set_option autoImplicit false

namespace Ambit

/-- What stands before a dot. -/
inductive Receiver where
  /-- An expression of a type. -/
  | value (type : TypeRef)
  /-- A type. -/
  | type (type : TypeRef)
  /-- A namespace. -/
  | nameSpace (symbol : SymbolId)
  /-- Something that is not known. -/
  | unbound
deriving DecidableEq, Repr

/-- Whether it is known what stands before the dot. -/
def Receiver.isBound (r : Receiver) : Bool := r != .unbound

def Receiver.ofValue? : Option TypeRef → Receiver
  | some t => if t.isUnresolved then .unbound else .value t
  | none => .unbound

namespace Store

def aliasReceiver (s : Store) : Option TypeRef → Receiver
  | none => .unbound
  | some target =>
      match (target.definition?.bind (s.symbols[·]?)).filter (·.kind == .nameSpace) with
      | some symbol => .nameSpace symbol.id
      | none => if target.isUnresolved then .unbound else .type target

/-- **What a symbol stands for before a dot**, when it was found on a type. -/
def receiverOf (s : Store) (symbol : Symbol) (via : Option TypeRef) : Receiver :=
  match symbol.kind with
  | .type | .typeParameter =>
      match s.typeOf? symbol.id with
      | some t => .type t
      | none => .unbound
  | .nameSpace => .nameSpace symbol.id
  | .aliasName => s.aliasReceiver symbol.type
  | .method | .localFunction | .label => .unbound
  | .localVariable | .parameter | .rangeVariable | .patternVariable | .field | .property | .event
  | .enumMember =>
      let given : Substitution :=
        match via with
        | some t => s.instantiation t
        | none => ∅
      .ofValue? (symbol.type.map (TypeRef.substitute given))

/-- The instance that `this` or `base` stands for. -/
def selfReceiver (s : Store) (signal : Signal) (options : Options) (position : UInt64)
    (isBase : Bool) : Answer Receiver := do
  if !(← s.lookup signal options position).hasInstance then return .unbound
  else
    match (← s.siteAt (s.scopeAt position)).types.head?.bind s.typeOf? with
    | none => return .unbound
    | some self =>
        if isBase then
          match (s.directSupertypes self).find? fun t => !s.isInterface t with
          | some base => return .value base
          | none => return .unbound
        else return .value self

/-- What the first of some names stands for. -/
def firstReceiver (s : Store) (signal : Signal) (options : Options) (position : UInt64)
    (name : String) : Answer Receiver :=
  if name = "this" then s.selfReceiver signal options position false
  else if name = "base" then s.selfReceiver signal options position true
  else do
    match (← s.lookup signal options position).findVisible? s options name with
    | none => return .unbound
    | some entry =>
        match s.symbols[entry.symbol]? with
        | some symbol => return s.receiverOf symbol entry.via
        | none => return .unbound

def namespaceMember (s : Store) (options : Options) (nameSpace : SymbolId) (name : String) :
    Receiver :=
  match s.body? nameSpace with
  | none => .unbound
  | some body =>
      match (s.symbolsIn body.id).find? fun symbol =>
        (symbol.kind == .nameSpace || symbol.kind == .type) &&
          options.fold symbol.name == options.fold name with
      | some symbol => s.receiverOf symbol none
      | none => .unbound

def typeMember (s : Store) (signal : Signal) (options : Options) (t : TypeRef) (name : String) :
    Answer Receiver := do
  match (← s.typeMembers signal t).find? fun m =>
    m.symbol.kind != .method && options.fold m.symbol.name == options.fold name with
  | some m => return s.receiverOf m.symbol (some m.declaring)
  | none => return .unbound

def nextReceiver (s : Store) (signal : Signal) (options : Options) :
    Receiver → String → Answer Receiver
  | .unbound, _ => .ok .unbound
  | .nameSpace symbol, name => .ok (s.namespaceMember options symbol name)
  | .type t, name => s.typeMember signal options t name
  | .value t, name => s.typeMember signal options t name

/-- **What a sequence of names stands for** at a position. -/
def resolve (s : Store) (signal : Signal) (options : Options) (position : UInt64) :
    List String → Answer Receiver
  | [] => .ok .unbound
  | first :: rest => do
      rest.foldlM (s.nextReceiver signal options)
        (← s.firstReceiver signal options position first)

end Store

end Ambit
