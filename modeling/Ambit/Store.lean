/-
The store: all facts about one program.

The store holds the symbols, scopes, declarations and signatures of a program, each under its
identity, together with indexes that answer which symbols a scope or a name has, which scopes lie in
a scope, which scope is the body of a symbol, and which type parameters a symbol has.  Every fact
that is inserted replaces the one with the same identity, and moves it in the indexes.

Main definitions:

* `Ambit.Store` — the store;
* `Ambit.Store.insertSymbol`, `Ambit.Store.insertScope`, … — inserting facts;
* `Ambit.Store.drawSymbol`, `Ambit.Store.drawScope` — identities not used before;
* `Ambit.Store.addSymbol`, `Ambit.Store.addScope`, `Ambit.Store.addTypeParams` — declaring with
  such identities;
* `Ambit.Store.symbolsIn`, `Ambit.Store.symbolsNamed`, `Ambit.Store.childScopes`,
  `Ambit.Store.body?`, `Ambit.Store.typeParamsOf`, `Ambit.Store.membersOf` — the questions that
  the indexes answer.
-/

import Ambit.Declaration
import Ambit.Scope
import Ambit.Store.Index
import Ambit.Symbol

set_option relaxedAutoImplicit false
set_option autoImplicit false

namespace Ambit

/-- All facts about one program. -/
structure Store where
  /-- The version of the form in which the facts are archived. -/
  version : UInt32 := 1
  symbols : SymbolTable Symbol := ∅
  scopes : ScopeTable Scope := ∅
  types : SymbolTable TypeDecl := ∅
  typeParams : SymbolTable TypeParam := ∅
  signatures : SymbolTable Signature := ∅
  interceptions : List Interception := []
  wellKnown : Std.ExtTreeMap WellKnown SymbolId := ∅
  /-- The symbols declared in each scope. -/
  scopeIndex : Index ScopeId SymbolId := ∅
  /-- The symbols of each name. -/
  nameIndex : Index String SymbolId := ∅
  /-- The scopes that lie directly in each scope. -/
  childIndex : Index ScopeId ScopeId := ∅
  /-- The scope that is the body of each symbol. -/
  bodies : SymbolTable ScopeId := ∅
  /-- The type parameters of each symbol, in the order of their places. -/
  paramLists : SymbolTable (List SymbolId) := ∅
  /-- The next symbol number that is not used. -/
  nextSymbol : UInt32 := 0
  /-- The next scope number that is not used. -/
  nextScope : UInt32 := 0

namespace Store

/-- The store without facts. -/
def empty : Store := {}

/-! ### Fresh identities -/

/-- A symbol number that was not used before. -/
def drawSymbol (s : Store) : SymbolId × Store :=
  (⟨s.nextSymbol⟩, { s with nextSymbol := s.nextSymbol + 1 })

/-- A scope number that was not used before. -/
def drawScope (s : Store) : ScopeId × Store :=
  (⟨s.nextScope⟩, { s with nextScope := s.nextScope + 1 })

/-! ### Inserting facts -/

/-- The store without the entries of a symbol in the indexes. -/
def unlistSymbol (s : Store) (id : SymbolId) : Store :=
  match s.symbols[id]? with
  | none => s
  | some old =>
      { s with
        scopeIndex := s.scopeIndex.withdraw old.scope id
        nameIndex := s.nameIndex.withdraw old.name id }

/-- The store with a symbol, which replaces the one of the same identity. -/
def insertSymbol (s : Store) (symbol : Symbol) : Store :=
  let s := s.unlistSymbol symbol.id
  { s with
    symbols := s.symbols.insert symbol.id symbol
    scopeIndex := s.scopeIndex.file symbol.scope symbol.id
    nameIndex := s.nameIndex.file symbol.name symbol.id
    nextSymbol := max s.nextSymbol (symbol.id.val + 1) }

/-- The store without the entries of a scope in the indexes. -/
def unlistScope (s : Store) (id : ScopeId) : Store :=
  match s.scopes[id]? with
  | none => s
  | some old =>
      { s with
        childIndex :=
          match old.parent with
          | none => s.childIndex
          | some parent => s.childIndex.withdraw parent id
        bodies :=
          match old.owner with
          | none => s.bodies
          | some owner => if s.bodies[owner]? = some id then s.bodies.erase owner else s.bodies }

/-- The store with a scope, which replaces the one of the same identity.  It becomes the body of
its owner. -/
def insertScope (s : Store) (scope : Scope) : Store :=
  let s := s.unlistScope scope.id
  { s with
    scopes := s.scopes.insert scope.id scope
    childIndex :=
      match scope.parent with
      | none => s.childIndex
      | some parent => s.childIndex.file parent scope.id
    bodies :=
      match scope.owner with
      | none => s.bodies
      | some owner => s.bodies.insert owner scope.id
    nextScope := max s.nextScope (scope.id.val + 1) }

def insertType (s : Store) (decl : TypeDecl) : Store :=
  { s with types := s.types.insert decl.id decl }

/-- The place of a type parameter among those of its owner; one that is not known comes last. -/
def placeIn (typeParams : SymbolTable TypeParam) (param : SymbolId) : UInt32 :=
  match typeParams[param]? with
  | some p => p.ordinal
  | none => 4294967295

/-- The store with a type parameter, listed once for its owner and put in its place there. -/
def insertTypeParam (s : Store) (param : TypeParam) : Store :=
  let listed := s.paramLists.getD param.owner []
  let listed := if listed.contains param.id then listed else listed ++ [param.id]
  let typeParams := s.typeParams.insert param.id param
  { s with
    typeParams
    paramLists := s.paramLists.insert param.owner
      (listed.mergeSort fun p q => placeIn typeParams p ≤ placeIn typeParams q) }

def insertSignature (s : Store) (signature : Signature) : Store :=
  { s with signatures := s.signatures.insert signature.id signature }

def insertInterception (s : Store) (interception : Interception) : Store :=
  { s with interceptions := s.interceptions ++ [interception] }

def register (s : Store) (kind : WellKnown) (symbol : SymbolId) : Store :=
  { s with wellKnown := s.wellKnown.insert kind symbol }

/-! ### Declaring with fresh identities -/

/-- Inserts a symbol with a fresh identity. -/
def addSymbol (s : Store) (make : SymbolId → Symbol) : SymbolId × Store :=
  let (id, s) := s.drawSymbol
  (id, s.insertSymbol (make id))

/-- Inserts a scope with a fresh identity. -/
def addScope (s : Store) (make : ScopeId → Scope) : ScopeId × Store :=
  let (id, s) := s.drawScope
  (id, s.insertScope (make id))

/-- Declares type parameters of a symbol in a scope, from a place on. -/
def addTypeParams (s : Store) (owner : SymbolId) (scope : ScopeId) (fromMetadata : Bool) :
    UInt32 → List String → List SymbolId × Store
  | _, [] => ([], s)
  | ordinal, name :: names =>
      let (id, s) := s.addSymbol fun id => { id, kind := .typeParameter, name, scope, fromMetadata }
      let s := s.insertTypeParam { id, owner, ordinal }
      let (ids, s) := s.addTypeParams owner scope fromMetadata (ordinal + 1) names
      (id :: ids, s)

/-! ### Questions -/

def isWellKnown (s : Store) (symbol : SymbolId) (kind : WellKnown) : Bool :=
  s.wellKnown[kind]? == some symbol

/-- The symbols declared in a scope, in the order of their numbers. -/
def symbolsIn (s : Store) (scope : ScopeId) : List Symbol :=
  s.scopeIndex.read s.symbols Symbol.id scope

/-- The symbols of a name, in the order of their numbers. -/
def symbolsNamed (s : Store) (name : String) : List Symbol :=
  s.nameIndex.read s.symbols Symbol.id name

/-- The scopes that lie directly in a scope, in the order of their numbers. -/
def childScopes (s : Store) (scope : ScopeId) : List Scope :=
  s.childIndex.read s.scopes Scope.id scope

/-- The scope that is the body of a symbol. -/
def body? (s : Store) (owner : SymbolId) : Option Scope := do
  let id ← s.bodies[owner]?
  s.scopes[id]?

/-- The type parameters of a symbol, in the order of their places. -/
def typeParamsOf (s : Store) (owner : SymbolId) : List SymbolId := s.paramLists.getD owner []

/-- The members that a type declares itself. -/
def membersOf (s : Store) (type : SymbolId) : List Symbol :=
  match s.body? type with
  | none => []
  | some scope => (s.symbolsIn scope.id).filter fun m => m.kind.isMember

def interceptorAt (s : Store) (position : UInt64) : Option SymbolId :=
  (s.interceptions.find? fun i => decide (i.target.Holds position)).map Interception.interceptor

/-- The name of a symbol in texts; a question mark stands for one that is not there. -/
def nameOf (s : Store) (symbol : SymbolId) : String :=
  match s.symbols[symbol]? with
  | some symbol => symbol.name
  | none => "?"

end Store

end Ambit
