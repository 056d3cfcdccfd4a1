/-
Sketches: programs stated by their text and the places of their declarations.

A sketch is a text together with facts that are stated one declaration at a time.  Each declaration
is given by words that occur in the text: a header such as `public class C<T>`, or a piece of text
that contains the name.  The words are looked for inside the scope in which the declaration stands,
so that the same words can occur in several of them, and their place gives the spans of the name and
of the body.  The text may carry a mark where the cursor is.

Main definitions:

* `Ambit.Sketch` — a sketch;
* `Ambit.Sketch.Flaw` — the ways in which a statement does not fit the text, and their messages;
* `Ambit.Sketch.ofMarked` — the sketch of a text that may carry a mark;
* `Ambit.Sketch.declareType`, `Ambit.Sketch.declareMethod`, … — **stating declarations**;
* `Ambit.Sketch.finish` — the snapshot that a sketch describes.
-/

import Ambit.Identifier
import Ambit.Sketch.Header
import Ambit.Sketch.Prelude
import Ambit.Sketch.Region
import Ambit.Snapshot
import Ambit.Text.Quoted

set_option relaxedAutoImplicit false
set_option autoImplicit false

namespace Ambit

open Ambit.Text

/-- A text together with the facts that are stated about it. -/
structure Sketch where
  text : String
  /-- Where the cursor is. -/
  cursor : Option Nat
  store : Store
  /-- The scope of the whole text. -/
  outermost : ScopeId
  /-- The prelude, once it is declared. -/
  prelude : Option Sketch.Prelude := none

namespace Sketch

/-- The ways in which a statement does not fit the text. -/
inductive Flaw where
  /-- The text carries no mark for the cursor. -/
  | unmarked
  /-- The words do not occur in the text. -/
  | absent (needle : String)
  /-- The words do not occur in the scope. -/
  | absentIn (needle : String) (scope : ScopeId)
  /-- The ends of the scope do not lie between characters of the text. -/
  | torn (scope : ScopeId)
  /-- The name does not occur in the text as a word. -/
  | absentWord (word text : String)
  /-- No parameter list follows a header. -/
  | noParameters (header : String)
  /-- The facts do not fit together. -/
  | misfit (fault : Fault)
deriving DecidableEq, Repr

/-- What does not fit. -/
def Flaw.message : Flaw → String
  | unmarked => "snapshot text has no $$ cursor marker"
  | absent needle => quoted needle ++ " not found in snapshot text"
  | absentIn needle scope => quoted needle ++ " not found in " ++ scope.render
  | torn scope => "the ends of " ++ scope.render ++ " do not lie between characters"
  | absentWord word text => "word " ++ quoted word ++ " not found in " ++ quoted text
  | noParameters header => "no parameter list after " ++ quoted header
  | misfit fault => "snapshot builder produced invalid facts: " ++ fault.message

/-- What a statement about the text gives, or the flaw in it. -/
abbrev Outcome (α : Type) := Except Flaw α

/-! ### The text -/

/-- The mark for the cursor. -/
def mark : List Char := ['$', '$']

/-- **The sketch of a text** that may carry a mark.  Its facts have one scope, for the whole
text. -/
def ofMarked (marked : String) : Sketch :=
  let cursor := find mark marked.toList
  let text :=
    match cursor with
    | none => marked.toList
    | some n => takeBytes n marked.toList ++ (dropBytes n marked.toList).drop mark.length
  let (outermost, store) := Store.empty.addScope fun id =>
    { id, kind := .nameSpace, span := .between 0 (past text) }
  { text := String.ofList text, cursor, store, outermost }

def cursorPosition (k : Sketch) : Outcome Nat :=
  match k.cursor with
  | some n => .ok n
  | none => .error .unmarked

/-- The first place where words occur. -/
def place (k : Sketch) (needle : String) : Outcome Nat :=
  match find needle.toList k.text.toList with
  | some n => .ok n
  | none => .error (.absent needle)

/-- **The snapshot that a sketch describes**, when its facts fit together. -/
def finish (k : Sketch) : Outcome Snapshot :=
  match Snapshot.checked k.store k.text 1 with
  | .ok s => .ok s
  | .error fault => .error (.misfit fault)

/-! ### Finding words -/

/-- The offsets between which a scope lies.  A scope without a place in the text stands for the
whole text. -/
def range (k : Sketch) (scope : ScopeId) : Nat × Nat :=
  let size := k.text.utf8ByteSize
  match k.store.scopes[scope]? with
  | some s =>
      if s.fromMetadata then (0, size)
      else (min s.span.start.toNat size, min s.span.stop.toNat size)
  | none => (0, size)

/-- The part of the text that a scope covers, and where it begins. -/
def region (k : Sketch) (scope : ScopeId) : Outcome (Nat × List Char) :=
  let (start, stop) := k.range scope
  match between? start stop k.text.toList with
  | some part => .ok (start, part)
  | none => .error (.torn scope)

/-- Whether a neighbour would continue a name. -/
def continues (neighbour : Option Char) : Bool := neighbour.any Identifier.isPart

/-- Whether words may stand between two neighbours, so that they neither begin nor end inside a
longer name. -/
def admits (words : List Char) (before after : Option Char) : Bool :=
  !(continues words.head? && continues before) && !(continues words.getLast? && continues after)

/-- The first place in a scope where words occur that do not begin or end inside a longer name. -/
def locate (k : Sketch) (scope : ScopeId) (needle : String) : Outcome Nat := do
  let (start, text) ← k.region scope
  match search needle.toList text (admits needle.toList) with
  | some n => .ok (start + n)
  | none => .error (.absentIn needle scope)

/-- The first place in a text where a name occurs as a word. -/
def wordIn (text : List Char) (word : String) : Outcome Nat :=
  match search word.toList text fun before after => !continues before && !continues after with
  | some n => .ok n
  | none => .error (.absentWord word (String.ofList text))

def locateWord (k : Sketch) (scope : ScopeId) (word : String) : Outcome Nat := do
  let (start, text) ← k.region scope
  return start + (← wordIn text word)

def locateName (k : Sketch) (scope : ScopeId) (needle name : String) : Outcome Nat := do
  return (← k.locate scope needle) + (← wordIn needle.toList name)

def nameAt (name : String) (start : Nat) : Span := .between start (start + name.utf8ByteSize)

/-! ### Stating facts -/

def addSymbol (k : Sketch) (make : SymbolId → Symbol) : SymbolId × Sketch :=
  let (id, store) := k.store.addSymbol make
  (id, { k with store })

def addScope (k : Sketch) (make : ScopeId → Scope) : ScopeId × Sketch :=
  let (id, store) := k.store.addScope make
  (id, { k with store })

def addTypeParams (k : Sketch) (owner : SymbolId) (body : ScopeId) (names : List String) :
    List SymbolId × Sketch :=
  let (ids, store) := k.store.addTypeParams owner body false 0 names
  (ids, { k with store })

def reviseSymbol (k : Sketch) (id : SymbolId) (change : Symbol → Symbol) : Sketch :=
  match k.store.symbols[id]? with
  | some symbol => { k with store := k.store.insertSymbol (change symbol) }
  | none => k

def reviseType (k : Sketch) (id : SymbolId) (change : TypeDecl → TypeDecl) : Sketch :=
  match k.store.types[id]? with
  | some decl => { k with store := k.store.insertType (change decl) }
  | none => k

/-- A declaration that has a body. -/
structure Declared where
  symbol : SymbolId
  body : ScopeId
  typeParams : List SymbolId := []
deriving DecidableEq, Repr

/-! ### Types and namespaces -/

def typeOfBody? (k : Sketch) (scope : ScopeId) : Option SymbolId :=
  (k.store.scopes[scope]?).bind fun s => if s.kind = .type then s.owner else none

/-- Declares a type by its header.  A type in another one is private unless the header says
otherwise, and any other is internal. -/
def declareType (k : Sketch) (parent : ScopeId) (header : String) (kind : TypeKind) :
    Outcome (Declared × Sketch) := do
  let start ← k.locate parent header
  let parsed := Header.ofChars header.toList
  let container := k.typeOfBody? parent
  let (symbol, k) := k.addSymbol fun id =>
    Symbol.withModifiers
      { id, kind := .type, name := parsed.name, scope := parent
        span := some (parsed.nameSpan start), container
        access := parsed.access.getD (if container.isSome then .container else .assembly)
        arity := parsed.typeParams.length.toUInt32 }
      parsed.modifiers
  let k := { k with
    store := k.store.insertType { id := symbol, kind, isRefLike := parsed.isRefLike } }
  let (body, k) := k.addScope fun id =>
    { id, kind := .type, span := bodySpan k.text.toList (start + header.utf8ByteSize)
      parent := some parent, owner := some symbol }
  let (typeParams, k) := k.addTypeParams symbol body parsed.typeParams
  return ({ symbol, body, typeParams }, k)

def declareEnumMembers (enumeration : Declared) :
    Sketch → List String → Outcome Sketch
  | k, [] => .ok k
  | k, name :: names => do
      let start ← k.locateWord enumeration.body name
      let (_, k) := k.addSymbol fun id =>
        { id, kind := .enumMember, name, scope := enumeration.body, span := some (nameAt name start)
          container := some enumeration.symbol, type := some (.plain enumeration.symbol) }
      declareEnumMembers enumeration k names

def declareEnum (k : Sketch) (parent : ScopeId) (header : String) (members : List String) :
    Outcome (Declared × Sketch) := do
  let (enumeration, k) ← k.declareType parent header .enumType
  return (enumeration, ← declareEnumMembers enumeration k members)

def declareNamespace (k : Sketch) (parent : ScopeId) (header : String) :
    Outcome (Declared × Sketch) := do
  let start ← k.locate parent header
  let parsed := Header.ofChars header.toList
  let (symbol, k) := k.addSymbol fun id =>
    { id, kind := .nameSpace, name := parsed.name, scope := parent
      span := some (parsed.nameSpan start) }
  let (body, k) := k.addScope fun id =>
    { id, kind := .nameSpace, span := bodySpan k.text.toList (start + header.utf8ByteSize)
      parent := some parent, owner := some symbol }
  return ({ symbol, body }, k)

def extend (k : Sketch) (type : SymbolId) (base : TypeRef) : Sketch :=
  k.reviseType type (·.extending base)

def implement (k : Sketch) (type : SymbolId) (interface : TypeRef) : Sketch :=
  k.reviseType type (·.implementing interface)

def constrain (k : Sketch) (param : SymbolId) (bound : TypeRef) : Sketch :=
  match k.store.typeParams[param]? with
  | some p => { k with store := k.store.insertTypeParam (p.constrainedBy bound) }
  | none => k

/-! ### Functions -/

/-- Declares a function by its header; `complete` adds what is special to its kind.  Its body
runs from its parameter list to its end. -/
def declareFunction (k : Sketch) (parent : ScopeId) (header : String) (kind : SymbolKind)
    (bodyKind : ScopeKind) (complete : Header → Symbol → Symbol) : Outcome (Declared × Sketch) := do
  let start ← k.locate parent header
  let parsed := Header.ofChars header.toList
  let (symbol, k) := k.addSymbol fun id =>
    complete parsed <| Symbol.withModifiers
      { id, kind, name := parsed.name, scope := parent, span := some (parsed.nameSpan start)
        arity := parsed.typeParams.length.toUInt32 }
      parsed.modifiers
  let k := { k with store := k.store.insertSignature { id := symbol } }
  let text := k.text.toList
  let nameEnd := start + parsed.nameOffset + parsed.name.utf8ByteSize
  match find ['('] (dropBytes nameEnd text) with
  | none => .error (.noParameters header)
  | some n =>
      let opening := nameEnd + n
      let (body, k) := k.addScope fun id =>
        { id, kind := bodyKind, span := .between opening (functionEnd text opening)
          parent := some parent, owner := some symbol
          isStatic := parsed.modifiers.contains .static }
      let (typeParams, k) := k.addTypeParams symbol body parsed.typeParams
      return ({ symbol, body, typeParams }, k)

/-- Declares a method of a type by its header.  A method of an interface is public unless the
header says otherwise, and any other is private. -/
def declareMethod (k : Sketch) (type : Declared) (header : String) :
    Outcome (Declared × Sketch) :=
  let inInterface := k.store.types[type.symbol]?.any fun d => d.kind == .interfaceType
  k.declareFunction type.body header .method .method fun parsed symbol =>
    { symbol with
      container := some type.symbol
      access := parsed.access.getD (if inInterface then .everywhere else .container) }

def declareLocalFunction (k : Sketch) (parent : ScopeId) (header : String) :
    Outcome (Declared × Sketch) :=
  k.declareFunction parent header .localFunction .localFunction fun _ symbol => symbol

/-- Declares a parameter of a method, after the ones it has. -/
def declareParameter (k : Sketch) (method : Declared) (param : Parameter) :
    Outcome (SymbolId × Sketch) := do
  let start ← k.locateWord method.body param.name
  let (id, k) := k.addSymbol fun id =>
    { id, kind := .parameter, name := param.name, scope := method.body
      span := some (nameAt param.name start), type := some param.type }
  let signature := (k.store.signatures[method.symbol]?).getD { id := method.symbol }
  let signature := { signature with params := signature.params ++ [param] }
  return (id, { k with store := k.store.insertSignature signature })

def addModifier (k : Sketch) (symbol : SymbolId) (modifier : Modifier) : Sketch :=
  k.reviseSymbol symbol (·.withModifier modifier)

/-- Declares the parameter that takes the receiver, which makes a method an extension. -/
def declareReceiver (k : Sketch) (method : Declared) (name : String) (type : TypeRef) :
    Outcome (SymbolId × Sketch) := do
  let (id, k) ← k.declareParameter method { name, type, kind := .receiver }
  return (id, k.addModifier method.symbol .extension)

/-- States the type of a method's result. -/
def returning (k : Sketch) (method : SymbolId) (type : TypeRef) : Sketch :=
  let k :=
    match k.store.signatures[method]? with
    | some g => { k with store := k.store.insertSignature { g with returns := some type } }
    | none => k
  k.reviseSymbol method fun symbol => { symbol with type := some type }

/-! ### Variables, members and names -/

def declareLocal (k : Sketch) (scope : ScopeId) (needle name : String) (type : TypeRef) :
    Outcome (SymbolId × Sketch) := do
  let start ← k.locateName scope needle name
  let isConst := (words needle.toList).contains "const".toList
  return k.addSymbol fun id =>
    { id, kind := .localVariable, name, scope, span := some (nameAt name start)
      modifiers := if isConst then [.const] else [], type := some type }

/-- Declares a field or a property of a type by words that contain its name.  It is private unless
the words before the name say otherwise. -/
def declareMember (k : Sketch) (owner : Declared) (kind : SymbolKind) (needle name : String)
    (type : TypeRef) : Outcome (SymbolId × Sketch) := do
  let start ← k.locate owner.body needle
  let offset ← wordIn needle.toList name
  let parsed := Header.ofChars (takeBytes offset needle.toList ++ ' ' :: name.toList)
  return k.addSymbol fun id =>
    Symbol.withModifiers
      { id, kind, name, scope := owner.body, span := some (nameAt name (start + offset))
        container := some owner.symbol, access := parsed.access.getD .container, type := some type }
      parsed.modifiers

def declareLabel (k : Sketch) (scope : ScopeId) (needle name : String) :
    Outcome (SymbolId × Sketch) := do
  let start ← k.locateName scope needle name
  return k.addSymbol fun id =>
    { id, kind := .label, name, scope, span := some (nameAt name start) }

def declareAlias (k : Sketch) (scope : ScopeId) (name : String) (target : TypeRef) :
    SymbolId × Sketch :=
  k.addSymbol fun id => { id, kind := .aliasName, name, scope, type := some target }

def addImport (k : Sketch) (scope : ScopeId) (space : SymbolId) : Sketch :=
  match k.store.scopes[scope]? with
  | some s => { k with store := k.store.insertScope (s.importing space) }
  | none => k

/-! ### Scopes -/

def declareScope (k : Sketch) (parent : ScopeId) (kind : ScopeKind) (needle : String)
    (isStatic : Bool := false) : Outcome (ScopeId × Sketch) := do
  let start ← k.locate parent needle
  return k.addScope fun id =>
    { id, kind, span := nameAt needle start, parent := some parent, isStatic }

/-- Declares a block over the braces after the place of words. -/
def declareBlock (k : Sketch) (parent : ScopeId) (needle : String) :
    Outcome (ScopeId × Sketch) := do
  let start ← k.locate parent needle
  return k.addScope fun id =>
    { id, kind := .block, span := bodySpan k.text.toList start, parent := some parent }

/-- Declares the scope of the statements outside of every type, with its parameter for the
arguments of the program.  Without such statements there is none. -/
def declareTopLevel (k : Sketch) (argsType : TypeRef) : Option (ScopeId × SymbolId) × Sketch :=
  match firstStatement? k.text.toList with
  | none => (none, k)
  | some start =>
      let (scope, k) := k.addScope fun id =>
        { id, kind := .topLevel, span := .between start (k.text.utf8ByteSize + 1)
          parent := some k.outermost }
      let (args, k) := k.addSymbol fun id =>
        { id, kind := .parameter, name := "args", scope, type := some argsType }
      (some (scope, args), k)

/-- Declares the prelude and imports it everywhere, unless that is done. -/
def withPrelude (k : Sketch) : Prelude × Sketch :=
  match k.prelude with
  | some p => (p, k)
  | none =>
      let (p, store) := Prelude.declare k.outermost k.store
      (p, ({ k with store, prelude := some p }).addImport k.outermost p.system)

end Sketch

end Ambit
