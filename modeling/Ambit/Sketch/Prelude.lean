/-
The prelude of sketches: a small library that programs refer to.

The prelude is a namespace with the types that the language refers to, some plain types and two
generic collections, with a few members each.  Its symbols come from metadata and have no place in
the text.

Main definitions:

* `Ambit.Sketch.Prelude` — the symbols of the prelude;
* `Ambit.Sketch.Prelude.declare` — **declares the prelude** in a store.
-/

import Ambit.Store

set_option relaxedAutoImplicit false
set_option autoImplicit false

namespace Ambit.Sketch

/-- The symbols of the prelude. -/
structure Prelude where
  system : SymbolId
  object : SymbolId
  valueType : SymbolId
  enumType : SymbolId
  nullable : SymbolId
  nullableParam : SymbolId
  boolean : SymbolId
  int32 : SymbolId
  string : SymbolId
  disposable : SymbolId
  asyncDisposable : SymbolId
  task : SymbolId
  valueTask : SymbolId
  console : SymbolId
  list : SymbolId
  listParam : SymbolId
  hashSet : SymbolId
  hashSetParam : SymbolId
  objectToString : SymbolId
  objectEquals : SymbolId
  objectGetHashCode : SymbolId
  objectReferenceEquals : SymbolId
  nullableValue : SymbolId
  nullableHasValue : SymbolId
  nullableGetValueOrDefault : SymbolId
  int32CompareTo : SymbolId
  int32MaxValue : SymbolId
  stringLength : SymbolId
  disposableDispose : SymbolId
  asyncDisposableDisposeAsync : SymbolId
  consoleWriteLine : SymbolId
  listAdd : SymbolId
  listCount : SymbolId
  hashSetAdd : SymbolId
deriving DecidableEq, Repr

namespace Prelude

/-- All symbols of the prelude. -/
def symbols (p : Prelude) : List SymbolId :=
  [p.system, p.object, p.valueType, p.enumType, p.nullable, p.nullableParam, p.boolean, p.int32,
    p.string, p.disposable, p.asyncDisposable, p.task, p.valueTask, p.console, p.list, p.listParam,
    p.hashSet, p.hashSetParam, p.objectToString, p.objectEquals, p.objectGetHashCode,
    p.objectReferenceEquals, p.nullableValue, p.nullableHasValue, p.nullableGetValueOrDefault,
    p.int32CompareTo, p.int32MaxValue, p.stringLength, p.disposableDispose,
    p.asyncDisposableDisposeAsync, p.consoleWriteLine, p.listAdd, p.listCount, p.hashSetAdd]

/-- A type of the prelude, with its body and its type parameters. -/
structure Declared where
  id : SymbolId
  body : ScopeId
  params : List SymbolId

def nameSpace (name : String) (parent : ScopeId) : StateM Store (SymbolId × ScopeId) := fun s =>
  let (id, s) := s.addSymbol fun id =>
    { id, kind := .nameSpace, name, scope := parent, fromMetadata := true }
  let (body, s) := s.addScope fun scope =>
    { Scope.ofMetadata scope .nameSpace with parent := some parent, owner := some id }
  ((id, body), s)

/-- Declares a type. -/
def type (scope : ScopeId) (name : String) (kind : TypeKind) (modifiers : List Modifier)
    (params : List String) : StateM Store Declared := fun s =>
  let (id, s) := s.addSymbol fun id =>
    { id, kind := .type, name, scope, modifiers, arity := params.length.toUInt32,
      fromMetadata := true }
  let s := s.insertType { id, kind }
  let (body, s) := s.addScope fun body =>
    { Scope.ofMetadata body .type with parent := some scope, owner := some id }
  let (params, s) := s.addTypeParams id body true 0 params
  (⟨id, body, params⟩, s)

/-- Declares a field or a property. -/
def member (owner : Declared) (kind : SymbolKind) (name : String) (type : TypeRef)
    (modifiers : List Modifier) : StateM Store SymbolId := fun s =>
  s.addSymbol fun id =>
    { id, kind, name, scope := owner.body, container := some owner.id, modifiers, type := some type,
      fromMetadata := true }

def method (owner : Declared) (name : String) (params : List Parameter) (returns : Option TypeRef)
    (modifiers : List Modifier) : StateM Store SymbolId := fun s =>
  let (id, s) := s.addSymbol fun id =>
    { id, kind := .method, name, scope := owner.body, container := some owner.id, modifiers,
      type := returns, fromMetadata := true }
  (id, s.insertSignature { id, params, returns })

/-- **Declares the prelude** in a store, inside a scope. -/
def declare (around : ScopeId) : StateM Store Prelude := do
  let (system, scope) ← nameSpace "System" around
  let object ← type scope "Object" .classType [] []
  let valueType ← type scope "ValueType" .classType [.abstract] []
  let enumType ← type scope "Enum" .classType [.abstract] []
  modify fun s => s.insertType ⟨enumType.id, .classType, some (.plain valueType.id), [], false⟩
  let boolean ← type scope "Boolean" .structType [] []
  let int32 ← type scope "Int32" .structType [] []
  let string ← type scope "String" .classType [.sealed] []
  let nullable ← type scope "Nullable" .structType [] ["T"]
  let nullableParam := nullable.params.headD nullable.id
  modify fun s =>
    s.insertTypeParam { id := nullableParam, owner := nullable.id, ordinal := 0, valueType := true }
  let task ← type scope "Task" .classType [] []
  let valueTask ← type scope "ValueTask" .structType [] []
  let disposable ← type scope "IDisposable" .interfaceType [] []
  let asyncDisposable ← type scope "IAsyncDisposable" .interfaceType [] []
  let console ← type scope "Console" .classType [.static] []
  let list ← type scope "List" .classType [] ["T"]
  let listParam := list.params.headD list.id
  let hashSet ← type scope "HashSet" .classType [] ["T"]
  let hashSetParam := hashSet.params.headD hashSet.id
  let boolRef := TypeRef.plain boolean.id
  let intRef := TypeRef.plain int32.id
  let objectRef := TypeRef.plain object.id
  let stringRef := TypeRef.plain string.id
  let objectToString ← method object "ToString" [] stringRef [.virtual]
  let objectEquals ← method object "Equals" [{ name := "obj", type := objectRef }] boolRef
    [.virtual]
  let objectGetHashCode ← method object "GetHashCode" [] intRef [.virtual]
  let objectReferenceEquals ← method object "ReferenceEquals"
    [{ name := "objA", type := objectRef }, { name := "objB", type := objectRef }] boolRef [.static]
  let nullableValue ← member nullable .property "Value" (.param nullableParam) []
  let nullableHasValue ← member nullable .property "HasValue" boolRef []
  let nullableGetValueOrDefault ← method nullable "GetValueOrDefault" []
    (some (.param nullableParam)) []
  let int32CompareTo ← method int32 "CompareTo" [{ name := "value", type := intRef }] intRef []
  let int32MaxValue ← member int32 .field "MaxValue" intRef [.const]
  let stringLength ← member string .property "Length" intRef []
  let disposableDispose ← method disposable "Dispose" [] none [.abstract]
  let asyncDisposableDisposeAsync ← method asyncDisposable "DisposeAsync" []
    (some (.plain valueTask.id)) [.abstract]
  let consoleWriteLine ← method console "WriteLine" [{ name := "value", type := stringRef }] none
    [.static]
  let listAdd ← method list "Add" [{ name := "item", type := .param listParam }] none []
  let listCount ← member list .property "Count" intRef []
  let hashSetAdd ← method hashSet "Add" [{ name := "item", type := .param hashSetParam }] boolRef []
  modify fun s =>
    [(WellKnown.object, object.id), (.valueType, valueType.id), (.enum, enumType.id),
      (.nullable, nullable.id), (.disposable, disposable.id),
      (.asyncDisposable, asyncDisposable.id), (.task, task.id), (.valueTask, valueTask.id)].foldl
      (fun s (kind, id) => s.register kind id) s
  return {
    system, object := object.id, valueType := valueType.id, enumType := enumType.id
    nullable := nullable.id, nullableParam, boolean := boolean.id, int32 := int32.id
    string := string.id, disposable := disposable.id, asyncDisposable := asyncDisposable.id
    task := task.id, valueTask := valueTask.id, console := console.id, list := list.id, listParam
    hashSet := hashSet.id, hashSetParam, objectToString, objectEquals, objectGetHashCode
    objectReferenceEquals, nullableValue, nullableHasValue, nullableGetValueOrDefault
    int32CompareTo, int32MaxValue, stringLength, disposableDispose, asyncDisposableDisposeAsync
    consoleWriteLine, listAdd, listCount, hashSetAdd }

end Prelude

end Ambit.Sketch
