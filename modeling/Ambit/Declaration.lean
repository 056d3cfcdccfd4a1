/-
What is declared about types, type parameters and methods.

Beside the symbols themselves a program states facts about them: the kind, base and interfaces of a
type; the owner, place and constraints of a type parameter; the parameters and the result of a
method; which method stands in for the calls at a place in the text; and which symbols are the
types that the language itself refers to.

Main definitions:

* `Ambit.TypeKind`, `Ambit.TypeDecl` — a type;
* `Ambit.TypeParam` — a type parameter;
* `Ambit.ParamKind`, `Ambit.Parameter`, `Ambit.Signature` — a method;
* `Ambit.Interception` — a method standing in for a call;
* `Ambit.WellKnown` — the types the language refers to.
-/

import Ambit.Spelled
import Ambit.Text.Span
import Ambit.TypeRef

set_option relaxedAutoImplicit false
set_option autoImplicit false

namespace Ambit

open Ambit.Text (Span)

/-! ### Types -/

/-- The kinds of types. -/
inductive TypeKind where
  | classType
  | structType
  | interfaceType
  | recordType
  | recordStruct
  | enumType
  | delegateType
deriving DecidableEq, Repr

namespace TypeKind

instance : Spelled TypeKind where
  members := [classType, structType, interfaceType, recordType, recordStruct, enumType,
    delegateType]
  spell
    | classType => "class"
    | structType => "struct"
    | interfaceType => "interface"
    | recordType => "record"
    | recordStruct => "record_struct"
    | enumType => "enum"
    | delegateType => "delegate"
  find_spell a := by cases a <;> rfl

instance : Inhabited TypeKind := ⟨classType⟩

def isValueType : TypeKind → Bool
  | structType | recordStruct | enumType => true
  | _ => false

end TypeKind

/-- What is declared about a type. -/
structure TypeDecl where
  id : SymbolId
  kind : TypeKind
  base : Option TypeRef := none
  interfaces : List TypeRef := []
  /-- Its values may live only on the stack. -/
  isRefLike : Bool := false
deriving DecidableEq, Repr

namespace TypeDecl

/-- The declaration with a base. -/
def extending (d : TypeDecl) (base : TypeRef) : TypeDecl := { d with base := some base }

def implementing (d : TypeDecl) (interface : TypeRef) : TypeDecl :=
  { d with interfaces := d.interfaces ++ [interface] }

end TypeDecl

/-- What is declared about a type parameter. -/
structure TypeParam where
  id : SymbolId
  /-- The type or method that it belongs to. -/
  owner : SymbolId
  /-- Its place among the parameters of its owner. -/
  ordinal : UInt32
  constraints : List TypeRef := []
  /-- Its arguments have to be reference types. -/
  referenceType : Bool := false
  /-- Its arguments have to be value types. -/
  valueType : Bool := false
deriving DecidableEq, Repr

/-- The type parameter with one more constraint. -/
def TypeParam.constrainedBy (p : TypeParam) (bound : TypeRef) : TypeParam :=
  { p with constraints := p.constraints ++ [bound] }

/-! ### Methods -/

/-- How an argument is passed. -/
inductive ParamKind where
  | regular
  | byRef
  | byOut
  | byIn
  | rest
  | receiver
deriving DecidableEq, Repr

namespace ParamKind

instance : Spelled ParamKind where
  members := [regular, byRef, byOut, byIn, rest, receiver]
  spell
    | regular => "regular"
    | byRef => "ref"
    | byOut => "out"
    | byIn => "in"
    | rest => "params"
    | receiver => "this"
  find_spell a := by cases a <;> rfl

instance : Inhabited ParamKind := ⟨regular⟩

end ParamKind

/-- A parameter of a method. -/
structure Parameter where
  name : String
  type : TypeRef
  kind : ParamKind := .regular
  hasDefault : Bool := false
deriving DecidableEq, Repr

/-- What is declared about a method. -/
structure Signature where
  id : SymbolId
  params : List Parameter := []
  /-- The type of its result; none for a method without one. -/
  returns : Option TypeRef := none
deriving DecidableEq, Repr

namespace Signature

/-- The parameter that takes the receiver of an extension method. -/
def receiver? (s : Signature) : Option Parameter :=
  s.params.head?.filter fun p => p.kind == .receiver

def arityWithoutReceiver (s : Signature) : Nat :=
  if s.receiver?.isSome then s.params.length - 1 else s.params.length

end Signature

/-! ### Interceptions and well-known types -/

/-- A method that stands in for the calls at a place of the text. -/
structure Interception where
  interceptor : SymbolId
  target : Span
deriving DecidableEq, Repr

/-- The types that the language itself refers to. -/
inductive WellKnown where
  | object
  | valueType
  | enum
  | nullable
  | disposable
  | asyncDisposable
  | task
  | valueTask
deriving DecidableEq, Repr

namespace WellKnown

instance : Spelled WellKnown where
  members := [object, valueType, enum, nullable, disposable, asyncDisposable, task, valueTask]
  spell
    | object => "object"
    | valueType => "value_type"
    | enum => "enum"
    | nullable => "nullable"
    | disposable => "disposable"
    | asyncDisposable => "async_disposable"
    | task => "task"
    | valueTask => "value_task"
  find_spell a := by cases a <;> rfl

/-- The place of a well-known type in the order in which they are listed. -/
def rank : WellKnown → Nat
  | object => 0
  | valueType => 1
  | enum => 2
  | nullable => 3
  | disposable => 4
  | asyncDisposable => 5
  | task => 6
  | valueTask => 7

theorem rank_injective {a b : WellKnown} (h : rank a = rank b) : a = b := by
  cases a <;> cases b <;> simp_all [rank]

instance : Ord WellKnown := ⟨compareOn rank⟩

instance : Std.TransOrd WellKnown := inferInstanceAs (Std.TransCmp (compareOn rank))

instance : Std.LawfulEqOrd WellKnown where
  eq_of_compare h := rank_injective (Std.LawfulEqOrd.eq_of_compare h)

end WellKnown

end Ambit
