/-
Symbols: the named things that a program declares.

A symbol has a kind, a name and the scope it is declared in, and may carry where its name stands,
the symbol that contains it, how far it can be named, its modifiers, its number of type parameters,
its type, and the interface member that it implements explicitly.  Symbols that come from outside
the text, from the metadata of another program, have no place in the text.

Main definitions:

* `Ambit.SymbolKind`, `Ambit.Accessibility`, `Ambit.Modifier` — what a symbol is, how far it can be
  named, and the words that qualify it;
* `Ambit.Symbol` — a symbol;
* `Ambit.Symbol.isStatic`, `Ambit.Symbol.isInstanceMember`, `Ambit.Symbol.isConstant` — whether a
  symbol belongs to a type or to its instances, and whether its value is fixed;
* `Ambit.Symbol.isDeclaredBefore` — whether a symbol is declared before a position.
-/

import Ambit.Spelled
import Ambit.Text.Span
import Ambit.TypeRef

set_option relaxedAutoImplicit false
set_option autoImplicit false

namespace Ambit

open Ambit.Text (Span)

/-! ### Kinds -/

/-- What a symbol is. -/
inductive SymbolKind where
  | localVariable
  | parameter
  | rangeVariable
  | patternVariable
  | label
  | field
  | property
  | event
  | method
  | localFunction
  | type
  | typeParameter
  | nameSpace
  | aliasName
  | enumMember
deriving DecidableEq, Repr

namespace SymbolKind

instance : Spelled SymbolKind where
  members := [localVariable, parameter, rangeVariable, patternVariable, label, field, property,
    event, method, localFunction, type, typeParameter, nameSpace, aliasName, enumMember]
  spell
    | localVariable => "local"
    | parameter => "parameter"
    | rangeVariable => "range_variable"
    | patternVariable => "pattern_variable"
    | label => "label"
    | field => "field"
    | property => "property"
    | event => "event"
    | method => "method"
    | localFunction => "local_function"
    | type => "type"
    | typeParameter => "type_parameter"
    | nameSpace => "namespace"
    | aliasName => "alias"
    | enumMember => "enum_member"
  find_spell a := by cases a <;> rfl

instance : Inhabited SymbolKind := ⟨localVariable⟩

/-- Whether symbols of this kind can be used only after their declaration. -/
def isTextuallyScoped : SymbolKind → Bool
  | localVariable | rangeVariable | patternVariable => true
  | _ => false

/-- Whether symbols of this kind can be used throughout their scope. -/
def isScopeWide : SymbolKind → Bool
  | localFunction | label => true
  | _ => false

def isMember : SymbolKind → Bool
  | field | property | event | method | enumMember | type => true
  | _ => false

def isTypeOrNamespace : SymbolKind → Bool
  | type | typeParameter | nameSpace => true
  | _ => false

/-- Whether symbols of this kind are captured when a function inside their scope uses them. -/
def isCapturable : SymbolKind → Bool
  | localVariable | parameter | rangeVariable | patternVariable => true
  | _ => false

end SymbolKind

/-- How far a symbol can be named. -/
inductive Accessibility where
  | everywhere
  | assembly
  | derived
  | assemblyOrDerived
  | assemblyAndDerived
  | container
deriving DecidableEq, Repr

namespace Accessibility

instance : Spelled Accessibility where
  members := [everywhere, assembly, derived, assemblyOrDerived, assemblyAndDerived, container]
  spell
    | everywhere => "public"
    | assembly => "internal"
    | derived => "protected"
    | assemblyOrDerived => "protected_internal"
    | assemblyAndDerived => "private_protected"
    | container => "private"
  find_spell a := by cases a <;> rfl

instance : Inhabited Accessibility := ⟨everywhere⟩

end Accessibility

/-- The words that qualify a declaration. -/
inductive Modifier where
  | static
  | sealed
  | abstract
  | virtual
  | override
  | const
  | readonly
  | external
  | async
  | fragment
  | obsolete
  | extension
deriving DecidableEq, Repr

namespace Modifier

instance : Spelled Modifier where
  members := [static, sealed, abstract, virtual, override, const, readonly, external, async,
    fragment, obsolete, extension]
  spell
    | static => "static"
    | sealed => "sealed"
    | abstract => "abstract"
    | virtual => "virtual"
    | override => "override"
    | const => "const"
    | readonly => "readonly"
    | external => "extern"
    | async => "async"
    | fragment => "partial"
    | obsolete => "obsolete"
    | extension => "extension"
  find_spell a := by cases a <;> rfl

end Modifier

/-! ### Symbols -/

/-- A named thing that a program declares. -/
structure Symbol where
  id : SymbolId
  kind : SymbolKind
  name : String
  /-- The scope it is declared in. -/
  scope : ScopeId
  /-- Where its name stands in the text. -/
  span : Option Span := none
  /-- The symbol that contains it. -/
  container : Option SymbolId := none
  access : Accessibility := .everywhere
  modifiers : List Modifier := []
  /-- The number of its type parameters. -/
  arity : UInt32 := 0
  type : Option TypeRef := none
  /-- It comes from outside the text. -/
  fromMetadata : Bool := false
  /-- The interface member that it implements explicitly. -/
  implementsExplicitly : Option SymbolId := none
deriving DecidableEq, Repr

namespace Symbol

/-- Whether the symbol carries a modifier. -/
def has (s : Symbol) (m : Modifier) : Bool := s.modifiers.contains m

/-- The symbol with one more modifier, which it carries once. -/
def withModifier (s : Symbol) (m : Modifier) : Symbol :=
  if s.has m then s else { s with modifiers := s.modifiers ++ [m] }

/-- The symbol with some more modifiers, each of which it carries once. -/
def withModifiers (s : Symbol) (ms : List Modifier) : Symbol := ms.foldl withModifier s

/-- Whether the symbol belongs to its type and not to an instance. -/
def isStatic (s : Symbol) : Bool :=
  s.has .static || s.has .const || s.kind == .enumMember || s.kind == .type

/-- Whether the symbol is a member that belongs to an instance. -/
def isInstanceMember (s : Symbol) : Bool := s.kind.isMember && !s.isStatic

/-- Whether the symbol is a constant. -/
def isConstant (s : Symbol) : Bool := s.kind == .enumMember || s.has .const

def isObsolete (s : Symbol) : Bool := s.has .obsolete

def isExplicit (s : Symbol) : Bool := s.implementsExplicitly.isSome

/-- Whether the symbol is declared before a position; one without a place is. -/
def isDeclaredBefore (s : Symbol) (position : UInt64) : Bool :=
  match s.span with
  | some span => decide (span.start < position)
  | none => true

end Symbol

end Ambit
