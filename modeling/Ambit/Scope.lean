/-
Scopes: the nested regions of a program.

A scope has a kind and a span in the text, and may have a parent, an owner — the symbol whose body
it is —, imported namespaces, and a mark that it is static.  Scopes that come from metadata have no
place in the text and hold no position.

Main definitions:

* `Ambit.ScopeKind` — what a scope is the body of;
* `Ambit.Scope` — a scope;
* `Ambit.Scope.holds` — whether a position lies in a scope.
-/

import Ambit.Id
import Ambit.Spelled
import Ambit.Text.Span

set_option relaxedAutoImplicit false
set_option autoImplicit false

namespace Ambit

open Ambit.Text (Span)

/-- What a scope is the body of. -/
inductive ScopeKind where
  | nameSpace
  | type
  | topLevel
  | method
  | localFunction
  | lambda
  | block
  | switchArm
  | query
  | nameOf
  | attributeArgument
deriving DecidableEq, Repr

namespace ScopeKind

instance : Spelled ScopeKind where
  members := [nameSpace, type, topLevel, method, localFunction, lambda, block, switchArm, query,
    nameOf, attributeArgument]
  spell
    | nameSpace => "namespace"
    | type => "type"
    | topLevel => "top_level"
    | method => "method"
    | localFunction => "local_function"
    | lambda => "lambda"
    | block => "block"
    | switchArm => "switch_arm"
    | query => "query"
    | nameOf => "nameof"
    | attributeArgument => "attribute_argument"
  find_spell a := by cases a <;> rfl

instance : Inhabited ScopeKind := ⟨nameSpace⟩

def isFunctionLike : ScopeKind → Bool
  | method | localFunction | lambda | topLevel => true
  | _ => false

def isLocalSpace : ScopeKind → Bool
  | block | switchArm | query => true
  | kind => kind.isFunctionLike

end ScopeKind

/-- A nested region of a program. -/
structure Scope where
  id : ScopeId
  kind : ScopeKind
  span : Span
  parent : Option ScopeId := none
  /-- The symbol whose body it is. -/
  owner : Option SymbolId := none
  /-- It comes from outside the text. -/
  fromMetadata : Bool := false
  /-- The namespaces it imports. -/
  imports : List SymbolId := []
  isStatic : Bool := false
deriving DecidableEq, Repr

namespace Scope

/-- A scope that comes from metadata. -/
def ofMetadata (id : ScopeId) (kind : ScopeKind) : Scope :=
  { id, kind, span := ⟨0, 0⟩, fromMetadata := true }

def importing (s : Scope) (space : SymbolId) : Scope := { s with imports := s.imports ++ [space] }

/-- Whether a position lies in the scope. -/
def holds (s : Scope) (position : UInt64) : Bool :=
  !s.fromMetadata && decide (s.span.Holds position)

end Scope

end Ambit
