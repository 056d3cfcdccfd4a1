/-
Faults: the causes for which a question about a program has no answer.

A question can be stopped while it is being answered; the facts that it reads can contradict each
other, which is a breach of what every program satisfies; and an archive of facts can be missing,
be no archive at all, or be written in a version that is not understood.

Main definitions:

* `Ambit.Breach` — the ways in which facts contradict each other, and their messages;
* `Ambit.Fault` — **the causes of failure**, and their messages;
* `Ambit.Answer` — an answer, or the fault that prevented it;
* `Ambit.Signal` — the wish of the one who asked that the work be stopped.
-/

import Ambit.Id
import Ambit.Text.Span

set_option relaxedAutoImplicit false
set_option autoImplicit false

namespace Ambit

open Ambit.Text (Span)

/-- The ways in which the facts about a program contradict each other. -/
inductive Breach where
  /-- A scope that lies in itself. -/
  | scopeCycle (scope : ScopeId)
  /-- A scope whose surroundings lead to a scope that is not there. -/
  | missingScope (scope : ScopeId)
  /-- A scope in a parent that is not there. -/
  | missingParent (scope parent : ScopeId)
  /-- A scope that leaves its parent. -/
  | escapingScope (scope : ScopeId) (span : Span) (parent : ScopeId) (parentSpan : Span)
  /-- A symbol in a scope that is not there. -/
  | strayedSymbol (name : String) (symbol : SymbolId) (scope : ScopeId)
  /-- A type declaration for something that is not a type. -/
  | typeWithoutSymbol (symbol : SymbolId)
  /-- A type parameter of something that is not there. -/
  | missingOwner (param owner : SymbolId)
  /-- A type that inherits from itself. -/
  | inheritanceCycle (name : String) (definition : SymbolId)
  /-- A class that is among its own base classes. -/
  | baseCycle (definition : SymbolId)
  /-- A scope that lists a symbol that is not there. -/
  | missingListed (symbol : SymbolId)
  /-- A call that is taken over by a method that is not there. -/
  | missingInterceptor (position : UInt64) (interceptor : SymbolId)
deriving DecidableEq, Repr

/-- What is wrong. -/
def Breach.message : Breach → String
  | scopeCycle s => s!"scope cycle detected at {s.render}"
  | missingScope s => s!"scope chain references missing {s.render}"
  | missingParent s p => s!"{s.render} has missing parent {p.render}"
  | escapingScope s span p around =>
      s!"{s.render} span {span.render} escapes parent {p.render} span {around.render}"
  | strayedSymbol name id scope =>
      s!"symbol '{name}' ({id.render}) declared in missing {scope.render}"
  | typeWithoutSymbol id => s!"type declaration for {id.render} has no type symbol"
  | missingOwner p owner => s!"type parameter {p.render} owned by missing {owner.render}"
  | inheritanceCycle name d => s!"inheritance cycle through '{name}' ({d.render})"
  | baseCycle d => s!"inheritance cycle in base chain at {d.render}"
  | missingListed id => s!"scope lists missing symbol {id.render}"
  | missingInterceptor position id => s!"interception at {position} names missing {id.render}"

/-- The causes for which there is no answer. -/
inductive Fault where
  /-- The work was stopped. -/
  | cancelled
  /-- The facts contradict each other. -/
  | breach (breach : Breach)
  /-- The archive is written in another version. -/
  | wrongVersion (found expected : UInt32)
  /-- The text is not an archive. -/
  | malformed
  /-- There is no text to read. -/
  | unavailable
deriving DecidableEq, Repr

/-- What went wrong. -/
def Fault.message : Fault → String
  | cancelled => "operation cancelled"
  | breach b => s!"internal error: {b.message}"
  | wrongVersion found expected =>
      s!"invalid snapshot: schema version {found}, expected {expected}"
  | malformed => "JSON error"
  | unavailable => "IO error"

/-- An answer, or the fault that prevented it. -/
abbrev Answer (α : Type) := Except Fault α

/-- The wish of the one who asked that the work be stopped. -/
inductive Signal where
  | quiet
  | stop
deriving DecidableEq, Repr

/-- Goes on unless the work is to be stopped. -/
def Signal.check : Signal → Answer Unit
  | quiet => .ok ()
  | stop => .error .cancelled

/-- Goes on with a sequence of steps unless the work is to be stopped; without steps there is
nothing to stop. -/
def Signal.during {α : Type} (signal : Signal) (steps : List α) : Answer Unit :=
  if steps.isEmpty then .ok () else signal.check

end Ambit
