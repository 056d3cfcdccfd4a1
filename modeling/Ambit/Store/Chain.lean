/-
Walks through the nesting of scopes.

From a scope the parents lead outwards to a scope without one, and the children lead inwards.  The
parents need not lead anywhere: a store may name scopes that are not there, or scopes that lie in
each other.  Every walk therefore remembers the scopes that it has met and takes at most one step
for each scope of the store.

Main definitions:

* `Ambit.Store.ancestors` — **the scopes around a scope**, from itself outwards;
* `Ambit.Store.descendants` — the scopes inside a scope, each before the ones inside it;
* `Ambit.Store.innermost?` — the innermost scope at a position.
-/

import Ambit.Fault
import Ambit.Store

set_option relaxedAutoImplicit false
set_option autoImplicit false

namespace Ambit.Store

/-- The scopes from `id` outwards, when `seen` are the ones met before. -/
def outwards (s : Store) : Nat → List ScopeId → ScopeId → Answer (List ScopeId)
  | 0, _, id => .error (.breach (.scopeCycle id))
  | fuel + 1, seen, id =>
      if seen.contains id then .error (.breach (.scopeCycle id))
      else
        match s.scopes[id]? with
        | none => .error (.breach (.missingScope id))
        | some scope =>
            match scope.parent with
            | none => .ok [id]
            | some parent => (s.outwards fuel (id :: seen) parent).map (id :: ·)

/-- **The scopes around a scope**, from itself to the outermost.  Outside every scope there are
none. -/
def ancestors (s : Store) (id : ScopeId) : Answer (List ScopeId) :=
  if id = .outside then .ok [] else s.outwards (s.scopes.size + 1) [] id

/-- Goes through a scope and the ones inside it, after the ones met before. -/
def inwards (s : Store) : Nat → List ScopeId → ScopeId → List ScopeId
  | 0, seen, _ => seen
  | fuel + 1, seen, id =>
      if seen.contains id then seen
      else ((s.childScopes id).map Scope.id).foldl (s.inwards fuel) (seen ++ [id])

/-- The scopes inside a scope, each before the ones inside it, in the order of their numbers. -/
def descendants (s : Store) (id : ScopeId) : List ScopeId :=
  ((s.childScopes id).map Scope.id).foldl (s.inwards (s.scopes.size + 1)) []

/-- The number of parents above a place, counting at most one more than the steps allowed. -/
def parentsAbove (s : Store) : Nat → Option ScopeId → Nat
  | _, none => 0
  | 0, some _ => 1
  | fuel + 1, some id => s.parentsAbove fuel (s.scopes[id]?.bind Scope.parent) + 1

/-- How deep a scope lies; a scope that lies in itself is deeper than every scope that does not. -/
def depth (s : Store) (id : ScopeId) : Nat :=
  s.parentsAbove s.scopes.size (s.scopes[id]?.bind Scope.parent)

/-- The innermost scope at a position: the shortest that holds it, of several the deepest, and of
several such the one with the least number. -/
def innermost? (s : Store) (position : UInt64) : Option Scope :=
  let holding := s.scopes.values.filter fun scope => scope.holds position
  (holding.minOn? fun scope => scope.span.length).bind fun shortest =>
    (holding.filter fun scope => scope.span.length == shortest.span.length).maxOn?
      fun scope => s.depth scope.id

end Ambit.Store
