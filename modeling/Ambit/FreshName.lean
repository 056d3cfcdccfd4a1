/-
Fresh names for new declarations.

A fresh name is made from a base: the base is first turned into an identifier, and then avoids the
names of all symbols that it would compete with.  Where the name is a reserved word, its text in a
program carries a mark.

Main definitions:

* `Ambit.FreshName` — a name, and its text in a program;
* `Ambit.Store.freshLocal`, `Ambit.Store.freshLocals` — **names for new variables**;
* `Ambit.Store.freshName` — a name that avoids the symbols of one's choice.
-/

import Ambit.Identifier
import Ambit.Rivals

set_option relaxedAutoImplicit false
set_option autoImplicit false

namespace Ambit

/-- A fresh name. -/
structure FreshName where
  name : String
  /-- The name as it is written in a program. -/
  text : String
deriving DecidableEq, Repr

namespace NameSupply

/-- A fresh name from a base, and the supply in which it is taken. -/
def mint (supply : NameSupply) (base : String) : FreshName × NameSupply :=
  let (name, supply) := supply.draw (Identifier.ofBase base)
  (⟨name, Identifier.spelling name⟩, supply)

/-- Fresh names from bases, each different from the ones before. -/
def mintAll : NameSupply → List String → List FreshName
  | _, [] => []
  | supply, base :: bases =>
      let (name, supply) := supply.mint base
      name :: mintAll supply bases

end NameSupply

namespace Store

/-- A supply that avoids the rivals of a new name that satisfy a condition. -/
def supplyAt (s : Store) (signal : Signal) (options : Options) (position : UInt64)
    (container : Option ScopeId) (admits : Symbol → Bool) : Answer NameSupply := do
  let rivals ← s.rivals signal options position container
  return .ofNames options.caseSensitive ((rivals.filter admits).map Symbol.name)

/-- **A name for a new variable** that also avoids some given names. -/
def freshLocal (s : Store) (signal : Signal) (options : Options) (position : UInt64)
    (base : String) (used : List String) : Answer FreshName := do
  let supply ← s.supplyAt signal options position none Symbol.rivalsLocal
  return ((used.foldl NameSupply.take supply).mint base).1

/-- **Names for new variables**, each different from the ones before. -/
def freshLocals (s : Store) (signal : Signal) (options : Options) (position : UInt64)
    (bases : List String) : Answer (List FreshName) := do
  let supply ← s.supplyAt signal options position none Symbol.rivalsLocal
  signal.during bases
  return supply.mintAll bases

/-- A name for a new declaration in a container that avoids the symbols of one's choice. -/
def freshName (s : Store) (signal : Signal) (options : Options) (position : UInt64)
    (container : Option ScopeId) (base : String) (admits : Symbol → Bool) : Answer FreshName := do
  return ((← s.supplyAt signal options position container admits).mint base).1

end Store

end Ambit
