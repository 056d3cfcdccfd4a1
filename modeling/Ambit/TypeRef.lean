/-
References to types, and substitution for type parameters.

A type is a definition applied to arguments, a type parameter, a type marked as nullable, an array,
or a type that could not be resolved.  Definitions and parameters are named by their symbols.
A substitution gives types for finitely many parameters; it is applied to all parameters of a type
at once, and leaves the ones it does not bind.

Main definitions:

* `Ambit.TypeRef` — the types, with decidable equality;
* `Ambit.TypeRef.isUnresolved`, `Ambit.TypeRef.mentionsAny` — the two questions about the inside of
  a type;
* `Ambit.TypeRef.render` — the text of a type;
* `Ambit.Substitution`, `Ambit.TypeRef.substitute` — **substitution**.

Main results:

* `Ambit.TypeRef.induction` — induction on types, with one hypothesis for all arguments;
* `Ambit.TypeRef.substitute_eq_replace` — for the empty substitution a type need not be gone
  through;
* `Ambit.TypeRef.substitute_named`, `Ambit.TypeRef.substitute_param`, … — substitution in each kind
  of type.
-/

import Ambit.Id

set_option relaxedAutoImplicit false
set_option autoImplicit false

namespace Ambit

/-- A reference to a type. -/
inductive TypeRef where
  /-- A definition applied to type arguments. -/
  | named (definition : SymbolId) (args : List TypeRef)
  /-- A type parameter. -/
  | param (symbol : SymbolId)
  /-- A type marked as nullable. -/
  | nullable (inner : TypeRef)
  /-- An array of some rank. -/
  | array (element : TypeRef) (rank : UInt32)
  /-- A type that could not be resolved. -/
  | unresolved
deriving Repr

namespace TypeRef

/-- **Induction on types**: one hypothesis covers all arguments of a definition. -/
theorem induction {motive : TypeRef → Prop}
    (named : ∀ d args, (∀ t ∈ args, motive t) → motive (.named d args))
    (param : ∀ p, motive (.param p))
    (nullable : ∀ t, motive t → motive (.nullable t))
    (array : ∀ t r, motive t → motive (.array t r))
    (unresolved : motive .unresolved) (t : TypeRef) : motive t := by
  refine @TypeRef.rec motive (fun ts => ∀ t ∈ ts, motive t) named param nullable array unresolved
    ?_ ?_ t
  · intro t ht
    simp at ht
  · intro t ts ht hts u hu
    rcases List.mem_cons.1 hu with rfl | hu
    · exact ht
    · exact hts u hu

/-! ### Equality -/

mutual
def same : TypeRef → TypeRef → Bool
  | .named d args, .named e brgs => d == e && sameAll args brgs
  | .param p, .param q => p == q
  | .nullable t, .nullable u => same t u
  | .array t r, .array u s => same t u && r == s
  | .unresolved, .unresolved => true
  | _, _ => false
def sameAll : List TypeRef → List TypeRef → Bool
  | [], [] => true
  | t :: ts, u :: us => same t u && sameAll ts us
  | _, _ => false
end

mutual
theorem eq_of_same : ∀ {t u : TypeRef}, same t u = true → t = u
  | .named d args, .named e brgs, h => by
      simp only [same, Bool.and_eq_true, beq_iff_eq] at h
      rw [h.1, eq_of_sameAll h.2]
  | .param p, .param q, h => by
      simp only [same, beq_iff_eq] at h
      rw [h]
  | .nullable t, .nullable u, h => by
      simp only [same] at h
      rw [eq_of_same h]
  | .array t r, .array u s, h => by
      simp only [same, Bool.and_eq_true, beq_iff_eq] at h
      rw [eq_of_same h.1, h.2]
  | .unresolved, .unresolved, _ => rfl
theorem eq_of_sameAll : ∀ {ts us : List TypeRef}, sameAll ts us = true → ts = us
  | [], [], _ => rfl
  | t :: ts, u :: us, h => by
      simp only [sameAll, Bool.and_eq_true] at h
      rw [eq_of_same h.1, eq_of_sameAll h.2]
end

mutual
theorem same_self : ∀ t : TypeRef, same t t = true
  | .named d args => by simp [same, sameAll_self args]
  | .param p => by simp [same]
  | .nullable t => by simp [same, same_self t]
  | .array t r => by simp [same, same_self t]
  | .unresolved => by simp [same]
theorem sameAll_self : ∀ ts : List TypeRef, sameAll ts ts = true
  | [] => by simp [sameAll]
  | t :: ts => by simp [sameAll, same_self t, sameAll_self ts]
end

instance : DecidableEq TypeRef := fun t u =>
  if h : same t u = true then isTrue (eq_of_same h)
  else isFalse fun heq => h (heq ▸ same_self t)

/-! ### The parts of a type -/

def plain (definition : SymbolId) : TypeRef := .named definition []

def definition? : TypeRef → Option SymbolId
  | .named d _ => some d
  | _ => none

def args : TypeRef → List TypeRef
  | .named _ args => args
  | _ => []

/-- The definition or the type parameter that a type is about. -/
def head? : TypeRef → Option SymbolId
  | .named d _ => some d
  | .param p => some p
  | _ => none

def isParam : TypeRef → Bool
  | .param _ => true
  | _ => false

/-! ### Looking inside -/

mutual
/-- Whether a type, or a part of it, could not be resolved. -/
def isUnresolved : TypeRef → Bool
  | .named _ args => anyUnresolved args
  | .param _ => false
  | .nullable t => t.isUnresolved
  | .array t _ => t.isUnresolved
  | .unresolved => true
def anyUnresolved : List TypeRef → Bool
  | [] => false
  | t :: ts => t.isUnresolved || anyUnresolved ts
end

@[simp] theorem anyUnresolved_eq_any : ∀ ts : List TypeRef,
    anyUnresolved ts = ts.any isUnresolved
  | [] => rfl
  | t :: ts => by rw [anyUnresolved, anyUnresolved_eq_any ts, List.any_cons]

mutual
/-- Whether a type mentions one of the parameters. -/
def mentionsAny (params : List SymbolId) : TypeRef → Bool
  | .named _ args => anyMentions params args
  | .param p => params.contains p
  | .nullable t => t.mentionsAny params
  | .array t _ => t.mentionsAny params
  | .unresolved => false
def anyMentions (params : List SymbolId) : List TypeRef → Bool
  | [] => false
  | t :: ts => t.mentionsAny params || anyMentions params ts
end

@[simp] theorem anyMentions_eq_any (params : List SymbolId) : ∀ ts : List TypeRef,
    anyMentions params ts = ts.any (mentionsAny params)
  | [] => rfl
  | t :: ts => by rw [anyMentions, anyMentions_eq_any params ts, List.any_cons]

/-! ### The text of a type -/

def rankText (rank : UInt32) : String :=
  "[" ++ String.ofList (List.replicate (rank.toNat - 1) ',') ++ "]"

mutual
/-- The text of a type, when symbols have the given names. -/
def render (nameOf : SymbolId → String) : TypeRef → String
  | .named d [] => nameOf d
  | .named d (t :: ts) => nameOf d ++ "<" ++ t.render nameOf ++ renderRest nameOf ts ++ ">"
  | .param p => nameOf p
  | .nullable t => t.render nameOf ++ "?"
  | .array t rank => t.render nameOf ++ rankText rank
  | .unresolved => "?"
def renderRest (nameOf : SymbolId → String) : List TypeRef → String
  | [] => ""
  | t :: ts => ", " ++ t.render nameOf ++ renderRest nameOf ts
end

end TypeRef

/-! ### Substitution -/

/-- Types for finitely many type parameters. -/
abbrev Substitution := SymbolTable TypeRef

/-- The substitution that binds parameters to arguments in pairs; what has no partner is left out,
and the last of several bindings of a parameter counts. -/
def Substitution.ofPairs (params : List SymbolId) (args : List TypeRef) : Substitution :=
  (params.zip args).foldl (fun s (p, t) => s.insert p t) ∅

namespace TypeRef

mutual
/-- The type with all its type parameters replaced by what is given for them. -/
def replace (s : Substitution) : TypeRef → TypeRef
  | .named d args => .named d (replaceAll s args)
  | .param p => (s[p]?).getD (.param p)
  | .nullable t => .nullable (t.replace s)
  | .array t r => .array (t.replace s) r
  | .unresolved => .unresolved
def replaceAll (s : Substitution) : List TypeRef → List TypeRef
  | [] => []
  | t :: ts => t.replace s :: replaceAll s ts
end

/-- **Substitution** for all type parameters of a type at once.  If nothing is given for any of
them, the type is not gone through. -/
def substitute (s : Substitution) (t : TypeRef) : TypeRef :=
  if s.isEmpty then t else t.replace s

theorem replaceAll_eq_map (s : Substitution) : ∀ ts : List TypeRef,
    replaceAll s ts = ts.map (replace s)
  | [] => rfl
  | t :: ts => by rw [replaceAll, replaceAll_eq_map s ts, List.map_cons]

theorem replace_empty (t : TypeRef) : t.replace ∅ = t := by
  induction t using induction with
  | named d args ih =>
      rw [replace, replaceAll_eq_map]
      exact congrArg _ ((List.map_congr_left ih).trans (List.map_id _))
  | param p => simp [replace]
  | nullable t ih => rw [replace, ih]
  | array t r ih => rw [replace, ih]
  | unresolved => rfl

theorem substitute_empty (t : TypeRef) : t.substitute ∅ = t := rfl

/-- **A type need not be gone through for the empty substitution.** -/
theorem substitute_eq_replace (s : Substitution) (t : TypeRef) : t.substitute s = t.replace s := by
  rw [substitute]
  split
  · rename_i hempty
    rw [Std.ExtTreeMap.isEmpty_iff.1 hempty, replace_empty]
  · rfl

theorem substitute_named (s : Substitution) (d : SymbolId) (args : List TypeRef) :
    (named d args).substitute s = named d (args.map (substitute s)) := by
  rw [substitute_eq_replace, replace, replaceAll_eq_map]
  exact congrArg _ (List.map_congr_left fun t _ => (substitute_eq_replace s t).symm)

theorem substitute_param (s : Substitution) (p : SymbolId) :
    (param p).substitute s = (s[p]?).getD (.param p) := by
  rw [substitute_eq_replace, replace]

theorem substitute_nullable (s : Substitution) (t : TypeRef) :
    (nullable t).substitute s = nullable (t.substitute s) := by
  rw [substitute_eq_replace, substitute_eq_replace, replace]

theorem substitute_array (s : Substitution) (t : TypeRef) (rank : UInt32) :
    (array t rank).substitute s = array (t.substitute s) rank := by
  rw [substitute_eq_replace, substitute_eq_replace, replace]

theorem substitute_unresolved (s : Substitution) : unresolved.substitute s = unresolved := by
  rw [substitute_eq_replace, replace]

end TypeRef

end Ambit
