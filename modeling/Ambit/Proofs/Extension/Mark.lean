/-
Marks on receiver parameters.

A mark on a type that is not a value type says nothing about what the type comes from.  An extension
method does not always see it that way.  As long as the type of its receiver parameter mentions no
parameter of the method, the type is looked at in its normal form, and the mark makes no difference.
An open type with a mark is bound to what the receiver wraps, like a nullable value type, so it is
never bound to a receiver that wraps nothing.

Main definitions:

* `Ambit.Signature.retype` — a signature with another type of its receiver parameter;
* `Ambit.Store.reduceWrapped` — what an open type under a mark is reduced to, on a receiver that
  wraps a type.

Main results:

* `Ambit.Store.reduce_retype` — the reduction of a method by the type of its receiver parameter;
* `Ambit.Store.reduce_marked_eq_iff` — **when a mark on the receiver parameter is transparent**;
* `Ambit.Store.reduce_marked_list` — a mark that is not.
-/

import Ambit.Proofs.Agreement
import Ambit.Proofs.Extension.Reduction

set_option relaxedAutoImplicit false
set_option autoImplicit false

namespace Ambit

/-! ### The type of the receiver parameter -/

/-- The signature with another type of its receiver parameter. -/
def Signature.retype (signature : Signature) (t : TypeRef) : Signature :=
  { signature with params := signature.params.modifyHead fun p => { p with type := t } }

theorem Signature.receiver?_retype (signature : Signature) (t : TypeRef) :
    (signature.retype t).receiver? = signature.receiver?.map fun p => { p with type := t } := by
  rw [receiver?, receiver?, retype]
  cases signature.params with
  | nil => rfl
  | cons p ps =>
      rw [List.modifyHead_cons, List.head?_cons, List.head?_cons, Option.filter_some,
        Option.filter_some]
      split <;> rfl

namespace Store

variable {s : Store} {signal : Signal} {receiver t : TypeRef} {signature : Signature}

/-- A signature does not change what types come from. -/
theorem sameLineage_insertSignature (s : Store) (signature : Signature) :
    s.SameLineage (s.insertSignature signature) where
  types := rfl
  typeParams := rfl
  wellKnown := rfl
  typeParamsOf := rfl
  nameOf := rfl
  typeOf? := rfl

/-- The reduction of the method of a signature, when its receiver parameter has a type. -/
theorem reduce_retype (s : Store) (signal : Signal) (signature : Signature)
    (t receiver : TypeRef) :
    (s.insertSignature (signature.retype t)).reduce signal signature.id receiver =
      if signature.receiver?.isNone || (s.normalize receiver).isUnresolved then .ok none
      else s.bindReceiver signal (s.typeParamsOf signature.id) t (s.normalize receiver) >>=
        s.accept signal (s.typeParamsOf signature.id) := by
  have h := s.sameLineage_insertSignature (signature.retype t)
  have hsignature : (s.insertSignature (signature.retype t)).signatures[signature.id]? =
      some (signature.retype t) := by
    rw [insertSignature, Signature.retype]
    simp
  cases hreceiver : signature.receiver? with
  | none =>
      rw [reduce, hsignature, Option.bind_some, Signature.receiver?_retype, hreceiver]
      rfl
  | some parameter =>
      have hparameter : ((s.insertSignature (signature.retype t)).signatures[signature.id]?).bind
          Signature.receiver? = some { parameter with type := t } := by
        rw [hsignature, Option.bind_some, Signature.receiver?_retype, hreceiver]
        rfl
      have haccept : (s.insertSignature (signature.retype t)).accept = s.accept := by
        funext signal params given
        cases given with
        | none => rfl
        | some given => rw [accept, accept, h.meetConstraints]
      rw [reduce_eq hparameter, h.normalize, h.bindReceiver, h.typeParamsOf, haccept]
      rfl

/-! ### Types that are not value types -/

theorem isValueType_normalize (h : s.isValueType t = false) :
    s.isValueType (s.normalize t) = false := by
  induction t using TypeRef.induction with
  | nullable t ih =>
      have ht := ih h
      rw [normalize, wrap, ht]
      exact ht
  | named | param | array | unresolved => exact h

theorem normalize_nullable (h : s.isValueType t = false) :
    s.normalize (.nullable t) = s.normalize t := by
  rw [normalize, wrap, isValueType_normalize h]
  rfl

theorem derivesFrom_nullable (h : s.isValueType t = false) :
    s.derivesFrom signal receiver (.nullable t) = s.derivesFrom signal receiver t := by
  have hunresolved : (TypeRef.nullable t).isUnresolved = t.isUnresolved := rfl
  rw [derivesFrom, derivesFrom, hunresolved, normalize_nullable h]

/-! ### The receiver parameter under a mark -/

theorem isUnresolved_of_underlying? {inner : TypeRef} (h : s.underlying? receiver = some inner) :
    (s.normalize receiver).isUnresolved = inner.isUnresolved := by
  obtain ⟨wrapper, -, hnormal⟩ := underlying?_eq_some_iff.1 h
  rw [hnormal]
  simp [TypeRef.isUnresolved]

/-- What an open type under a mark is reduced to on a receiver that wraps a type: that type has to
fit it. -/
def reduceWrapped (s : Store) (signal : Signal) (params : List SymbolId) (t inner : TypeRef) :
    Answer (Option Substitution) :=
  if inner.isUnresolved then .ok none else s.accept signal params (TypeRef.fit? params t inner ∅)

section Open

variable (hparameter : signature.receiver?.isNone = false)
  (hopen : t.mentionsAny (s.typeParamsOf signature.id) = true)
include hparameter hopen

/-- On a receiver that wraps nothing, an open type under a mark is not reduced. -/
theorem reduce_retype_nullable_of_none (hwrapped : s.underlying? receiver = none) :
    (s.insertSignature (signature.retype (.nullable t))).reduce signal signature.id receiver =
      .ok none := by
  rw [reduce_retype, hparameter, Bool.false_or, bindReceiver_nullable hopen, underlying?_normalize,
    hwrapped]
  -- whether the receiver is resolved or not, there is nothing to fit
  split
  · rfl
  · rfl

/-- An open type under a mark is bound to what the receiver wraps. -/
theorem reduce_retype_nullable_of_some {inner : TypeRef}
    (hwrapped : s.underlying? receiver = some inner) :
    (s.insertSignature (signature.retype (.nullable t))).reduce signal signature.id receiver =
      s.reduceWrapped signal (s.typeParamsOf signature.id) t inner := by
  rw [reduce_retype, hparameter, Bool.false_or, bindReceiver_nullable hopen, underlying?_normalize,
    hwrapped, isUnresolved_of_underlying? hwrapped]
  rfl

end Open

/-- **When a mark on the receiver parameter is transparent.**  A mark on a type that is not a value
type makes no difference when the type mentions no parameter of the method.  Otherwise it makes none
on a receiver that wraps nothing exactly if the method without the mark is not reduced there, and on
a receiver that wraps a type exactly if the method without the mark is reduced to what fitting its
type to the wrapped type gives. -/
theorem reduce_marked_eq_iff (h : s.isValueType t = false) (signal : Signal)
    (signature : Signature) (receiver : TypeRef) :
    (s.insertSignature (signature.retype (.nullable t))).reduce signal signature.id receiver =
        (s.insertSignature (signature.retype t)).reduce signal signature.id receiver ↔
      signature.receiver? = none ∨ t.mentionsAny (s.typeParamsOf signature.id) = false ∨
        (s.underlying? receiver = none ∧
          (s.insertSignature (signature.retype t)).reduce signal signature.id receiver = .ok none) ∨
        ∃ inner, s.underlying? receiver = some inner ∧
          (s.insertSignature (signature.retype t)).reduce signal signature.id receiver =
            s.reduceWrapped signal (s.typeParamsOf signature.id) t inner := by
  by_cases hnone : signature.receiver? = none
  · simp [reduce_retype, hnone]
  · have hparameter : signature.receiver?.isNone = false :=
      Option.isNone_eq_false_iff.2 (Option.isSome_iff_ne_none.2 hnone)
    cases hopen : t.mentionsAny (s.typeParamsOf signature.id) with
    | false =>
        -- a closed type is looked at in its normal form, which has no mark
        have hmarked : (TypeRef.nullable t).mentionsAny (s.typeParamsOf signature.id) = false :=
          hopen
        refine iff_of_true ?_ (Or.inr (Or.inl rfl))
        rw [reduce_retype, reduce_retype, bindReceiver_of_closed hopen,
          bindReceiver_of_closed hmarked, derivesFrom_nullable h]
    | true =>
        cases hwrapped : s.underlying? receiver with
        | none =>
            rw [reduce_retype_nullable_of_none hparameter hopen hwrapped]
            simp [hnone, eq_comm]
        | some inner =>
            rw [reduce_retype_nullable_of_some hparameter hopen hwrapped]
            simp [hnone, eq_comm]

/-- A generic class, and an extension method on its instances. -/
def listExtension : Store :=
  empty.insertType { id := ⟨0⟩, kind := .classType }
    |>.insertType { id := ⟨1⟩, kind := .classType }
    |>.insertTypeParam { id := ⟨3⟩, owner := ⟨2⟩, ordinal := 0 }

/-- The signature of the extension method. -/
def firstSignature : Signature :=
  { id := ⟨2⟩, params := [{ name := "items", type := .named ⟨0⟩ [.param ⟨3⟩], kind := .receiver }] }

/-- **A mark that is not transparent**: without it the method can be called on an instance of the
class, with it it cannot, although a class is not a value type. -/
theorem reduce_marked_list :
    listExtension.isValueType (.named ⟨0⟩ [.param ⟨3⟩]) = false ∧
      (listExtension.insertSignature (firstSignature.retype (.named ⟨0⟩ [.param ⟨3⟩]))).reduce
        .quiet ⟨2⟩ (.named ⟨0⟩ [.plain ⟨1⟩]) = .ok (some (.ofPairs [⟨3⟩] [.plain ⟨1⟩])) ∧
      (listExtension.insertSignature
          (firstSignature.retype (.nullable (.named ⟨0⟩ [.param ⟨3⟩])))).reduce
        .quiet ⟨2⟩ (.named ⟨0⟩ [.plain ⟨1⟩]) = .ok none := by
  decide +kernel

/-- On a closed type the mark is transparent.  On an open one, and a receiver that wraps nothing, it
could only be if the method without the mark were not reduced, either. -/
theorem reduce_marked_eq_iff_list :
    listExtension.isValueType (.plain ⟨1⟩) = false ∧
      (listExtension.insertSignature (firstSignature.retype (.nullable (.plain ⟨1⟩)))).reduce
          .quiet ⟨2⟩ (.plain ⟨1⟩) =
        (listExtension.insertSignature (firstSignature.retype (.plain ⟨1⟩))).reduce
          .quiet ⟨2⟩ (.plain ⟨1⟩) ∧
      listExtension.isValueType (.named ⟨0⟩ [.param ⟨3⟩]) = false ∧
      (listExtension.insertSignature
          (firstSignature.retype (.nullable (.named ⟨0⟩ [.param ⟨3⟩])))).reduce
          .quiet ⟨2⟩ (.named ⟨0⟩ [.plain ⟨1⟩]) ≠
        (listExtension.insertSignature (firstSignature.retype (.named ⟨0⟩ [.param ⟨3⟩]))).reduce
          .quiet ⟨2⟩ (.named ⟨0⟩ [.plain ⟨1⟩]) := by
  have hclosed : listExtension.isValueType (.plain ⟨1⟩) = false := by decide +kernel
  have hopen : listExtension.isValueType (.named ⟨0⟩ [.param ⟨3⟩]) = false := by decide +kernel
  refine ⟨hclosed, (reduce_marked_eq_iff hclosed .quiet firstSignature (.plain ⟨1⟩)).2
    (Or.inr (Or.inl rfl)), hopen, fun heq => ?_⟩
  have hiff := reduce_marked_eq_iff hopen .quiet firstSignature (.named ⟨0⟩ [.plain ⟨1⟩])
  have hwrapped : listExtension.underlying? (.named ⟨0⟩ [.plain ⟨1⟩]) = none := by decide +kernel
  rcases hiff.1 heq with hnone | hmentions | ⟨-, hsame⟩ | ⟨inner, hinner, -⟩
  · cases hnone
  · exact absurd hmentions (by decide +kernel)
  · exact absurd hsame (by decide +kernel)
  · rw [hwrapped] at hinner
    cases hinner

end Store

end Ambit
