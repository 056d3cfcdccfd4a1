/-
Stores that agree about types.

What a type comes from directly is read off the declarations, the registered types and the lists of
type parameters.  Two stores that have the same ones have the same direct supertypes.  A fault
spells out the name of a symbol, so where the names and the types of symbols are the same too, the
search for supertypes has the same outcome, and the same symbols can be named.  Which members a type
has is read off the members that types declare.  Two stores that agree on these give the same
answers, even where their faults differ.

Main definitions:

* `Ambit.Store.SameTypes` — stores with the same declarations of types;
* `Ambit.Store.SameLineage` — stores in which symbols have the same names and types as well;
* `Ambit.Store.Agrees` — stores that agree about types and their members.

Main results:

* `Ambit.Store.SameTypes.directSupertypes` — they have the same direct supertypes;
* `Ambit.Store.SameLineage.supertypes`, `Ambit.Store.SameLineage.canAccess`,
  `Ambit.Store.SameLineage.bindReceiver` — the same outcome for supertypes, for access and for
  passing a receiver, faults included;
* `Ambit.Store.Agrees.supertypes` — the same supertypes;
* `Ambit.Store.Agrees.typeMembers` — the same members;
* `Ambit.Store.Agrees.canAccess` — **and the same symbols can be named in them**.
-/

import Ambit.Access
import Ambit.Extension
import Ambit.Member
import Ambit.Proofs.Access

set_option relaxedAutoImplicit false
set_option autoImplicit false

namespace Ambit.Store

open Answer (KeptBy)

/-- Stores with the same declarations of types. -/
structure SameTypes (s s' : Store) : Prop where
  types : s'.types = s.types
  typeParams : s'.typeParams = s.typeParams
  wellKnown : s'.wellKnown = s.wellKnown
  typeParamsOf : s'.typeParamsOf = s.typeParamsOf

/-- Stores with the same declarations of types, in which symbols have the same names and types. -/
structure SameLineage (s s' : Store) : Prop extends SameTypes s s' where
  nameOf : s'.nameOf = s.nameOf
  typeOf? : s'.typeOf? = s.typeOf?

/-- Stores that agree about types and their members. -/
structure Agrees (s s' : Store) : Prop extends SameTypes s s' where
  signatures : s'.signatures = s.signatures
  typeOf? : s'.typeOf? = s.typeOf?
  membersOf : s'.membersOf = s.membersOf

/-! ### Direct supertypes -/

namespace SameTypes

variable {s s' : Store} (h : s.SameTypes s')
include h

theorem isValueType : s'.isValueType = s.isValueType := by
  funext t
  fun_induction s.isValueType t with
  | case5 t ih => rw [← ih, Store.isValueType]
  | _ => simp_all [Store.isValueType, h.types, h.typeParams]

theorem wrap : s'.wrap = s.wrap := by
  funext t
  rw [Store.wrap, Store.wrap, h.isValueType, h.wellKnown]

theorem normalize : s'.normalize = s.normalize := by
  funext t
  fun_induction s.normalize t with
  | case1 t ih => rw [Store.normalize, ih, h.wrap]
  | case2 t hnullable => rw [Store.normalize]; exact hnullable

theorem underlying? : s'.underlying? = s.underlying? := by
  funext t
  have hwellKnown : s'.isWellKnown = s.isWellKnown := by
    funext symbol kind
    rw [isWellKnown, isWellKnown, h.wellKnown]
  rw [Store.underlying?, Store.underlying?, h.normalize, hwellKnown]

theorem declOf? : s'.declOf? = s.declOf? := by
  funext t
  rw [Store.declOf?, Store.declOf?, h.types]

theorem isClassLike : s'.isClassLike = s.isClassLike := by
  funext t
  rw [Store.isClassLike, Store.isClassLike, h.declOf?]

theorem isInterface : s'.isInterface = s.isInterface := by
  funext t
  rw [Store.isInterface, Store.isInterface, h.declOf?]

theorem plainWellKnown? : s'.plainWellKnown? = s.plainWellKnown? := by
  funext kind
  rw [Store.plainWellKnown?, Store.plainWellKnown?, h.wellKnown]

theorem declaredBase? : s'.declaredBase? = s.declaredBase? := by
  funext decl
  rw [Store.declaredBase?, Store.declaredBase?, Store.impliedBase?, Store.impliedBase?,
    h.wellKnown]

theorem instantiation : s'.instantiation = s.instantiation := by
  funext t
  cases t with
  | named d args => rw [Store.instantiation, Store.instantiation, h.typeParamsOf]
  | _ => rfl

theorem paramSupertypes : s'.paramSupertypes = s.paramSupertypes := by
  funext p
  rw [Store.paramSupertypes, Store.paramSupertypes, h.typeParams, h.isClassLike, h.isValueType,
    h.plainWellKnown?]

theorem directSupertypes : s'.directSupertypes = s.directSupertypes := by
  funext t
  rw [Store.directSupertypes, Store.directSupertypes, h.normalize]
  cases s.normalize t with
  | named d args =>
      rw [supertypesOfNormal, supertypesOfNormal, h.types, h.declaredBase?, h.instantiation]
  | param p => rw [supertypesOfNormal, supertypesOfNormal, h.paramSupertypes]
  | array element rank => rw [supertypesOfNormal, supertypesOfNormal, h.plainWellKnown?]
  | nullable inner => rfl
  | unresolved => rfl

end SameTypes

/-! ### The same outcome -/

namespace SameLineage

variable {s s' : Store} (h : s.SameLineage s')
include h

theorem gatherSupertypes (fuel : ℕ) : s'.gatherSupertypes fuel = s.gatherSupertypes fuel := by
  induction fuel with
  | zero =>
      funext path found t
      simp only [Store.gatherSupertypes, inheritanceFault, h.nameOf]
  | succ fuel ih =>
      funext path found t
      simp only [Store.gatherSupertypes, inheritanceFault, h.nameOf, h.directSupertypes,
        h.normalize, ih]

/-- The search for supertypes has the same outcome. -/
theorem supertypes : s'.supertypes = s.supertypes := by
  funext signal t
  simp only [Store.supertypes, lineageBound, h.types, h.typeParams, h.normalize,
    h.gatherSupertypes]

theorem supertypeWith? : s'.supertypeWith? = s.supertypeWith? := by
  funext signal t definition
  rw [Store.supertypeWith?, Store.supertypeWith?, h.supertypes]

theorem anyDerivesFrom (signal : Signal) (container : SymbolId) (types : List SymbolId) :
    s'.anyDerivesFrom signal container types = s.anyDerivesFrom signal container types := by
  induction types with
  | nil => rfl
  | cons type types ih =>
      simp only [Store.anyDerivesFrom, Store.implements, h.typeOf?, h.supertypeWith?, ih]

/-- Whether a symbol can be named has the same outcome. -/
theorem canAccess : s'.canAccess = s.canAccess := by
  funext signal site symbol
  simp only [Store.canAccess, canAccessProtected, h.anyDerivesFrom]

theorem derivesFrom : s'.derivesFrom = s.derivesFrom := by
  funext signal t target
  rw [Store.derivesFrom, Store.derivesFrom, h.supertypes, h.normalize]

theorem derivesFromAll (signal : Signal) (t : TypeRef) (us : List TypeRef) :
    s'.derivesFromAll signal t us = s.derivesFromAll signal t us := by
  induction us with
  | nil => rfl
  | cons u us ih => rw [Store.derivesFromAll, Store.derivesFromAll, h.derivesFrom, ih]

theorem satisfies : s'.satisfies = s.satisfies := by
  funext signal t param given
  simp only [Store.satisfies, h.typeParams, h.isValueType, h.underlying?, h.derivesFromAll]

theorem meetConstraints (signal : Signal) (given : Substitution) (params : List SymbolId) :
    s'.meetConstraints signal given params = s.meetConstraints signal given params := by
  induction params with
  | nil => rfl
  | cons p params ih => simp only [Store.meetConstraints, h.satisfies, ih]

/-- A receiver can be passed for a parameter with the same outcome. -/
theorem bindReceiver : s'.bindReceiver = s.bindReceiver := by
  funext signal params pattern receiver
  simp only [Store.bindReceiver, h.derivesFrom, h.supertypeWith?, h.underlying?]

end SameLineage

/-! ### The same answers -/

namespace Agrees

variable {s s' : Store} (h : s.Agrees s')
include h

theorem gatherSupertypes (fuel : ℕ) (path : List SymbolId) (found : List TypeRef) (t : TypeRef) :
    KeptBy (s.gatherSupertypes fuel path found t) (s'.gatherSupertypes fuel path found t) := by
  induction fuel generalizing path found t with
  | zero =>
      intro all hall
      rw [Store.gatherSupertypes] at hall ⊢
      split at hall
      · cases hall
      · exact hall
  | succ fuel ih =>
      intro all hall
      rw [Store.gatherSupertypes] at hall ⊢
      split at hall
      · cases hall
      · split at hall
        · rw [if_pos (by assumption)]
          exact hall
        · rw [if_neg (by assumption), h.directSupertypes, h.normalize]
          exact KeptBy.foldlM (ih _) _ _ all hall

/-- Stores that agree have the same supertypes. -/
theorem supertypes (signal : Signal) (t : TypeRef) :
    KeptBy (s.supertypes signal t) (s'.supertypes signal t) := by
  rw [Store.supertypes, Store.supertypes, lineageBound, lineageBound, h.types, h.typeParams,
    h.normalize]
  exact (KeptBy.refl _).bind fun _ => h.gatherSupertypes _ _ _ _

theorem implements (signal : Signal) (t : TypeRef) (definition : SymbolId) :
    KeptBy (s.implements signal t definition) (s'.implements signal t definition) := by
  rw [Store.implements, Store.implements, supertypeWith?, supertypeWith?]
  exact ((h.supertypes signal t).bind fun _ => KeptBy.refl _).bind fun _ => KeptBy.refl _

/-! ### Members -/

theorem methodKey : s'.methodKey = s.methodKey := by
  funext method
  rw [Store.methodKey, Store.methodKey, paramCount?, paramCount?, h.signatures]

theorem namedMembers : s'.namedMembers = s.namedMembers := by
  funext t
  cases t with
  | named d args => rw [Store.namedMembers, Store.namedMembers, h.membersOf]
  | _ => rfl

theorem unhiddenMembers (hidden : Hiding) (inherited : Bool) (ts : List TypeRef) :
    s'.unhiddenMembers hidden inherited ts = s.unhiddenMembers hidden inherited ts := by
  have hhidden : s'.isHidden = s.isHidden := by
    funext hidden m
    rw [isHidden, isHidden, h.methodKey]
  have hhide : s'.hide = s.hide := by
    funext hidden members
    rw [hide, hide, h.methodKey]
  induction ts generalizing hidden inherited with
  | nil => rfl
  | cons t ts ih =>
      rw [Store.unhiddenMembers, Store.unhiddenMembers, h.namedMembers, hhidden, hhide, ih]

/-- Stores that agree have the same members in every type. -/
theorem typeMembers (signal : Signal) (t : TypeRef) :
    KeptBy (s.typeMembers signal t) (s'.typeMembers signal t) := by
  rw [Store.typeMembers, Store.typeMembers, h.normalize]
  split
  · exact KeptBy.refl _
  · have htypes : KeptBy (s.memberTypes signal (s.normalize t))
        (s'.memberTypes signal (s.normalize t)) := by
      rw [memberTypes, memberTypes, h.isInterface, h.plainWellKnown?]
      exact (h.supertypes signal _).bind fun _ => KeptBy.refl _
    refine htypes.bind fun ts => ?_
    rw [h.unhiddenMembers]
    exact KeptBy.refl _

/-! ### Access -/

theorem anyDerivesFrom (signal : Signal) (container : SymbolId) (types : List SymbolId) :
    KeptBy (s.anyDerivesFrom signal container types)
      (s'.anyDerivesFrom signal container types) := by
  induction types with
  | nil => exact KeptBy.refl _
  | cons type types ih =>
      rw [Store.anyDerivesFrom, Store.anyDerivesFrom, h.typeOf?]
      split
      · exact ih
      · refine (h.implements signal _ container).bind fun derives => ?_
        cases derives with
        | true => exact KeptBy.refl _
        | false => exact ih

/-- **In stores that agree, the same symbols can be named from every site.** -/
theorem canAccess (signal : Signal) (site : Site) (symbol : Symbol) :
    KeptBy (s.canAccess signal site symbol) (s'.canAccess signal site symbol) := by
  rcases canAccess_cases symbol with ⟨fixed, hfixed⟩ | ⟨container, -, hcontains | hprotected⟩
  · rw [hfixed, hfixed]
    exact KeptBy.refl _
  · rw [hcontains, hcontains]
    exact KeptBy.refl _
  · rw [hprotected, hprotected, canAccessProtected, canAccessProtected]
    split
    · exact KeptBy.refl _
    · exact h.anyDerivesFrom signal container _

end Agrees

end Ambit.Store
