/-
Verdicts on symbols.

Whether a symbol can be used at a place is said with a reason: it can, or it is excluded for one of
finitely many causes.  A verdict comes with the way in which the symbol was met.

Main definitions:

* `Ambit.Exclusion` — the reasons for which a symbol cannot be used;
* `Ambit.Verdict` — **whether a symbol can be used**;
* `Ambit.Origin` — how a symbol was met.
-/

import Ambit.Spelled

set_option relaxedAutoImplicit false
set_option autoImplicit false

namespace Ambit

/-- The reasons for which a symbol cannot be used at a place. -/
inductive Exclusion where
  /-- A symbol of an inner scope has its name. -/
  | shadowed
  /-- It is declared further on in the text. -/
  | declaredLater
  /-- It cannot be named from here. -/
  | inaccessible
  /-- It belongs to an instance, and there is none. -/
  | instanceInStaticContext
  /-- It is a variable outside of a static function. -/
  | capturedInStaticFunction
  /-- It belongs to a type, and is asked of an instance. -/
  | staticViaInstance
  /-- Only types can stand here. -/
  | notAType
  /-- Only constants can stand here. -/
  | notAConstant
  /-- Only labels can stand here. -/
  | notALabel
  /-- It is a label, and no label can stand here. -/
  | labelOutsideGoto
  /-- The constraints of a type parameter are not met. -/
  | constraintNotSatisfied
  /-- It cannot be a constraint. -/
  | invalidConstraintType
  /-- It is obsolete. -/
  | obsolete
  /-- It is not declared around the place. -/
  | notInScope
  /-- It cannot be reached through a type parameter. -/
  | notThroughTypeParameter
deriving DecidableEq, Repr

namespace Exclusion

instance : Spelled Exclusion where
  members := [shadowed, declaredLater, inaccessible, instanceInStaticContext,
    capturedInStaticFunction, staticViaInstance, notAType, notAConstant, notALabel,
    labelOutsideGoto, constraintNotSatisfied, invalidConstraintType, obsolete, notInScope,
    notThroughTypeParameter]
  spell
    | shadowed => "shadowed"
    | declaredLater => "declared_later"
    | inaccessible => "inaccessible"
    | instanceInStaticContext => "instance_in_static_context"
    | capturedInStaticFunction => "captured_in_static_function"
    | staticViaInstance => "static_via_instance"
    | notAType => "not_a_type"
    | notAConstant => "not_a_constant"
    | notALabel => "not_a_label"
    | labelOutsideGoto => "label_outside_goto"
    | constraintNotSatisfied => "constraint_not_satisfied"
    | invalidConstraintType => "invalid_constraint_type"
    | obsolete => "obsolete"
    | notInScope => "not_in_scope"
    | notThroughTypeParameter => "not_accessible_through_type_parameter"
  find_spell a := by cases a <;> rfl

end Exclusion

/-- Whether a symbol can be used. -/
inductive Verdict where
  | applicable
  | excluded (reason : Exclusion)
deriving DecidableEq, Repr

namespace Verdict

def isApplicable (v : Verdict) : Bool := v == .applicable

def reason? : Verdict → Option Exclusion
  | applicable => none
  | excluded reason => some reason

/-- The verdict that is excluded for a reason unless a condition holds. -/
def requiring (holds : Bool) (reason : Exclusion) : Verdict :=
  if holds then .applicable else .excluded reason

end Verdict

/-- How a symbol was met. -/
inductive Origin where
  /-- It is declared in a scope around the place, or by the type itself. -/
  | declared
  /-- It is inherited from another type. -/
  | inherited
  /-- It belongs to an imported namespace. -/
  | imported
  /-- It is an extension method. -/
  | extension
deriving DecidableEq, Repr

instance : Spelled Origin where
  members := [.declared, .inherited, .imported, .extension]
  spell
    | .declared => "declared"
    | .inherited => "inherited"
    | .imported => "imported"
    | .extension => "extension"
  find_spell a := by cases a <;> rfl

end Ambit
