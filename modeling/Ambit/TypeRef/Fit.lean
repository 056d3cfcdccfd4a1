/-
Fitting a type to a pattern.

A pattern is a type in which some parameters are open.  A type fits the pattern when the open
parameters can be given types so that the pattern becomes that type; an open parameter that comes
twice has to be given one type.  The types found so far are extended from left to right.

Main definitions:

* `Ambit.TypeRef.fit?` — **the types of the open parameters** under which a pattern becomes a type;
* `Ambit.TypeRef.fitAll?` — the same for lists of types.
-/

import Ambit.TypeRef

set_option relaxedAutoImplicit false
set_option autoImplicit false

namespace Ambit.TypeRef

/-- The types of the open parameters when one of them is to be a type. -/
def fitParam? (param : SymbolId) (t : TypeRef) (found : Substitution) : Option Substitution :=
  match found[param]? with
  | some bound => if bound = t then some found else none
  | none => some (found.insert param t)

mutual
/-- **The types of the open parameters** under which a pattern becomes a type. -/
def fit? (params : List SymbolId) : TypeRef → TypeRef → Substitution → Option Substitution
  | .param p, t, found =>
      if params.contains p then fitParam? p t found
      else if t = .param p then some found
      else none
  | .named d ps, .named e ts, found => if d = e then fitAll? params ps ts found else none
  | .nullable p, .nullable t, found => fit? params p t found
  | .array p rank, .array t rank', found => if rank = rank' then fit? params p t found else none
  | .unresolved, .unresolved, found => some found
  | _, _, _ => none
/-- The types of the open parameters under which patterns become types. -/
def fitAll? (params : List SymbolId) :
    List TypeRef → List TypeRef → Substitution → Option Substitution
  | [], [], found => some found
  | p :: ps, t :: ts, found => (fit? params p t found).bind (fitAll? params ps ts)
  | _, _, _ => none
end

end Ambit.TypeRef
