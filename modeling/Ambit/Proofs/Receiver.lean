/-
Chains of member accesses.

What a chain of names stands for is found link by link: each further name is looked for among the
members of the type of what comes before it.  The type is taken in its normal form, so behind a
value of a nullable value type the members are those of the wrapper.  The operators of the chain are
not asked, and `?.` inside a chain reaches the same members as `.` does.  Only the operator right
before the cursor reaches through the wrapper.

Main definitions:

* `Ambit.Store.variableType?` — the type of the local variable or parameter that a name stands for.

Main results:

* `Ambit.Store.resolve_chainText` — the last link of a chain goes on from the chain before it;
* `Ambit.Store.Indexed.resolve_variable` — a variable before a dot stands for a value of its type;
* `Ambit.Store.nextReceiver_nullable` — behind a nullable value type, members of the wrapper;
* `Ambit.Store.resolve_conditional_eq_iff` — **when a conditional access inside a chain reaches what
  the access to the value itself does**;
* `Ambit.Store.resolve_conditional_unbound` — a conditional access that does not.
-/

import Ambit.Proofs.Lineage.Bound
import Ambit.Proofs.Lookup.Walk
import Ambit.Proofs.Member
import Ambit.Proofs.Token.Chain
import Ambit.Receiver

set_option relaxedAutoImplicit false
set_option autoImplicit false

namespace Ambit.Store

variable {s : Store} {signal : Signal} {options : Options} {position : UInt64} {p : Panorama}
  {t v : TypeRef} {wrapper : SymbolId} {name : String}

/-! ### Links -/

/-- One more name goes on from what the names before it stand for. -/
theorem resolve_concat {names : List String} (h : names ≠ []) (name : String) :
    s.resolve signal options position (names ++ [name]) =
      s.resolve signal options position names >>= (s.nextReceiver signal options · name) := by
  cases names with
  | nil => exact absurd rfl h
  | cons first rest =>
      rw [List.cons_append, resolve, resolve, bind_assoc]
      simp only [List.foldlM_append, List.foldlM_cons, List.foldlM_nil, bind_pure]

/-- **The last link of a chain** goes on from what the chain before it stands for, whichever
operators stand in that chain. -/
theorem resolve_chainText {hops : List Hop} (hhops : hops ≠ []) {last : Hop} {link : Link}
    (hlink : last.operator = link.operator) :
    s.resolve signal options position (Cursor.ofText (chainText (hops ++ [last]))).receiver =
      s.resolve signal options position (hops.map Hop.name) >>=
        (s.nextReceiver signal options · last.name) := by
  have hnames : hops.map Hop.name ≠ [] := mt List.map_eq_nil_iff.1 hhops
  rw [Cursor.ofText_chainText hops last hlink, List.map_append, List.map_singleton,
    resolve_concat hnames]

theorem typeMember_normalize (t : TypeRef) (name : String) :
    s.typeMember signal options (s.normalize t) name = s.typeMember signal options t name := by
  rw [typeMember, typeMember, typeMembers_normalize]

/-- **Behind a value of a nullable value type, a name is a member of the wrapper.** -/
theorem nextReceiver_nullable (hwrapper : s.wellKnown[WellKnown.nullable]? = some wrapper)
    (hvalue : s.isValueType v = true) (hplain : s.normalize v = v) (name : String) :
    s.nextReceiver signal options (.value (.nullable v)) name =
      s.typeMember signal options (.named wrapper [v]) name := by
  rw [← hplain] at hvalue
  rw [nextReceiver, ← typeMember_normalize, normalize_nullable_of_isValueType hwrapper hvalue,
    hplain]

/-! ### Variables -/

/-- The type of the local variable or parameter that a name stands for. -/
def variableType? (s : Store) (options : Options) (p : Panorama) (name : String) :
    Option TypeRef :=
  if name = "this" ∨ name = "base" then none
  else
    ((p.findVisible? s options name).bind fun e => s.symbols[e.symbol]?).bind fun symbol =>
      if symbol.kind = .localVariable ∨ symbol.kind = .parameter then symbol.type else none

/-- Only the members of a type are met through a type. -/
theorem Indexed.isMember_of_contributes (hs : s.Indexed) {id : ScopeId} {found : Finding}
    (h : s.Contributes signal id found) {symbol : Symbol}
    (hstored : s.symbols[found.symbol]? = some symbol) (hvia : found.via ≠ none) :
    symbol.kind.isMember = true := by
  rcases contributes_cases h with ⟨scope, other, -, rfl | rfl⟩ | ⟨t, ms, hms, m, hm, rfl⟩ |
    ⟨scope, owner, -, -, -, -, parameter, -, rfl⟩
  · exact absurd rfl hvia
  · exact absurd rfl hvia
  · rw [hs.stored_of_mem_typeMembers hms hm] at hstored
    cases hstored
    exact isMember_of_mem_typeMembers hms hm
  · exact absurd rfl hvia

/-- A variable that a look-up finds is not met through a type. -/
theorem Indexed.via_of_findVisible? (hs : s.Indexed) (hp : s.lookup signal options position = .ok p)
    {e : Entry} {symbol : Symbol} (he : p.findVisible? s options name = some e)
    (hstored : s.symbols[e.symbol]? = some symbol) (hkind : symbol.kind.isMember = false) :
    e.via = none := by
  have hmem : e ∈ p.entries := (List.mem_filter.1 (List.mem_of_find?_eq_some he)).1
  obtain ⟨id, hcontributes⟩ := exists_contributes_of_mem_entries hp hmem
  by_contra hvia
  have hmember := hs.isMember_of_contributes hcontributes hstored hvia
  rw [hkind] at hmember
  cases hmember

/-- **A variable before a dot stands for a value of its type**, if the type is resolved. -/
theorem Indexed.resolve_variable (hs : s.Indexed) (hp : s.lookup signal options position = .ok p)
    (h : s.variableType? options p name = some t) :
    s.resolve signal options position [name] = .ok (.ofValue? (some t)) := by
  rw [variableType?] at h
  split at h
  · cases h
  · rename_i hself
    obtain ⟨hthis, hbase⟩ := not_or.1 hself
    obtain ⟨symbol, hsymbol, htype⟩ := Option.bind_eq_some_iff.1 h
    obtain ⟨e, he, hstored⟩ := Option.bind_eq_some_iff.1 hsymbol
    split at htype
    · rename_i hkind
      have hmember : symbol.kind.isMember = false := by
        rcases hkind with hkind | hkind <;> rw [hkind] <;> rfl
      have hvia := hs.via_of_findVisible? hp he hstored hmember
      -- nothing is put in for type parameters, since the variable is not met through a type
      have hreceiver : s.receiverOf symbol none = .ofValue? (some t) := by
        rcases hkind with hkind | hkind <;>
          simp [receiverOf, hkind, htype, TypeRef.substitute_empty]
      have hfirst : s.firstReceiver signal options position name =
          .ok (.ofValue? (some t)) := by
        rw [firstReceiver, if_neg hthis, if_neg hbase, hp, ← hreceiver, ← hvia]
        simp only [bind, Except.bind, he, hstored]
        rfl
      rw [resolve, hfirst]
      rfl
    · cases htype

/-! ### Conditional access -/

/-- What a name stands for behind a value with a mark and behind the value without it. -/
theorem nextReceiver_nullable_eq_iff (hwrapper : s.wellKnown[WellKnown.nullable]? = some wrapper)
    (hvalue : s.isValueType v = true) (hplain : s.normalize v = v) (name : String) :
    s.nextReceiver signal options (.ofValue? (some (.nullable v))) name =
        s.nextReceiver signal options (.ofValue? (some v)) name ↔
      v.isUnresolved = true ∨ s.typeMember signal options (.named wrapper [v]) name =
        s.typeMember signal options v name := by
  have hmark : (TypeRef.nullable v).isUnresolved = v.isUnresolved := rfl
  cases hv : v.isUnresolved with
  | true => simp [Receiver.ofValue?, hmark, hv]
  | false =>
      simp only [Receiver.ofValue?, hmark, hv, Bool.false_eq_true, if_false, false_or]
      rw [nextReceiver_nullable hwrapper hvalue hplain, nextReceiver]

/-- **When a conditional access inside a chain reaches what the access to the value itself does.**
A variable has a nullable value type and another one the value type.  Whichever operator stands
behind the first one, what the chain to a member stands for is the same for both exactly if the
wrapper has the member that the value type has, unless the value type is not resolved. -/
theorem resolve_conditional_eq_iff (hs : s.Built) (hp : s.lookup signal options position = .ok p)
    (hwrapper : s.wellKnown[WellKnown.nullable]? = some wrapper) (hvalue : s.isValueType v = true)
    (hplain : s.normalize v = v) {x y m : Hop} {link : Link} (hlink : m.operator = link.operator)
    (hx : s.variableType? options p x.name = some (.nullable v))
    (hy : s.variableType? options p y.name = some v) :
    s.resolve signal options position (Cursor.ofText (chainText [x, m])).receiver =
        s.resolve signal options position (Cursor.ofText (chainText [y, m])).receiver ↔
      v.isUnresolved = true ∨ s.typeMember signal options (.named wrapper [v]) m.name =
        s.typeMember signal options v m.name := by
  have hchain : ∀ (h : Hop) (t : TypeRef), s.variableType? options p h.name = some t →
      s.resolve signal options position (Cursor.ofText (chainText [h, m])).receiver =
        s.nextReceiver signal options (.ofValue? (some t)) m.name := by
    intro h t ht
    rw [← List.singleton_append, resolve_chainText (List.cons_ne_nil h []) hlink,
      List.map_singleton, hs.indexed.resolve_variable hp ht]
    rfl
  rw [hchain x _ hx, hchain y _ hy]
  exact nextReceiver_nullable_eq_iff hwrapper hvalue hplain m.name

/-- A value type with a property, the wrapper, and a method with a parameter of the nullable value
type and one of the value type. -/
def nullableParameter : Store :=
  empty.insertScope { id := ⟨0⟩, kind := .nameSpace, span := ⟨0, 90⟩ }
    |>.insertScope { id := ⟨1⟩, kind := .type, span := ⟨50, 60⟩, parent := some ⟨0⟩,
                     owner := some ⟨0⟩ }
    |>.insertScope { id := ⟨2⟩, kind := .method, span := ⟨0, 40⟩, parent := some ⟨0⟩ }
    |>.insertSymbol { id := ⟨0⟩, kind := .type, name := "V", scope := ⟨0⟩ }
    |>.insertSymbol { id := ⟨1⟩, kind := .property, name := "M", scope := ⟨1⟩,
                      container := some ⟨0⟩, type := some (.plain ⟨0⟩) }
    |>.insertSymbol { id := ⟨2⟩, kind := .type, name := "Nullable", scope := ⟨0⟩, arity := 1 }
    |>.insertSymbol { id := ⟨3⟩, kind := .parameter, name := "x", scope := ⟨2⟩,
                      type := some (.nullable (.plain ⟨0⟩)) }
    |>.insertSymbol { id := ⟨4⟩, kind := .parameter, name := "y", scope := ⟨2⟩,
                      type := some (.plain ⟨0⟩) }
    |>.insertType { id := ⟨0⟩, kind := .structType }
    |>.insertType { id := ⟨2⟩, kind := .structType }
    |>.register .nullable ⟨2⟩

theorem built_nullableParameter : nullableParameter.Built :=
  .register _ _ (.insertType _ (.insertType _ (.insertSymbol _ (.insertSymbol _ (.insertSymbol _
    (.insertSymbol _ (.insertSymbol _ (.insertScope _ (.insertScope _ (.insertScope _
      .empty))))))))))

def nullableParameterView : Panorama where
  scope := ⟨2⟩
  groups := [
    (⟨2⟩, [[⟨⟨3⟩, none, .applicable, .declared⟩, ⟨⟨4⟩, none, .applicable, .declared⟩]]),
    (⟨0⟩, [[⟨⟨0⟩, none, .applicable, .declared⟩, ⟨⟨2⟩, none, .applicable, .declared⟩], []])]

/-- **A conditional access that does not reach through the wrapper**: behind `x?.M.` nothing is
known, although behind `y.M.` there is a value. -/
theorem resolve_conditional_unbound :
    nullableParameter.resolve .quiet {} 5 (Cursor.ofText "x?.M.").receiver = .ok .unbound ∧
      nullableParameter.resolve .quiet {} 5 (Cursor.ofText "y.M.").receiver =
        .ok (.value (.plain ⟨0⟩)) := by
  decide +kernel

/-- The wrapper has no property, so the conditional access inside the chain does not reach the one
of the value type. -/
theorem resolve_conditional_eq_iff_nullableParameter :
    nullableParameter.Built ∧
      nullableParameter.lookup .quiet {} 5 = .ok nullableParameterView ∧
      nullableParameter.isValueType (.plain ⟨0⟩) = true ∧
      ∃ x y m : Hop, chainText [x, m] = "x?.M." ∧ chainText [y, m] = "y.M." ∧
        nullableParameter.variableType? {} nullableParameterView x.name =
          some (.nullable (.plain ⟨0⟩)) ∧
        nullableParameter.variableType? {} nullableParameterView y.name = some (.plain ⟨0⟩) ∧
        nullableParameter.resolve .quiet {} 5 (Cursor.ofText (chainText [x, m])).receiver ≠
          nullableParameter.resolve .quiet {} 5 (Cursor.ofText (chainText [y, m])).receiver := by
  have hview : nullableParameter.lookup .quiet {} 5 = .ok nullableParameterView := by
    decide +kernel
  have hwrapper : nullableParameter.wellKnown[WellKnown.nullable]? = some ⟨2⟩ := by decide +kernel
  have hvalue : nullableParameter.isValueType (.plain ⟨0⟩) = true := by decide +kernel
  let x : Hop := ⟨"x", false, "?.", by decide, by decide⟩
  let y : Hop := ⟨"y", false, ".", by decide, by decide⟩
  let m : Hop := ⟨"M", false, ".", by decide, by decide⟩
  have hx : nullableParameter.variableType? {} nullableParameterView x.name =
      some (.nullable (.plain ⟨0⟩)) := by decide +kernel
  have hy : nullableParameter.variableType? {} nullableParameterView y.name =
      some (.plain ⟨0⟩) := by decide +kernel
  refine ⟨built_nullableParameter, hview, hvalue, x, y, m, by decide +kernel, by decide +kernel, hx,
    hy, fun heq => ?_⟩
  have hlink : m.operator = Link.dot.operator := rfl
  rcases (resolve_conditional_eq_iff built_nullableParameter hview hwrapper hvalue rfl hlink hx
    hy).1 heq with hunresolved | hmember
  · exact absurd hunresolved (by decide +kernel)
  · exact absurd hmember (by decide +kernel)

end Ambit.Store
