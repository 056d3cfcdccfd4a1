/-
Where symbols are declared.

A variable can be named only behind its declaration; all other symbols can be named throughout their
scopes.  So a look-up reads the place of a declaration in one comparison only, and only for
variables.  Two stores that differ in nothing but the places of declarations have the same look-up
at a position, if the same variables are declared before it.

Main definitions:

* `Ambit.Symbol.unplaced` — a symbol without its place;
* `Ambit.Symbol.SameAt` — symbols that a position tells apart by nothing;
* `Ambit.Store.SameButPlaces` — **stores that differ in the places of symbols only**.

Main results:

* `Ambit.Store.SameButPlaces.typeMembers` — such stores have the same members, up to their places;
* `Ambit.Store.SameButPlaces.entryOf` — the same entry for every symbol that is met;
* `Ambit.Store.SameButPlaces.insertSymbol` — stores stay so when such symbols are inserted;
* `Ambit.Store.lookup_eq_of_sameButPlaces` — **the look-up does not depend on the places**.
-/

import Ambit.Proofs.Agreement
import Ambit.Proofs.Lookup.View
import Ambit.Proofs.Store.Built
import Mathlib.Data.Option.Basic

set_option relaxedAutoImplicit false
set_option autoImplicit false

namespace Ambit

/-! ### Symbols without their places -/

namespace Symbol

/-- The symbol without its place in the text. -/
def unplaced (symbol : Symbol) : Symbol := { symbol with span := none }

/-- Two symbols that differ in their places at most.  If they are variables, both or neither is
declared before the position. -/
structure SameAt (position : UInt64) (a b : Symbol) : Prop where
  /-- Everything beside the place is the same. -/
  rest : ∃ span, b = { a with span }
  before : a.kind.isTextuallyScoped = true →
    b.isDeclaredBefore position = a.isDeclaredBefore position

variable {xs ys : List Symbol} (h : ys.map unplaced = xs.map unplaced)
include h

/-- What is said of symbols without a look at their places is the same for both lists. -/
theorem map_of_unplaced {β : Type} (f : Symbol → β) (hf : ∀ a : Symbol, f a.unplaced = f a) :
    ys.map f = xs.map f := by
  have hmap : ∀ zs : List Symbol, zs.map f = (zs.map unplaced).map f := by
    intro zs
    rw [List.map_map]
    exact List.map_congr_left fun a _ => (hf a).symm
  rw [hmap ys, hmap xs, h]

/-- A condition that does not look at places selects the same symbols. -/
theorem filter_of_unplaced (admits : Symbol → Bool)
    (hadmits : ∀ a : Symbol, admits a.unplaced = admits a) :
    (ys.filter admits).map unplaced = (xs.filter admits).map unplaced := by
  have hfilter : ∀ zs : List Symbol,
      (zs.filter admits).map unplaced = (zs.map unplaced).filter admits := by
    intro zs
    rw [List.filter_map]
    exact congrArg _ (List.filter_congr fun a _ => (hadmits a).symm)
  rw [hfilter ys, hfilter xs, h]

end Symbol

/-- The member without the place of its declaration. -/
def Member.unplaced (m : Member) : Member := { m with symbol := m.symbol.unplaced }

namespace Store

/-- **Stores that differ in the places of symbols only**, and in which the same variables are
declared before the position. -/
structure SameButPlaces (position : UInt64) (s s' : Store) : Prop where
  /-- Everything beside the table of symbols is the same. -/
  rest : { s' with symbols := s.symbols } = s
  symbols : ∀ id : SymbolId, Option.Rel (Symbol.SameAt position) s.symbols[id]? s'.symbols[id]?

namespace SameButPlaces

variable {s s' : Store} {position : UInt64} (h : s.SameButPlaces position s')
include h

/-! ### Facts -/

theorem scopes : s'.scopes = s.scopes := by rw [← h.rest]

theorem signatures : s'.signatures = s.signatures := by rw [← h.rest]

theorem typeParamsOf : s'.typeParamsOf = s.typeParamsOf := by
  have hlists : s'.paramLists = s.paramLists := by rw [← h.rest]
  funext owner
  rw [Store.typeParamsOf, Store.typeParamsOf, hlists]

theorem body? : s'.body? = s.body? := by
  have hbodies : s'.bodies = s.bodies := by rw [← h.rest]
  funext owner
  rw [Store.body?, Store.body?, hbodies, h.scopes]

/-- A symbol is in both stores or in neither, and in both it is the same up to its place. -/
theorem symbol_cases (id : SymbolId) :
    (s.symbols[id]? = none ∧ s'.symbols[id]? = none) ∨
      ∃ a span, s.symbols[id]? = some a ∧ s'.symbols[id]? = some { a with span } ∧
        (a.kind.isTextuallyScoped = true →
          Symbol.isDeclaredBefore { a with span } position = a.isDeclaredBefore position) := by
  have hsame := h.symbols id
  generalize s.symbols[id]? = before, s'.symbols[id]? = after at hsame
  cases hsame with
  | none => exact Or.inl ⟨rfl, rfl⟩
  | @some a b hsame =>
      obtain ⟨span, rfl⟩ := hsame.rest
      exact Or.inr ⟨a, span, rfl, rfl, hsame.before⟩

theorem nameOf : s'.nameOf = s.nameOf := by
  funext id
  rcases h.symbol_cases id with ⟨hs, hs'⟩ | ⟨a, span, hs, hs', -⟩
  · rw [Store.nameOf, Store.nameOf, hs, hs']
  · rw [Store.nameOf, Store.nameOf, hs, hs']

theorem typeOf? : s'.typeOf? = s.typeOf? := by
  funext id
  rcases h.symbol_cases id with ⟨hs, hs'⟩ | ⟨a, span, hs, hs', -⟩
  · rw [Store.typeOf?, Store.typeOf?, hs, hs']
  · rw [Store.typeOf?, Store.typeOf?, hs, hs', h.typeParamsOf]

theorem symbolsIn (scope : ScopeId) :
    (s'.symbolsIn scope).map Symbol.unplaced = (s.symbolsIn scope).map Symbol.unplaced := by
  have hindex : s'.scopeIndex = s.scopeIndex := by rw [← h.rest]
  -- a symbol keeps its number in whatever place it stands
  have hid : ∀ symbol : Symbol, symbol.unplaced.id = symbol.id := fun _ => rfl
  rw [Store.symbolsIn, Store.symbolsIn, Index.map_read hid, Index.map_read hid, hindex]
  refine congrArg _ (List.filterMap_congr fun id _ => ?_)
  rcases h.symbol_cases id with ⟨hs, hs'⟩ | ⟨a, span, hs, hs', -⟩
  · rw [hs, hs']
  · rw [hs, hs']
    rfl

/-! ### Types -/

theorem sameLineage : s.SameLineage s' where
  types := by rw [← h.rest]
  typeParams := by rw [← h.rest]
  wellKnown := by rw [← h.rest]
  typeParamsOf := h.typeParamsOf
  nameOf := h.nameOf
  typeOf? := h.typeOf?

theorem membersOf (type : SymbolId) :
    (s'.membersOf type).map Symbol.unplaced = (s.membersOf type).map Symbol.unplaced := by
  rw [Store.membersOf, Store.membersOf, h.body?]
  split
  · rfl
  · exact Symbol.filter_of_unplaced (h.symbolsIn _) _ fun _ => rfl

theorem namedMembers (t : TypeRef) :
    (s'.namedMembers t).map Symbol.unplaced = (s.namedMembers t).map Symbol.unplaced := by
  cases t with
  | named d args => exact Symbol.filter_of_unplaced (h.membersOf d) _ fun _ => rfl
  | param _ | nullable _ | array _ _ | unresolved => rfl

theorem unhiddenMembers (hidden : Hiding) (inherited : Bool) (ts : List TypeRef) :
    (s'.unhiddenMembers hidden inherited ts).map Member.unplaced =
      (s.unhiddenMembers hidden inherited ts).map Member.unplaced := by
  have hkey : s'.methodKey = s.methodKey := by
    funext method
    rw [methodKey, methodKey, paramCount?, paramCount?, h.signatures]
  induction ts generalizing hidden inherited with
  | nil => rfl
  | cons t ts ih =>
      have hhidden : s'.isHidden hidden = s.isHidden hidden := by
        funext m
        rw [isHidden, isHidden, hkey]
      rw [Store.unhiddenMembers, Store.unhiddenMembers, hhidden]
      -- the members that are not hidden are the same up to places, and so hide the same
      have hown := Symbol.filter_of_unplaced (h.namedMembers t) (fun m => !s.isHidden hidden m)
        fun _ => rfl
      generalize (s'.namedMembers t).filter (fun m => !s.isHidden hidden m) = own',
        (s.namedMembers t).filter (fun m => !s.isHidden hidden m) = own at hown ⊢
      have hhide : s'.hide hidden own' = s.hide hidden own := by
        have hnames := Symbol.map_of_unplaced
          (Symbol.filter_of_unplaced hown (fun m => m.kind != .method) fun _ => rfl) Symbol.name
          fun _ => rfl
        have hmethods := Symbol.map_of_unplaced
          (Symbol.filter_of_unplaced hown (fun m => m.kind == .method) fun _ => rfl) s.methodKey
          fun _ => rfl
        rw [hide, hide, hkey, hnames, hmethods]
      have hlisted := Symbol.map_of_unplaced hown
        (fun m => (⟨m.unplaced, t, inherited⟩ : Member)) fun _ => rfl
      rw [hhide, List.map_append, List.map_append, ih, List.map_map, List.map_map]
      exact congrArg (· ++ _) hlisted

/-- Every type has the same members, up to their places, or the same fault. -/
theorem typeMembers (signal : Signal) (t : TypeRef) :
    (s'.typeMembers signal t).map (List.map Member.unplaced) =
      (s.typeMembers signal t).map (List.map Member.unplaced) := by
  have htypes : s'.memberTypes = s.memberTypes := by
    funext signal t
    rw [memberTypes, memberTypes, h.sameLineage.supertypes, h.sameLineage.isInterface,
      h.sameLineage.plainWellKnown?]
  rw [Store.typeMembers, Store.typeMembers, h.sameLineage.normalize, htypes]
  split
  · rfl
  · cases s.memberTypes signal (s.normalize t) with
    | error fault => rfl
    | ok ts => exact congrArg Except.ok (h.unhiddenMembers {} false ts)

/-! ### Groups of symbols -/

theorem declaredIn (scope : ScopeId) (admits : Symbol → Bool)
    (hadmits : ∀ a : Symbol, admits a.unplaced = admits a) :
    s'.declaredIn scope admits = s.declaredIn scope admits :=
  Symbol.map_of_unplaced (Symbol.filter_of_unplaced (h.symbolsIn scope) admits hadmits) _
    fun _ => rfl

theorem importedTypes : s'.importedTypes = s.importedTypes := by
  funext nameSpace
  rw [Store.importedTypes, Store.importedTypes, h.body?]
  split
  · rfl
  · exact Symbol.map_of_unplaced
      (Symbol.filter_of_unplaced (h.symbolsIn _) (fun symbol => symbol.kind == .type) fun _ => rfl)
      _ fun _ => rfl

theorem ownGroup : s'.ownGroup = s.ownGroup := by
  funext scope
  rw [Store.ownGroup, Store.ownGroup, h.declaredIn _ _ fun _ => rfl, h.typeParamsOf]

theorem memberGroup : s'.memberGroup = s.memberGroup := by
  funext signal scope
  rw [Store.memberGroup, Store.memberGroup, h.typeOf?, h.declaredIn _ _ fun _ => rfl]
  split
  · rfl
  · rename_i self _
    -- a finding keeps nothing of the place of its member
    have hfindings : ∀ {f : Member → Finding}, (∀ m : Member, f m.unplaced = f m) →
        ∀ members : Answer (List Member), (do return (← members).map f) =
          (members.map (List.map Member.unplaced)).map (List.map f) := by
      intro f hf members
      cases members with
      | error fault => rfl
      | ok ms =>
          refine congrArg Except.ok ?_
          rw [List.map_map]
          exact List.map_congr_left fun m _ => (hf m).symm
    rw [hfindings fun _ => rfl, hfindings fun _ => rfl, h.typeMembers]

theorem groupsOf : s'.groupsOf = s.groupsOf := by
  funext signal scope
  rw [Store.groupsOf, Store.groupsOf, h.memberGroup, h.importedTypes, h.ownGroup,
    h.declaredIn scope.id (fun symbol => symbol.kind == .typeParameter) fun _ => rfl,
    h.declaredIn scope.id (fun _ => true) fun _ => rfl]

/-! ### Footings -/

theorem leave : s'.leave = s.leave := by
  have hstatic : s'.isStaticFunction = s.isStaticFunction := by
    funext scope
    rw [isStaticFunction, isStaticFunction]
    cases scope.owner with
    | none => rfl
    | some owner =>
        rcases h.symbol_cases owner with ⟨hs, hs'⟩ | ⟨a, span, hs, hs', -⟩
        · rw [Option.bind_some, Option.bind_some, hs, hs']
        · rw [Option.bind_some, Option.bind_some, hs, hs']
          rfl
  funext f scope
  rw [Store.leave, Store.leave, hstatic]

/-! ### Entries -/

/-- The only comparison with a place is the one that the stores agree on. -/
theorem scopingVerdict {a : Symbol} {span : Option Text.Span}
    (hbefore : a.kind.isTextuallyScoped = true →
      Symbol.isDeclaredBefore { a with span } position = a.isDeclaredBefore position)
    {o : Outlook} (ho : o.position = position) (f : Footing) :
    s'.scopingVerdict o f { a with span } = s.scopingVerdict o f a := by
  have hlater : (a.kind.isTextuallyScoped && !Symbol.isDeclaredBefore { a with span } o.position) =
      (a.kind.isTextuallyScoped && !a.isDeclaredBefore o.position) := by
    rw [ho]
    cases htextual : a.kind.isTextuallyScoped with
    | false => rfl
    | true => rw [hbefore htextual]
  have hmember : s'.memberVerdict o f { a with span } = s.memberVerdict o f a := by
    rw [memberVerdict, memberVerdict, h.sameLineage.canAccess]
    rfl
  rw [Store.scopingVerdict, Store.scopingVerdict, hlater, hmember]
  rfl

/-- A symbol that is met has the same entry. -/
theorem entryOf {o : Outlook} (ho : o.position = position) : s'.entryOf o = s.entryOf o := by
  funext f bound found
  rw [Store.entryOf, Store.entryOf]
  rcases h.symbol_cases found.symbol with ⟨hs, hs'⟩ | ⟨a, span, hs, hs', hbefore⟩
  · rw [hs, hs']
  · rw [hs, hs']
    dsimp only
    rw [h.scopingVerdict hbefore ho]

theorem boundName? : s'.boundName? = s.boundName? := by
  funext o e
  rw [Store.boundName?, Store.boundName?]
  rcases h.symbol_cases e.symbol with ⟨hs, hs'⟩ | ⟨a, span, hs, hs', -⟩
  · rw [hs, hs']
  · rw [hs, hs', Option.map_some, Option.map_some]

/-! ### The look-up -/

/-- Stores that differ in places only look the same from the position. -/
theorem sameView : s.SameView position s' where
  scopes := h.scopes
  groupsOf := h.groupsOf
  leave := h.leave
  entryOf := fun _ ho => h.entryOf ho
  boundName? := h.boundName?

omit h

theorem refl (position : UInt64) (s : Store) : s.SameButPlaces position s where
  rest := rfl
  symbols := fun id => by
    cases s.symbols[id]? with
    | none => exact .none
    | some a => exact .some ⟨⟨a.span, rfl⟩, fun _ => rfl⟩

include h

/-- Stores go on to differ in places only when symbols are inserted that do. -/
theorem insertSymbol {a b : Symbol} (hab : a.SameAt position b) :
    (s.insertSymbol a).SameButPlaces position (s'.insertSymbol b) := by
  obtain ⟨span, rfl⟩ := hab.rest
  constructor
  · -- the indexes move the number of the symbol from the same places to the same places
    have hold : ∀ {β : Type} (f : Symbol → β), (∀ symbol : Symbol, f symbol.unplaced = f symbol) →
        (s'.symbols[a.id]?.bind fun old => some (f old)) =
          s.symbols[a.id]?.bind fun old => some (f old) := by
      intro β f hf
      rcases h.symbol_cases a.id with ⟨hs, hs'⟩ | ⟨old, place, hs, hs', -⟩
      · rw [hs, hs']
      · rw [hs, hs', Option.bind_some, Option.bind_some, ← hf old, ← hf]
        rfl
    have hrest := h.rest
    rw [insertSymbol_eq, insertSymbol_eq, hold Symbol.scope fun _ => rfl,
      hold Symbol.name fun _ => rfl, ← hrest]
  · intro id
    rw [symbols_insertSymbol, symbols_insertSymbol]
    by_cases hid : a.id = id
    · rw [if_pos hid, if_pos hid]
      exact .some hab
    · rw [if_neg hid, if_neg hid]
      exact h.symbols id

end SameButPlaces

/-- **The look-up does not depend on the places of declarations**, beyond which variables are
declared before the position: it has the same scope, the same entries in the same order with the
same verdicts and the same instance, or the same fault. -/
theorem lookup_eq_of_sameButPlaces {s s' : Store} {position : UInt64}
    (h : s.SameButPlaces position s') (signal : Signal) (options : Options) :
    s'.lookup signal options position = s.lookup signal options position :=
  h.sameView.lookup signal options

/-- A block with a local function and two variables, declared at the given places. -/
def smallBlock (function early late : UInt64) : Store :=
  Store.empty
    |>.insertScope { id := ⟨0⟩, kind := .block, span := ⟨0, 100⟩ }
    |>.insertSymbol
      { id := ⟨0⟩, kind := .localFunction, name := "f", scope := ⟨0⟩, span := some ⟨function, 99⟩ }
    |>.insertSymbol
      { id := ⟨1⟩, kind := .localVariable, name := "x", scope := ⟨0⟩, span := some ⟨early, 99⟩ }
    |>.insertSymbol
      { id := ⟨2⟩, kind := .localVariable, name := "y", scope := ⟨0⟩, span := some ⟨late, 99⟩ }

/-- The function moves across the position and can be named from it wherever it stands; each
variable moves on its own side. -/
theorem lookup_eq_of_sameButPlaces_smallBlock :
    smallBlock 50 20 60 ≠ smallBlock 10 30 70 ∧
      (smallBlock 10 30 70).lookup .quiet {} 40 = (smallBlock 50 20 60).lookup .quiet {} 40 ∧
      (smallBlock 50 20 60).lookup .quiet {} 40 = .ok
        { scope := ⟨0⟩
          groups := [(⟨0⟩, [[⟨⟨0⟩, none, .applicable, .declared⟩,
            ⟨⟨1⟩, none, .applicable, .declared⟩,
            ⟨⟨2⟩, none, .excluded .declaredLater, .declared⟩]])] } := by
  have hsame : (smallBlock 50 20 60).SameButPlaces 40 (smallBlock 10 30 70) :=
    (((SameButPlaces.refl 40 _).insertSymbol ⟨⟨_, rfl⟩, by decide⟩).insertSymbol
      ⟨⟨_, rfl⟩, by decide⟩).insertSymbol ⟨⟨_, rfl⟩, by decide⟩
  refine ⟨fun heq => ?_, lookup_eq_of_sameButPlaces hsame .quiet {}, by decide +kernel⟩
  have hspan : (smallBlock 50 20 60).symbols[(⟨0⟩ : SymbolId)]?.map Symbol.span =
      (smallBlock 10 30 70).symbols[(⟨0⟩ : SymbolId)]?.map Symbol.span := by rw [heq]
  revert hspan
  decide +kernel

end Store

end Ambit
