/-
What a statement adds to a sketch.

A statement about a text leaves the text as it is.  It adds symbols, it may change the modifiers and
the type of symbols that are there, and it never moves one: the symbols that have a place in the
text afterwards had the same name and the same place before, or the statement has given them one.
So what can be said about the names and places of a whole sketch is what can be said about the ones
that its statements give.

Main definitions:

* `Ambit.Store.Places` — a store has a symbol of a name at a place;
* `Ambit.Store.Grows` — a store that places what another one places, or what is new;
* `Ambit.Sketch.Extends` — **a sketch with the text of another one**, whose placed symbols come from
  there or are new.

Main results:

* `Ambit.Sketch.stands_of_locate`, `Ambit.Sketch.stands_of_locateWord` — words are found where they
  stand;
* `Ambit.Sketch.Prelude.keeps_declare` — the prelude places nothing;
* `Ambit.Sketch.extends_declareType`, `Ambit.Sketch.extends_declareFunction`, … — **what the
  declarations add**.
-/

import Ambit.Proofs.Sketch.Header
import Ambit.Proofs.Store.Built
import Ambit.Sketch

set_option relaxedAutoImplicit false
set_option autoImplicit false

namespace Ambit

open Ambit.Text

/-! ### Symbols -/

namespace Symbol

@[simp] theorem withModifier_name (s : Symbol) (m : Modifier) :
    (s.withModifier m).name = s.name := by
  rw [withModifier]
  split <;> rfl

@[simp] theorem withModifier_span (s : Symbol) (m : Modifier) :
    (s.withModifier m).span = s.span := by
  rw [withModifier]
  split <;> rfl

@[simp] theorem withModifiers_name (s : Symbol) (ms : List Modifier) :
    (s.withModifiers ms).name = s.name := by
  rw [withModifiers]
  induction ms generalizing s with
  | nil => rfl
  | cons m ms ih => rw [List.foldl_cons, ih, withModifier_name]

@[simp] theorem withModifiers_span (s : Symbol) (ms : List Modifier) :
    (s.withModifiers ms).span = s.span := by
  rw [withModifiers]
  induction ms generalizing s with
  | nil => rfl
  | cons m ms ih => rw [List.foldl_cons, ih, withModifier_span]

end Symbol

/-! ### Stores -/

namespace Store

variable {new : String → Span → Prop} {s s' s'' : Store}

@[simp] theorem symbols_insertScope (s : Store) (scope : Scope) :
    (s.insertScope scope).symbols = s.symbols := by
  rw [insertScope, unlistScope]
  split <;> rfl

theorem symbols_foldl {α : Type} {f : Store → α → Store}
    (h : ∀ s a, (f s a).symbols = s.symbols) (as : List α) (s : Store) :
    (as.foldl f s).symbols = s.symbols := by
  induction as generalizing s with
  | nil => rfl
  | cons a as ih => rw [List.foldl_cons, ih, h]

/-- The store has a symbol of a name at a place of the text. -/
def Places (s : Store) (name : String) (span : Span) : Prop :=
  ∃ (id : SymbolId) (symbol : Symbol),
    s.symbols[id]? = some symbol ∧ symbol.name = name ∧ symbol.span = some span

/-- A store that places what another one places, or what is new. -/
def Grows (new : String → Span → Prop) (s s' : Store) : Prop :=
  ∀ name span, s'.Places name span → s.Places name span ∨ new name span

theorem Grows.of_symbols (h : s'.symbols = s.symbols) : s.Grows new s' := by
  rintro name span ⟨id, symbol, hsymbol, hplace⟩
  exact .inl ⟨id, symbol, h ▸ hsymbol, hplace⟩

theorem Grows.trans (h : s.Grows new s') (h' : s'.Grows new s'') : s.Grows new s'' := by
  intro name span hplaces
  rcases h' name span hplaces with hplaces | hnew
  · exact h name span hplaces
  · exact .inr hnew

/-- Inserting a symbol, when its name and place are new or there before. -/
theorem grows_insertSymbol {symbol : Symbol}
    (h : ∀ span, symbol.span = some span → s.Places symbol.name span ∨ new symbol.name span) :
    s.Grows new (s.insertSymbol symbol) := by
  rintro name span ⟨id, found, hfound, rfl, hspan⟩
  rw [symbols_insertSymbol] at hfound
  split at hfound
  · cases hfound
    exact h span hspan
  · exact .inl ⟨id, found, hfound, rfl, hspan⟩

theorem grows_addSymbol {make : SymbolId → Symbol}
    (h : ∀ id span, (make id).span = some span → new (make id).name span) :
    s.Grows new (s.addSymbol make).2 := by
  have hdraw : s.Grows new s.drawSymbol.2 := .of_symbols rfl
  exact hdraw.trans (grows_insertSymbol fun span hspan => .inr (h _ span hspan))

theorem grows_addTypeParams (s : Store) (owner : SymbolId) (scope : ScopeId) (fromMetadata : Bool)
    (ordinal : UInt32) (names : List String) :
    s.Grows new (s.addTypeParams owner scope fromMetadata ordinal names).2 := by
  induction names generalizing s ordinal with
  | nil => exact .of_symbols rfl
  | cons name names ih =>
      have hadd : s.Grows new (s.addSymbol fun id =>
          { id, kind := .typeParameter, name, scope, fromMetadata }).2 :=
        grows_addSymbol fun id span hspan => nomatch hspan
      exact (hadd.trans (.of_symbols rfl)).trans (ih _ _)

end Store

/-! ### The prelude -/

namespace Sketch.Prelude

variable {new : String → Span → Prop} {α β : Type}

/-- Work on a store that gives new places only. -/
def Keeps (new : String → Span → Prop) (m : StateM Store α) : Prop :=
  ∀ s : Store, s.Grows new (m s).2

theorem Keeps.bind {m : StateM Store α} {f : α → StateM Store β} (h : Keeps new m)
    (h' : ∀ a, Keeps new (f a)) : Keeps new (m >>= f) :=
  fun s => (h s).trans (h' _ _)

theorem keeps_pure (a : α) : Keeps new (pure a) := fun _ => .of_symbols rfl

theorem keeps_modify {f : Store → Store} (h : ∀ s, (f s).symbols = s.symbols) :
    Keeps new (modify f) := fun s => .of_symbols (h s)

theorem keeps_nameSpace (name : String) (parent : ScopeId) : Keeps new (nameSpace name parent) := by
  intro s
  have hadd : s.Grows new (s.addSymbol fun id =>
      { id, kind := .nameSpace, name, scope := parent, fromMetadata := true }).2 :=
    Store.grows_addSymbol fun id span hspan => nomatch hspan
  exact hadd.trans (.of_symbols (Store.symbols_insertScope _ _))

theorem keeps_type (scope : ScopeId) (name : String) (kind : TypeKind) (modifiers : List Modifier)
    (params : List String) : Keeps new (type scope name kind modifiers params) := by
  intro s
  have hadd : s.Grows new (s.addSymbol fun id =>
      { id, kind := .type, name, scope, modifiers, arity := params.length.toUInt32,
        fromMetadata := true }).2 :=
    Store.grows_addSymbol fun id span hspan => nomatch hspan
  refine Store.Grows.trans (hadd.trans (.of_symbols ?_)) (Store.grows_addTypeParams _ _ _ _ _ _)
  exact Store.symbols_insertScope _ _

theorem keeps_member (owner : Declared) (kind : SymbolKind) (name : String) (type : TypeRef)
    (modifiers : List Modifier) : Keeps new (member owner kind name type modifiers) :=
  fun _ => Store.grows_addSymbol fun _ _ hspan => nomatch hspan

theorem keeps_method (owner : Declared) (name : String) (params : List Parameter)
    (returns : Option TypeRef) (modifiers : List Modifier) :
    Keeps new (method owner name params returns modifiers) := by
  intro s
  have hadd : s.Grows new (s.addSymbol fun id =>
      { id, kind := .method, name, scope := owner.body, container := some owner.id, modifiers,
        type := returns, fromMetadata := true }).2 :=
    Store.grows_addSymbol fun id span hspan => nomatch hspan
  exact hadd.trans (.of_symbols rfl)

/-- **The prelude places nothing** in the text. -/
theorem keeps_declare (around : ScopeId) : Keeps new (declare around) := by
  rw [declare]
  refine .bind (keeps_nameSpace _ _) fun ⟨system, scope⟩ => ?_
  -- the types, of which two are completed after they are declared
  iterate 3 refine .bind (keeps_type _ _ _ _ _) fun _ => ?_
  refine .bind (keeps_modify fun _ => rfl) fun _ => ?_
  iterate 4 refine .bind (keeps_type _ _ _ _ _) fun _ => ?_
  refine .bind (keeps_modify fun _ => rfl) fun _ => ?_
  iterate 7 refine .bind (keeps_type _ _ _ _ _) fun _ => ?_
  -- their members
  iterate 4 refine .bind (keeps_method _ _ _ _ _) fun _ => ?_
  iterate 2 refine .bind (keeps_member _ _ _ _ _) fun _ => ?_
  iterate 2 refine .bind (keeps_method _ _ _ _ _) fun _ => ?_
  iterate 2 refine .bind (keeps_member _ _ _ _ _) fun _ => ?_
  iterate 4 refine .bind (keeps_method _ _ _ _ _) fun _ => ?_
  refine .bind (keeps_member _ _ _ _ _) fun _ => ?_
  refine .bind (keeps_method _ _ _ _ _) fun _ => ?_
  refine .bind (keeps_modify fun s => Store.symbols_foldl ?_ _ s) fun _ => keeps_pure _
  exact fun _ _ => rfl

end Sketch.Prelude

/-! ### Finding words -/

namespace Sketch

variable {k k' k'' : Sketch} {new : String → Span → Prop} {scope : ScopeId} {n : ℕ}

theorem Outcome.bind_eq_ok {α β : Type} {a : Outcome α} {f : α → Outcome β} {b : β} :
    a >>= f = .ok b ↔ ∃ x, a = .ok x ∧ f x = .ok b := by
  cases a with
  | error flaw => simp [bind, Except.bind]
  | ok x => simp [bind, Except.bind]

theorem Outcome.pure_eq_ok {α : Type} {a b : α} : (pure a : Outcome α) = .ok b ↔ a = b :=
  ⟨Except.ok.inj, congrArg Except.ok⟩

/-- A scope covers the part of the text between its offsets, if there is one. -/
theorem region_eq_ok_iff {start : ℕ} {part : List Char} :
    k.region scope = .ok (start, part) ↔ start = (k.range scope).1 ∧
      between? (k.range scope).1 (k.range scope).2 k.text.toList = some part := by
  rw [region]
  dsimp only
  split
  · rename_i hpart
    rw [hpart, Except.ok.injEq, Prod.mk.injEq, Option.some.injEq, eq_comm (a := start)]
  · rename_i hnone
    simp [hnone]

theorem splits_region {start : ℕ} {part : List Char} (h : k.region scope = .ok (start, part)) :
    Splits k.text.toList part start := by
  obtain ⟨rfl, hpart⟩ := region_eq_ok_iff.1 h
  obtain ⟨before, after, htext, hstart, -⟩ := between?_eq_some_iff.1 hpart
  exact ⟨before, after, htext.symm, hstart⟩

theorem splits_of_wordIn {text : List Char} {word : String} (h : wordIn text word = .ok n) :
    Splits text word.toList n := by
  rw [wordIn] at h
  split at h
  · cases h
    exact splits_of_search ‹_›
  · cases h

/-- In the part that a scope covers, words are found where the search finds them. -/
theorem locate_eq_ok_iff_search {needle : String} {start : ℕ} {part : List Char}
    (h : k.region scope = .ok (start, part)) : k.locate scope needle = .ok n ↔
      ∃ m, start + m = n ∧ search needle.toList part (admits needle.toList) = some m := by
  rw [locate, h]
  dsimp only [bind, Except.bind]
  split
  · rename_i m hm
    simp [hm]
  · rename_i hnone
    simp [hnone]

/-- **Words are found where they stand.** -/
theorem stands_of_locate {needle : String} (h : k.locate scope needle = .ok n) :
    Stands k.text.toList needle.toList n := by
  obtain ⟨⟨start, part⟩, hregion, -⟩ := Outcome.bind_eq_ok.1 h
  obtain ⟨m, rfl, hm⟩ := (locate_eq_ok_iff_search hregion).1 h
  exact (splits_region hregion).stands.inside (splits_of_search hm)

theorem stands_of_locateWord {word : String} (h : k.locateWord scope word = .ok n) :
    Stands k.text.toList word.toList n := by
  obtain ⟨⟨start, part⟩, hregion, h⟩ := Outcome.bind_eq_ok.1 h
  obtain ⟨m, hm, hn⟩ := Outcome.bind_eq_ok.1 h
  cases hn
  exact (splits_region hregion).stands.inside (splits_of_wordIn hm)

theorem stands_of_locateName {needle name : String} (h : k.locateName scope needle name = .ok n) :
    Stands k.text.toList name.toList n := by
  obtain ⟨start, hstart, h⟩ := Outcome.bind_eq_ok.1 h
  obtain ⟨m, hm, hn⟩ := Outcome.bind_eq_ok.1 h
  cases hn
  exact (stands_of_locate hstart).inside (splits_of_wordIn hm)

/-! ### What is added -/

/-- **A sketch with the text of another one**, which places what the other one places, or what is
new. -/
structure Extends (new : String → Span → Prop) (k k' : Sketch) : Prop where
  text_eq : k'.text = k.text
  grows : k.store.Grows new k'.store

theorem Extends.of_symbols (htext : k'.text = k.text) (h : k'.store.symbols = k.store.symbols) :
    k.Extends new k' :=
  ⟨htext, .of_symbols h⟩

theorem Extends.rfl : k.Extends new k := .of_symbols (Eq.refl _) (Eq.refl _)

theorem Extends.trans (h : k.Extends new k') (h' : k'.Extends new k'') : k.Extends new k'' :=
  ⟨h'.text_eq.trans h.text_eq, h.grows.trans h'.grows⟩

theorem Extends.withStore {store : Store} (h : k.Extends new k')
    (hsymbols : store.symbols = k'.store.symbols) : k.Extends new { k' with store } :=
  h.trans (.of_symbols (Eq.refl _) hsymbols)

theorem Extends.mono {new' : String → Span → Prop} (h : k.Extends new k')
    (hle : ∀ name span, new name span → new' name span) : k.Extends new' k' where
  text_eq := h.text_eq
  grows := fun name span hplaces => (h.grows name span hplaces).imp_right (hle name span)

theorem extends_addSymbol {make : SymbolId → Symbol}
    (h : ∀ id span, (make id).span = some span → new (make id).name span) :
    k.Extends new (k.addSymbol make).2 :=
  ⟨rfl, Store.grows_addSymbol h⟩

theorem extends_addPlaced {make : SymbolId → Symbol} {name : String} {span : Span}
    (hname : ∀ id, (make id).name = name) (hspan : ∀ id, (make id).span = some span)
    (h : new name span) : k.Extends new (k.addSymbol make).2 := by
  refine extends_addSymbol fun id span' hplace => ?_
  rw [hspan] at hplace
  cases hplace
  rwa [hname]

theorem extends_addScope {make : ScopeId → Scope} : k.Extends new (k.addScope make).2 :=
  .of_symbols rfl (Store.symbols_insertScope _ _)

theorem extends_addTypeParams {owner : SymbolId} {body : ScopeId} {names : List String} :
    k.Extends new (k.addTypeParams owner body names).2 :=
  ⟨rfl, Store.grows_addTypeParams _ _ _ _ _ _⟩

theorem extends_reviseSymbol {id : SymbolId} {change : Symbol → Symbol}
    (hname : ∀ s, (change s).name = s.name) (hspan : ∀ s, (change s).span = s.span) :
    k.Extends new (k.reviseSymbol id change) := by
  rw [reviseSymbol]
  split
  · rename_i symbol hsymbol
    refine ⟨rfl, Store.grows_insertSymbol fun span hplace => .inl ⟨id, symbol, hsymbol, ?_, ?_⟩⟩
    · exact (hname symbol).symm
    · exact (hspan symbol).symm.trans hplace
  · exact .rfl

/-! ### Declarations -/

/-- The names and places that a header gives where it stands. -/
def HeaderGives (new : String → Span → Prop) (text header : String) : Prop :=
  ∀ start, Stands text.toList header.toList start →
    new (Header.ofChars header.toList).name ((Header.ofChars header.toList).nameSpan start)

/-- The places of a name where it stands. -/
def NameGives (new : String → Span → Prop) (text name : String) : Prop :=
  ∀ start, Stands text.toList name.toList start → new name (nameAt name start)

theorem extends_declareType {parent : ScopeId} {header : String} {kind : TypeKind}
    {r : Declared × Sketch} (h : k.declareType parent header kind = .ok r)
    (hnew : HeaderGives new k.text header) : k.Extends new r.2 := by
  obtain ⟨start, hstart, h⟩ := Outcome.bind_eq_ok.1 h
  dsimp only at h
  obtain rfl := Outcome.pure_eq_ok.1 h
  dsimp only
  refine .trans ?_ extends_addTypeParams
  refine .trans ?_ extends_addScope
  refine .withStore (extends_addPlaced ?_ ?_ (hnew start (stands_of_locate hstart))) rfl
  · exact fun _ => Symbol.withModifiers_name _ _
  · exact fun _ => Symbol.withModifiers_span _ _

theorem extends_declareEnumMembers {enumeration : Declared} {names : List String}
    (h : declareEnumMembers enumeration k names = .ok k')
    (hnew : ∀ name ∈ names, NameGives new k.text name) : k.Extends new k' := by
  induction names generalizing k with
  | nil =>
      cases h
      exact .rfl
  | cons name names ih =>
      obtain ⟨start, hstart, h⟩ := Outcome.bind_eq_ok.1 h
      obtain ⟨hname, hnames⟩ := List.forall_mem_cons.1 hnew
      dsimp only at h
      have hfirst := hname start (stands_of_locateWord hstart)
      exact .trans (extends_addPlaced (fun _ => rfl) (fun _ => rfl) hfirst) (ih h hnames)

theorem extends_declareEnum {parent : ScopeId} {header : String} {members : List String}
    {r : Declared × Sketch} (h : k.declareEnum parent header members = .ok r)
    (hheader : HeaderGives new k.text header)
    (hmembers : ∀ name ∈ members, NameGives new k.text name) : k.Extends new r.2 := by
  obtain ⟨⟨enumeration, k₁⟩, hdeclared, h⟩ := Outcome.bind_eq_ok.1 h
  obtain ⟨k₂, hk₂, h⟩ := Outcome.bind_eq_ok.1 h
  obtain rfl := Outcome.pure_eq_ok.1 h
  have htype := extends_declareType hdeclared hheader
  refine htype.trans (extends_declareEnumMembers hk₂ ?_)
  rw [htype.text_eq]
  exact hmembers

theorem extends_declareNamespace {parent : ScopeId} {header : String} {r : Declared × Sketch}
    (h : k.declareNamespace parent header = .ok r) (hnew : HeaderGives new k.text header) :
    k.Extends new r.2 := by
  obtain ⟨start, hstart, h⟩ := Outcome.bind_eq_ok.1 h
  dsimp only at h
  obtain rfl := Outcome.pure_eq_ok.1 h
  dsimp only
  refine .trans ?_ extends_addScope
  exact extends_addPlaced (fun _ => rfl) (fun _ => rfl) (hnew start (stands_of_locate hstart))

/-- What is special to a kind of function does not concern its name and its place. -/
theorem extends_declareFunction {parent : ScopeId} {header : String} {kind : SymbolKind}
    {bodyKind : ScopeKind} {complete : Header → Symbol → Symbol} {r : Declared × Sketch}
    (h : k.declareFunction parent header kind bodyKind complete = .ok r)
    (hname : ∀ parsed s, (complete parsed s).name = s.name)
    (hspan : ∀ parsed s, (complete parsed s).span = s.span)
    (hnew : HeaderGives new k.text header) : k.Extends new r.2 := by
  obtain ⟨start, hstart, h⟩ := Outcome.bind_eq_ok.1 h
  dsimp only at h
  split at h
  · cases h
  · obtain rfl := Outcome.pure_eq_ok.1 h
    dsimp only
    refine .trans ?_ extends_addTypeParams
    refine .trans ?_ extends_addScope
    refine .withStore (extends_addPlaced ?_ ?_ (hnew start (stands_of_locate hstart))) rfl
    · exact fun _ => (hname _ _).trans (Symbol.withModifiers_name _ _)
    · exact fun _ => (hspan _ _).trans (Symbol.withModifiers_span _ _)

theorem extends_declareMethod {type : Declared} {header : String} {r : Declared × Sketch}
    (h : k.declareMethod type header = .ok r) (hnew : HeaderGives new k.text header) :
    k.Extends new r.2 := by
  rw [declareMethod] at h
  refine extends_declareFunction h ?_ ?_ hnew
  · exact fun _ _ => rfl
  · exact fun _ _ => rfl

theorem extends_declareLocalFunction {parent : ScopeId} {header : String} {r : Declared × Sketch}
    (h : k.declareLocalFunction parent header = .ok r) (hnew : HeaderGives new k.text header) :
    k.Extends new r.2 := by
  rw [declareLocalFunction] at h
  refine extends_declareFunction h ?_ ?_ hnew
  · exact fun _ _ => rfl
  · exact fun _ _ => rfl

theorem extends_declareParameter {method : Declared} {param : Parameter} {r : SymbolId × Sketch}
    (h : k.declareParameter method param = .ok r) (hnew : NameGives new k.text param.name) :
    k.Extends new r.2 := by
  obtain ⟨start, hstart, h⟩ := Outcome.bind_eq_ok.1 h
  dsimp only at h
  obtain rfl := Outcome.pure_eq_ok.1 h
  have hplaced := hnew start (stands_of_locateWord hstart)
  exact .withStore (extends_addPlaced (fun _ => rfl) (fun _ => rfl) hplaced) rfl

theorem extends_addModifier {symbol : SymbolId} {modifier : Modifier} :
    k.Extends new (k.addModifier symbol modifier) :=
  extends_reviseSymbol (fun s => s.withModifier_name modifier) fun s => s.withModifier_span modifier

theorem extends_declareReceiver {method : Declared} {name : String} {type : TypeRef}
    {r : SymbolId × Sketch} (h : k.declareReceiver method name type = .ok r)
    (hnew : NameGives new k.text name) : k.Extends new r.2 := by
  obtain ⟨⟨id, k₁⟩, hparam, h⟩ := Outcome.bind_eq_ok.1 h
  obtain rfl := Outcome.pure_eq_ok.1 h
  exact (extends_declareParameter hparam hnew).trans extends_addModifier

theorem extends_returning {method : SymbolId} {type : TypeRef} :
    k.Extends new (k.returning method type) := by
  refine .trans ?_ (extends_reviseSymbol (fun _ => rfl) fun _ => rfl)
  split
  · exact .of_symbols rfl rfl
  · exact .rfl

theorem extends_declareLocal {needle name : String} {type : TypeRef} {r : SymbolId × Sketch}
    (h : k.declareLocal scope needle name type = .ok r) (hnew : NameGives new k.text name) :
    k.Extends new r.2 := by
  obtain ⟨start, hstart, h⟩ := Outcome.bind_eq_ok.1 h
  obtain rfl := Outcome.pure_eq_ok.1 h
  exact extends_addPlaced (fun _ => rfl) (fun _ => rfl) (hnew start (stands_of_locateName hstart))

theorem extends_declareMember {owner : Declared} {kind : SymbolKind} {needle name : String}
    {type : TypeRef} {r : SymbolId × Sketch}
    (h : k.declareMember owner kind needle name type = .ok r) (hnew : NameGives new k.text name) :
    k.Extends new r.2 := by
  obtain ⟨start, hstart, h⟩ := Outcome.bind_eq_ok.1 h
  obtain ⟨offset, hoffset, h⟩ := Outcome.bind_eq_ok.1 h
  obtain rfl := Outcome.pure_eq_ok.1 h
  refine extends_addPlaced (fun _ => Symbol.withModifiers_name _ _)
    (fun _ => Symbol.withModifiers_span _ _) ?_
  exact hnew _ ((stands_of_locate hstart).inside (splits_of_wordIn hoffset))

theorem extends_declareLabel {needle name : String} {r : SymbolId × Sketch}
    (h : k.declareLabel scope needle name = .ok r) (hnew : NameGives new k.text name) :
    k.Extends new r.2 := by
  obtain ⟨start, hstart, h⟩ := Outcome.bind_eq_ok.1 h
  obtain rfl := Outcome.pure_eq_ok.1 h
  exact extends_addPlaced (fun _ => rfl) (fun _ => rfl) (hnew start (stands_of_locateName hstart))

/-! ### Statements that place nothing -/

theorem extends_reviseType {type : SymbolId} {change : TypeDecl → TypeDecl} :
    k.Extends new (k.reviseType type change) := by
  rw [reviseType]
  split
  · exact .of_symbols rfl rfl
  · exact .rfl

theorem extends_constrain {param : SymbolId} {bound : TypeRef} :
    k.Extends new (k.constrain param bound) := by
  rw [constrain]
  split
  · exact .of_symbols rfl rfl
  · exact .rfl

theorem extends_declareAlias {name : String} {target : TypeRef} :
    k.Extends new (k.declareAlias scope name target).2 :=
  extends_addSymbol fun _ _ hspan => nomatch hspan

theorem extends_addImport {space : SymbolId} : k.Extends new (k.addImport scope space) := by
  rw [addImport]
  split
  · exact .of_symbols rfl (Store.symbols_insertScope _ _)
  · exact .rfl

theorem extends_declareScope {kind : ScopeKind} {needle : String} {isStatic : Bool}
    {r : ScopeId × Sketch} (h : k.declareScope scope kind needle isStatic = .ok r) :
    k.Extends new r.2 := by
  obtain ⟨start, -, h⟩ := Outcome.bind_eq_ok.1 h
  obtain rfl := Outcome.pure_eq_ok.1 h
  exact extends_addScope

theorem extends_declareBlock {needle : String} {r : ScopeId × Sketch}
    (h : k.declareBlock scope needle = .ok r) : k.Extends new r.2 := by
  obtain ⟨start, -, h⟩ := Outcome.bind_eq_ok.1 h
  obtain rfl := Outcome.pure_eq_ok.1 h
  exact extends_addScope

theorem extends_declareTopLevel {argsType : TypeRef} :
    k.Extends new (k.declareTopLevel argsType).2 := by
  rw [declareTopLevel]
  split
  · exact .rfl
  · dsimp only
    exact extends_addScope.trans (extends_addSymbol fun _ _ hspan => nomatch hspan)

theorem extends_withPrelude : k.Extends new k.withPrelude.2 := by
  have hdeclare : k.store.Grows new (Prelude.declare k.outermost k.store).2 :=
    Prelude.keeps_declare _ _
  rw [withPrelude]
  split
  · exact .rfl
  · generalize Prelude.declare k.outermost k.store = declared at hdeclare ⊢
    refine .trans ?_ extends_addImport
    exact ⟨rfl, hdeclare⟩

end Sketch

end Ambit
