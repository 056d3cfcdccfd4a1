/-
The places of names in a sketch.

A sketch is made by calls, one after the other, and a call that does not fit the text stops the
whole.  Every symbol that has a place afterwards has got it from one of the calls, together with its
name, and the bytes there spell the name, with one exception: where a header has blanks between its
name and its type parameters, the place lies too far to the right, by the size of the blanks.

Main definitions:

* `Ambit.Sketch.Call`, `Ambit.Sketch.perform`, `Ambit.Sketch.run` — the calls that make a sketch;
* `Ambit.Sketch.Call.names` — the names that a call places, each with its gap;
* `Ambit.Sketch.spelling` — what the bytes between two offsets spell;
* `Ambit.Sketch.Placed` — **a place at some distance behind the name**.

Main results:

* `Ambit.Sketch.placed_nameAt`, `Ambit.Sketch.placed_nameSpan` — the places of names that are found
  as words, and of names that are found in headers;
* `Ambit.Sketch.extends_perform`, `Ambit.Sketch.extends_run` — what a call and what a run adds;
* `Ambit.Sketch.places_spell_names` — **the places of a sketch spell its names, up to the gaps**.
-/

import Ambit.Proofs.Sketch.Growth

set_option relaxedAutoImplicit false
set_option autoImplicit false

namespace Ambit.Sketch

open Ambit.Text

variable {k k' : Sketch} {text name header : String} {start gap : ℕ} {span : Span}

/-! ### Calls -/

/-- A call that states something about the text. -/
inductive Call where
  | type (parent : ScopeId) (header : String) (kind : TypeKind)
  | enumeration (parent : ScopeId) (header : String) (members : List String)
  | nameSpace (parent : ScopeId) (header : String)
  | base (type : SymbolId) (base : TypeRef)
  | interface (type : SymbolId) (interface : TypeRef)
  | bound (param : SymbolId) (bound : TypeRef)
  | method (type : Declared) (header : String)
  | localFunction (parent : ScopeId) (header : String)
  | parameter (method : Declared) (param : Parameter)
  | receiver (method : Declared) (name : String) (type : TypeRef)
  | result (method : SymbolId) (type : TypeRef)
  | localVariable (scope : ScopeId) (needle name : String) (type : TypeRef)
  | member (owner : Declared) (kind : SymbolKind) (needle name : String) (type : TypeRef)
  | label (scope : ScopeId) (needle name : String)
  | otherName (scope : ScopeId) (name : String) (target : TypeRef)
  | importing (scope : ScopeId) (space : SymbolId)
  | modifier (symbol : SymbolId) (modifier : Modifier)
  | scope (parent : ScopeId) (kind : ScopeKind) (needle : String) (isStatic : Bool)
  | block (parent : ScopeId) (needle : String)
  | topLevel (argsType : TypeRef)
  | withPrelude

/-- The sketch after a call. -/
def perform (k : Sketch) : Call → Outcome Sketch
  | .type parent header kind => (k.declareType parent header kind).map Prod.snd
  | .enumeration parent header members => (k.declareEnum parent header members).map Prod.snd
  | .nameSpace parent header => (k.declareNamespace parent header).map Prod.snd
  | .base type base => .ok (k.extend type base)
  | .interface type interface => .ok (k.implement type interface)
  | .bound param bound => .ok (k.constrain param bound)
  | .method type header => (k.declareMethod type header).map Prod.snd
  | .localFunction parent header => (k.declareLocalFunction parent header).map Prod.snd
  | .parameter method param => (k.declareParameter method param).map Prod.snd
  | .receiver method name type => (k.declareReceiver method name type).map Prod.snd
  | .result method type => .ok (k.returning method type)
  | .localVariable scope needle name type => (k.declareLocal scope needle name type).map Prod.snd
  | .member owner kind needle name type =>
      (k.declareMember owner kind needle name type).map Prod.snd
  | .label scope needle name => (k.declareLabel scope needle name).map Prod.snd
  | .otherName scope name target => .ok (k.declareAlias scope name target).2
  | .importing scope space => .ok (k.addImport scope space)
  | .modifier symbol modifier => .ok (k.addModifier symbol modifier)
  | .scope parent kind needle isStatic => (k.declareScope parent kind needle isStatic).map Prod.snd
  | .block parent needle => (k.declareBlock parent needle).map Prod.snd
  | .topLevel argsType => .ok (k.declareTopLevel argsType).2
  | .withPrelude => .ok k.withPrelude.2

/-- The sketch after some calls, each of which has to fit the text. -/
def run (k : Sketch) : List Call → Outcome Sketch
  | [] => .ok k
  | call :: calls => do (← k.perform call).run calls

/-- The name of a header, with its gap. -/
def headerName (header : String) : String × ℕ :=
  ((Header.ofChars header.toList).name, Header.gap header.toList)

/-- The names that a call places, each with the gap between the name and its place. -/
def Call.names : Call → List (String × ℕ)
  | .type _ header _ => [headerName header]
  | .enumeration _ header members => headerName header :: members.map fun name => (name, 0)
  | .nameSpace _ header => [headerName header]
  | .method _ header => [headerName header]
  | .localFunction _ header => [headerName header]
  | .parameter _ param => [(param.name, 0)]
  | .receiver _ name _ => [(name, 0)]
  | .localVariable _ _ name _ => [(name, 0)]
  | .member _ _ _ name _ => [(name, 0)]
  | .label _ _ name => [(name, 0)]
  | _ => []

/-! ### Places -/

/-- What the bytes between two offsets spell. -/
def spelling (text : String) (start stop : ℕ) : String :=
  String.ofList (slice start stop text.toList)

/-- **A place behind a name**: it lies in the text, it has the size of the name, and moved back by
the gap it spells the name.  Where it lies it spells the name exactly when there is no gap, or no
name. -/
structure Placed (text : String) (gap : ℕ) (name : String) (span : Span) : Prop where
  stop_eq : span.stop.toNat = span.start.toNat + name.utf8ByteSize
  stop_le : span.stop.toNat ≤ text.utf8ByteSize
  gap_le : gap ≤ span.start.toNat
  spells : spelling text (span.start.toNat - gap) (span.stop.toNat - gap) = name
  spells_iff : spelling text span.start.toNat span.stop.toNat = name ↔ gap = 0 ∨ name = ""

theorem spelling_eq_iff (hfits : start + name.utf8ByteSize ≤ text.utf8ByteSize) :
    spelling text start (start + name.utf8ByteSize) = name ↔
      Stands text.toList name.toList start := by
  rw [spelling, ← String.toList_inj, String.toList_ofList, ← byteLength_toList name]
  rw [← byteLength_toList name, ← byteLength_toList text] at hfits
  exact ⟨fun h => ⟨hfits, h⟩, fun h => h.spells⟩

theorem between_toNat {stop : ℕ} (hstart : start < UInt64.size) (hstop : stop < UInt64.size) :
    (Span.between start stop).start.toNat = start ∧ (Span.between start stop).stop.toNat = stop :=
  ⟨UInt64.toNat_ofNat_of_lt' hstart, UInt64.toNat_ofNat_of_lt' hstop⟩

/-- A name that stands at an offset is placed there. -/
theorem placed_nameAt (hsize : text.utf8ByteSize < UInt64.size)
    (h : Stands text.toList name.toList start) : Placed text 0 name (nameAt name start) := by
  have hfits := h.fits
  rw [byteLength_toList, byteLength_toList] at hfits
  obtain ⟨hstart, hstop⟩ :
      (nameAt name start).start.toNat = start ∧
        (nameAt name start).stop.toNat = start + name.utf8ByteSize :=
    between_toNat (by omega) (by omega)
  have hspells := (spelling_eq_iff hfits).2 h
  constructor
  · rw [hstop, hstart]
  · rwa [hstop]
  · exact Nat.zero_le _
  · rwa [hstop, hstart, Nat.sub_zero, Nat.sub_zero]
  · rw [hstop, hstart]
    exact iff_of_true hspells (.inl rfl)

/-- A header that stands at an offset places its name behind its gap. -/
theorem placed_nameSpan (hsize : text.utf8ByteSize < UInt64.size)
    (h : Stands text.toList header.toList start) :
    Placed text (Header.gap header.toList) (Header.ofChars header.toList).name
      ((Header.ofChars header.toList).nameSpan start) := by
  obtain ⟨hgap, hname⟩ := Header.gap_le_nameOffset header.toList
  have hfits := h.fits
  have hbefore := Header.stands_name h
  have hhere := Header.stands_name_iff h
  generalize Header.gap header.toList = gap at *
  generalize Header.ofChars header.toList = parsed at *
  rw [byteLength_toList, byteLength_toList] at hname hfits
  obtain ⟨hstart, hstop⟩ :
      (parsed.nameSpan start).start.toNat = start + parsed.nameOffset ∧
        (parsed.nameSpan start).stop.toNat =
          start + parsed.nameOffset + parsed.name.utf8ByteSize :=
    between_toNat (by omega) (by omega)
  have hmoved : start + parsed.nameOffset + parsed.name.utf8ByteSize - gap =
      start + parsed.nameOffset - gap + parsed.name.utf8ByteSize := by omega
  constructor
  · rw [hstop, hstart]
  · rw [hstop]
    omega
  · rw [hstart]
    omega
  · rw [hstop, hstart, hmoved]
    exact (spelling_eq_iff (by omega)).2 hbefore
  · rw [hstop, hstart, spelling_eq_iff (by omega), hhere, String.toList_eq_nil_iff]

/-! ### What the calls give -/

/-- A name that a call places, and the place. -/
def Call.Gives (call : Call) (text name : String) (span : Span) : Prop :=
  ∃ gap, (name, gap) ∈ call.names ∧ Placed text gap name span

theorem headerGives {call : Call} (hsize : text.utf8ByteSize < UInt64.size)
    (h : headerName header ∈ call.names) : HeaderGives (call.Gives text) text header :=
  fun _ hstands => ⟨_, h, placed_nameSpan hsize hstands⟩

theorem nameGives {call : Call} (hsize : text.utf8ByteSize < UInt64.size)
    (h : (name, 0) ∈ call.names) : NameGives (call.Gives text) text name :=
  fun _ hstands => ⟨0, h, placed_nameAt hsize hstands⟩

theorem Outcome.map_snd_eq_ok {α : Type} {a : Outcome (α × Sketch)} :
    a.map Prod.snd = .ok k ↔ ∃ r, a = .ok r ∧ r.2 = k := by
  cases a with
  | error flaw => simp [Except.map]
  | ok r => simp [Except.map]

/-- **What a call adds** are its own names. -/
theorem extends_perform {call : Call} (hsize : k.text.utf8ByteSize < UInt64.size)
    (h : k.perform call = .ok k') : k.Extends (call.Gives k.text) k' := by
  cases call with
  | type parent header kind =>
      obtain ⟨r, hr, rfl⟩ := Outcome.map_snd_eq_ok.1 h
      exact extends_declareType hr (headerGives hsize (List.mem_singleton_self _))
  | enumeration parent header members =>
      obtain ⟨r, hr, rfl⟩ := Outcome.map_snd_eq_ok.1 h
      refine extends_declareEnum hr (headerGives hsize (List.mem_cons_self ..)) ?_
      intro name hname
      exact nameGives hsize (List.mem_cons_of_mem _ (List.mem_map.2 ⟨name, hname, rfl⟩))
  | nameSpace parent header =>
      obtain ⟨r, hr, rfl⟩ := Outcome.map_snd_eq_ok.1 h
      exact extends_declareNamespace hr (headerGives hsize (List.mem_singleton_self _))
  | base type base =>
      cases h
      exact extends_reviseType
  | interface type interface =>
      cases h
      exact extends_reviseType
  | bound param bound =>
      cases h
      exact extends_constrain
  | method type header =>
      obtain ⟨r, hr, rfl⟩ := Outcome.map_snd_eq_ok.1 h
      exact extends_declareMethod hr (headerGives hsize (List.mem_singleton_self _))
  | localFunction parent header =>
      obtain ⟨r, hr, rfl⟩ := Outcome.map_snd_eq_ok.1 h
      exact extends_declareLocalFunction hr (headerGives hsize (List.mem_singleton_self _))
  | parameter method param =>
      obtain ⟨r, hr, rfl⟩ := Outcome.map_snd_eq_ok.1 h
      exact extends_declareParameter hr (nameGives hsize (List.mem_singleton_self _))
  | receiver method name type =>
      obtain ⟨r, hr, rfl⟩ := Outcome.map_snd_eq_ok.1 h
      exact extends_declareReceiver hr (nameGives hsize (List.mem_singleton_self _))
  | result method type =>
      cases h
      exact extends_returning
  | localVariable scope needle name type =>
      obtain ⟨r, hr, rfl⟩ := Outcome.map_snd_eq_ok.1 h
      exact extends_declareLocal hr (nameGives hsize (List.mem_singleton_self _))
  | member owner kind needle name type =>
      obtain ⟨r, hr, rfl⟩ := Outcome.map_snd_eq_ok.1 h
      exact extends_declareMember hr (nameGives hsize (List.mem_singleton_self _))
  | label scope needle name =>
      obtain ⟨r, hr, rfl⟩ := Outcome.map_snd_eq_ok.1 h
      exact extends_declareLabel hr (nameGives hsize (List.mem_singleton_self _))
  | otherName scope name target =>
      cases h
      exact extends_declareAlias
  | importing scope space =>
      cases h
      exact extends_addImport
  | modifier symbol modifier =>
      cases h
      exact extends_addModifier
  | scope parent kind needle isStatic =>
      obtain ⟨r, hr, rfl⟩ := Outcome.map_snd_eq_ok.1 h
      exact extends_declareScope hr
  | block parent needle =>
      obtain ⟨r, hr, rfl⟩ := Outcome.map_snd_eq_ok.1 h
      exact extends_declareBlock hr
  | topLevel argsType =>
      cases h
      exact extends_declareTopLevel
  | withPrelude =>
      cases h
      exact extends_withPrelude

/-- **What a run adds** are the names of its calls. -/
theorem extends_run {calls : List Call} (hsize : k.text.utf8ByteSize < UInt64.size)
    (h : k.run calls = .ok k') :
    k.Extends (fun name span => ∃ call ∈ calls, call.Gives k.text name span) k' := by
  induction calls generalizing k with
  | nil =>
      cases h
      exact .rfl
  | cons call calls ih =>
      obtain ⟨k₁, hcall, hcalls⟩ := Outcome.bind_eq_ok.1 h
      have hfirst := extends_perform hsize hcall
      have hlater := ih (by rwa [hfirst.text_eq]) hcalls
      rw [hfirst.text_eq] at hlater
      refine .trans (hfirst.mono ?_) (hlater.mono ?_)
      · exact fun name span hgives => ⟨call, List.mem_cons_self .., hgives⟩
      · rintro name span ⟨later, hmem, hgives⟩
        exact ⟨later, List.mem_cons_of_mem _ hmem, hgives⟩

/-! ### Sketches from the start -/

theorem not_places_ofMarked (marked : String) : ¬(ofMarked marked).store.Places name span := by
  rintro ⟨id, symbol, hsymbol, -⟩
  have hempty : (ofMarked marked).store.symbols = ∅ := Store.symbols_insertScope _ _
  rw [hempty, Std.ExtTreeMap.getElem?_empty] at hsymbol
  cases hsymbol

theorem utf8ByteSize_ofMarked_le (marked : String) :
    (ofMarked marked).text.utf8ByteSize ≤ marked.utf8ByteSize := by
  rw [← byteLength_toList, ← byteLength_toList, ofMarked]
  dsimp only
  rw [String.toList_ofList]
  split
  · exact Nat.le_refl _
  · rename_i hmark
    obtain ⟨before, after, hmarked, rfl⟩ := splits_of_search hmark
    rw [hmarked, List.append_assoc, takeBytes_append, dropBytes_append, List.drop_left,
      byteLength_append, byteLength_append, byteLength_append]
    omega

/-- The symbol of an identity after a run that fits the text. -/
theorem exists_symbol_of_run {marked : String} {calls : List Call} {id : SymbolId}
    {place : Option Span}
    (h : ((ofMarked marked).run calls).toOption.bind
      (fun k => k.store.symbols[id]?.map fun s => (s.name, s.span)) = some (name, place)) :
    ∃ k symbol, (ofMarked marked).run calls = .ok k ∧ k.store.symbols[id]? = some symbol ∧
      symbol.name = name ∧ symbol.span = place := by
  obtain ⟨k, hk, hsymbol⟩ := Option.bind_eq_some_iff.1 h
  obtain ⟨symbol, hsymbol, hplace⟩ := Option.map_eq_some_iff.1 hsymbol
  obtain ⟨hname, hspan⟩ := Prod.mk.inj hplace
  refine ⟨k, symbol, ?_, hsymbol, hname, hspan⟩
  cases hrun : (ofMarked marked).run calls with
  | error flaw =>
      rw [hrun] at hk
      cases hk
  | ok k' =>
      rw [hrun] at hk
      cases hk
      rfl

/-- **The places of a sketch spell its names, up to the gaps.**  Every symbol with a place has got
its name and its place from one of the calls, and its place lies behind the name by the gap of that
call.  Only headers with blanks between the name and the type parameters have a gap: when there are
none, every place spells the name of its symbol. -/
theorem places_spell_names {marked : String} {calls : List Call} {k : Sketch}
    (hsize : marked.utf8ByteSize < UInt64.size) (hrun : (ofMarked marked).run calls = .ok k) :
    k.text = (ofMarked marked).text ∧
    (∀ (id : SymbolId) (symbol : Symbol) (span : Span),
      k.store.symbols[id]? = some symbol → symbol.span = some span →
        ∃ call ∈ calls, ∃ gap, (symbol.name, gap) ∈ call.names ∧
          Placed k.text gap symbol.name span) ∧
    ((∀ call ∈ calls, ∀ entry ∈ call.names, entry.2 = 0) →
      ∀ (id : SymbolId) (symbol : Symbol) (span : Span),
        k.store.symbols[id]? = some symbol → symbol.span = some span →
          spelling k.text span.start.toNat span.stop.toNat = symbol.name) := by
  have hfits := Nat.lt_of_le_of_lt (utf8ByteSize_ofMarked_le marked) hsize
  have hextends := extends_run hfits hrun
  have hplaced : ∀ (id : SymbolId) (symbol : Symbol) (span : Span),
      k.store.symbols[id]? = some symbol → symbol.span = some span →
        ∃ call ∈ calls, ∃ gap, (symbol.name, gap) ∈ call.names ∧
          Placed k.text gap symbol.name span := by
    intro id symbol span hsymbol hspan
    rw [hextends.text_eq]
    exact (hextends.grows symbol.name span ⟨id, symbol, hsymbol, rfl, hspan⟩).resolve_left
      (not_places_ofMarked marked)
  refine ⟨hextends.text_eq, hplaced, fun htight id symbol span hsymbol hspan => ?_⟩
  obtain ⟨call, hcall, gap, hentry, hplace⟩ := hplaced id symbol span hsymbol hspan
  exact hplace.spells_iff.2 (.inl (htight call hcall _ hentry))

/-- In a header with a blank before its type parameters the name has a gap of one byte; the member
in the body has none, and its place spells its name of two bytes. -/
theorem places_spell_names_looseHeader :
    "class C <T> { int é; }".utf8ByteSize < UInt64.size ∧
      ∃ k symbol, (ofMarked "class C <T> { int é; }").run
          [.type ⟨0⟩ "class C <T>" .classType,
            .member { symbol := ⟨0⟩, body := ⟨1⟩ } .field "int é" "é" (.plain ⟨0⟩)] = .ok k ∧
        k.store.symbols[(⟨2⟩ : SymbolId)]? = some symbol ∧ symbol.name = "é" ∧
        symbol.span = some ⟨18, 20⟩ ∧ Placed k.text 0 "é" ⟨18, 20⟩ := by
  have hsize : "class C <T> { int é; }".utf8ByteSize < UInt64.size := by decide +kernel
  obtain ⟨k, symbol, hrun, hsymbol, hname, hspan⟩ := exists_symbol_of_run
    (show ((ofMarked "class C <T> { int é; }").run
        [.type ⟨0⟩ "class C <T>" .classType,
          .member { symbol := ⟨0⟩, body := ⟨1⟩ } .field "int é" "é" (.plain ⟨0⟩)]).toOption.bind
        (fun k => k.store.symbols[(⟨2⟩ : SymbolId)]?.map fun s => (s.name, s.span)) =
      some ("é", some ⟨18, 20⟩) by decide +kernel)
  refine ⟨hsize, k, symbol, hrun, hsymbol, hname, hspan, ?_⟩
  obtain ⟨call, hcall, gap, hentry, hplaced⟩ :=
    (places_spell_names hsize hrun).2.1 ⟨2⟩ symbol ⟨18, 20⟩ hsymbol hspan
  rw [hname] at hentry hplaced
  rcases List.mem_pair.1 hcall with rfl | rfl
  · have hheader : headerName "class C <T>" = ("C", 1) := by decide +kernel
    rw [Call.names, hheader] at hentry
    simp at hentry
  · obtain ⟨-, rfl⟩ := Prod.mk.inj (List.mem_singleton.1 hentry)
    exact hplaced

/-- **A place that misses its name**: one blank before the type parameters, and the place of the
type spells that blank. -/
theorem place_misses_name :
    ∃ k symbol, (ofMarked "class C <T> { }").run [.type ⟨0⟩ "class C <T>" .classType] = .ok k ∧
      k.store.symbols[(⟨0⟩ : SymbolId)]? = some symbol ∧ symbol.name = "C" ∧
      symbol.span = some ⟨7, 8⟩ ∧ spelling k.text 7 8 = " " ∧ spelling k.text 6 7 = "C" := by
  obtain ⟨k, symbol, hrun, hsymbol, hname, hspan⟩ := exists_symbol_of_run
    (show ((ofMarked "class C <T> { }").run [.type ⟨0⟩ "class C <T>" .classType]).toOption.bind
        (fun k => k.store.symbols[(⟨0⟩ : SymbolId)]?.map fun s => (s.name, s.span)) =
      some ("C", some ⟨7, 8⟩) by decide +kernel)
  have htext := (extends_run (by decide +kernel) hrun).text_eq
  refine ⟨k, symbol, hrun, hsymbol, hname, hspan, ?_, ?_⟩
  · rw [htext]
    decide +kernel
  · rw [htext]
    decide +kernel

end Ambit.Sketch
