/-
Extension methods in scope, beside what a look-up meets.

The extension methods in scope are found by a walk of their own along the scopes around a place.  It
opens the namespaces among them and the namespaces that any of them imports.  A look-up goes the
same way, but takes imports from namespaces only.  So the two walks agree about the classes that a
look-up records from a namespace or as imported: their extension methods are in scope, each once.
They part at a scope that is no namespace and imports one: its extension methods are in scope, and
the look-up need not meet the classes that declare them.

Main definitions:

* `Ambit.Store.Records` — a look-up records a class from a namespace, or as imported;
* `Ambit.Store.Strays` — a class lies in a namespace that is imported by something else than a
  namespace.

Main results:

* `Ambit.Store.mem_openedBy`, `Ambit.Store.mem_extensionsIn` — what the walk opens, and what it
  finds there;
* `Ambit.Store.Built.opened_iff` — **a class is opened when a look-up records it, or when it
  strays**;
* `Ambit.Store.Built.pairwise_ne_extensionMethods` — every extension method is found once;
* `Ambit.Store.Built.mem_extensionMethods_iff_recorded` — **the extension methods in scope, by what
  a look-up meets**;
* `Ambit.Store.extensionMethods_strays` — an extension method of a class that the look-up does not
  meet.
-/

import Ambit.Extension
import Ambit.Proofs.Lookup.Repetition

set_option relaxedAutoImplicit false
set_option autoImplicit false

namespace Ambit

/-! ### Lists without repetitions -/

/-- Taking out repetitions leaves none. -/
theorem nodup_eraseDups {α : Type} [BEq α] [LawfulBEq α] (as : List α) : as.eraseDups.Nodup := by
  -- by the length, because what follows the first member is filtered before it is gone through
  induction hlength : as.length using Nat.strong_induction_on generalizing as with
  | _ n ih =>
      cases as with
      | nil => exact .nil
      | cons a as =>
          rw [List.eraseDups_cons, List.nodup_cons]
          constructor
          · simp [List.mem_eraseDups]
          · refine ih _ ?_ _ rfl
            have hle := List.length_filter_le (fun other => !other == a) as
            rw [← hlength, List.length_cons]
            omega

end Ambit

namespace Ambit.Store

variable {s : Store} {signal signal' : Signal} {options : Options} {position : UInt64}
  {p : Panorama} {c m : Symbol} {id b : ScopeId} {chain : List ScopeId}

/-! ### What the walk opens, and what it finds there -/

theorem mem_openedBy :
    b ∈ s.openedBy id ↔ ∃ scope, s.scopes[id]? = some scope ∧
      ((scope.kind = .nameSpace ∧ b = id) ∨
        ∃ nameSpace ∈ scope.imports, ∃ body, s.body? nameSpace = some body ∧ body.id = b) := by
  rw [openedBy]
  cases s.scopes[id]? with
  | none => simp
  | some scope =>
      simp only [List.mem_append, List.mem_map, List.mem_filterMap, Option.some.injEq,
        exists_eq_left']
      refine or_congr ?_ ?_
      · split <;> simp [*]
      · constructor
        · rintro ⟨body, ⟨nameSpace, himport, hbody⟩, hid⟩
          exact ⟨nameSpace, himport, body, hbody, hid⟩
        · rintro ⟨nameSpace, himport, body, hbody, hid⟩
          exact ⟨body, ⟨nameSpace, himport, hbody⟩, hid⟩

theorem mem_extensionsIn :
    m ∈ s.extensionsIn b ↔ ∃ c ∈ s.symbolsIn b, s.canExtend c = true ∧ m ∈ s.membersOf c.id ∧
      s.isExtensionMethod m = true := by
  simp only [extensionsIn, List.mem_flatMap, List.mem_filter, and_assoc]

/-- The extension methods in scope are those of the classes in the namespaces that are opened. -/
theorem extensionMethods_eq_ok {start : ScopeId} {methods : List Symbol}
    (h : s.extensionMethods signal start = .ok methods) :
    ∃ chain, s.ancestors start = .ok chain ∧
      methods = (chain.flatMap s.openedBy).eraseDups.flatMap s.extensionsIn := by
  obtain ⟨chain, hchain, h⟩ := Answer.bind_eq_ok.1 h
  obtain ⟨-, -, h⟩ := Answer.bind_eq_ok.1 h
  cases h
  exact ⟨chain, hchain, rfl⟩

/-- An extension method in scope is a static symbol of the store. -/
theorem Indexed.stored_of_mem_extensionMethods (hs : s.Indexed) {start : ScopeId}
    {methods : List Symbol} (h : s.extensionMethods signal start = .ok methods) (hm : m ∈ methods) :
    s.symbols[m.id]? = some m ∧ m.isStatic = true := by
  obtain ⟨chain, -, rfl⟩ := extensionMethods_eq_ok h
  obtain ⟨b, -, hm⟩ := List.mem_flatMap.1 hm
  obtain ⟨c, -, -, hmember, hmethod⟩ := mem_extensionsIn.1 hm
  refine ⟨hs.stored_of_mem_membersOf hmember, ?_⟩
  rw [isExtensionMethod, Bool.and_eq_true, Bool.and_eq_true] at hmethod
  rw [Symbol.isStatic, hmethod.1.2]
  rfl

theorem Indexed.mem_symbolsIn_of_id (hs : s.Indexed) (hstored : s.symbols[c.id]? = some c)
    {symbol : Symbol} (hin : symbol ∈ s.symbolsIn b) (hid : symbol.id = c.id) :
    c ∈ s.symbolsIn b := by
  have hstored' := hs.stored_of_mem_symbolsIn hin
  rw [hid, hstored] at hstored'
  cases hstored'
  exact hin

theorem kind_of_canExtend (hstored : s.symbols[c.id]? = some c) (h : s.canExtend c = true) :
    c.kind = .type := by
  rw [canExtend, isStaticType, hstored] at h
  simp only [Bool.and_eq_true, beq_iff_eq] at h
  exact h.1.1

/-! ### Each method once -/

namespace Built

variable (hs : s.Built)
include hs

theorem pairwise_ne_extensionsIn (b : ScopeId) :
    (s.extensionsIn b).Pairwise fun m m' => m.id ≠ m'.id := by
  refine List.pairwise_flatMap.2 ⟨fun c _ => ?_, ?_⟩
  · rw [membersOf]
    split
    · exact .nil
    · exact ((hs.indexed.pairwise_ne_symbolsIn _).filter _).filter _
  · refine ((hs.indexed.pairwise_ne_symbolsIn b).filter _).imp fun {c c'} hne m hm m' hm' hid => ?_
    have hlies := liesIn_of_mem_membersOf (List.mem_filter.1 hm).1
    have hlies' := liesIn_of_mem_membersOf (List.mem_filter.1 hm').1
    rw [← hid] at hlies'
    exact hne (hs.eq_of_liesIn hlies hlies')

theorem eq_of_mem_extensionsIn {b' : ScopeId} {m' : Symbol} (hm : m ∈ s.extensionsIn b)
    (hm' : m' ∈ s.extensionsIn b') (hid : m.id = m'.id) : b = b' := by
  obtain ⟨c, hc, -, hmember, -⟩ := mem_extensionsIn.1 hm
  obtain ⟨c', hc', -, hmember', -⟩ := mem_extensionsIn.1 hm'
  have hlies' := liesIn_of_mem_membersOf hmember'
  rw [← hid] at hlies'
  have hsame := hs.eq_of_liesIn (liesIn_of_mem_membersOf hmember) hlies'
  obtain ⟨hstored, hscope⟩ := hs.indexed.mem_symbolsIn.1 hc
  obtain ⟨hstored', hscope'⟩ := hs.indexed.mem_symbolsIn.1 hc'
  rw [hsame, hstored'] at hstored
  cases hstored
  exact hscope.symm.trans hscope'

/-- **Every extension method is found once**, however often its namespace is opened. -/
theorem pairwise_ne_extensionMethods {start : ScopeId} {methods : List Symbol}
    (h : s.extensionMethods signal start = .ok methods) :
    methods.Pairwise fun m m' => m.id ≠ m'.id := by
  obtain ⟨chain, -, rfl⟩ := extensionMethods_eq_ok h
  refine List.pairwise_flatMap.2 ⟨fun b _ => hs.pairwise_ne_extensionsIn b, ?_⟩
  refine (nodup_eraseDups _).imp fun hne m hm m' hm' hid => ?_
  exact hne (hs.eq_of_mem_extensionsIn hm hm' hid)

end Built

/-! ### The two walks -/

/-- A look-up records a symbol as imported, or as declared in a namespace around the position. -/
def Records (s : Store) (p : Panorama) (symbol : SymbolId) : Prop :=
  ∃ level ∈ p.levels, ∃ e ∈ level.2, e.symbol = symbol ∧
    (e.origin = .imported ∨
      (e.origin = .declared ∧ ∃ scope, s.scopes[level.1]? = some scope ∧ scope.kind = .nameSpace))

/-- A symbol lies in a namespace that is imported by a scope around the position, and this scope is
no namespace. -/
def Strays (s : Store) (p : Panorama) (symbol : SymbolId) : Prop :=
  ∃ id ∈ p.groups.map Prod.fst, ∃ scope, s.scopes[id]? = some scope ∧ scope.kind ≠ .nameSpace ∧
    ∃ nameSpace ∈ scope.imports, s.LiesIn symbol nameSpace

theorem Records.exists_entry {symbol : SymbolId} (h : s.Records p symbol) :
    ∃ e ∈ p.entries, e.symbol = symbol := by
  obtain ⟨level, hlevel, e, he, hsymbol, -⟩ := h
  exact ⟨e, mem_entries_of_mem_level hlevel he, hsymbol⟩

theorem map_fst_groups (h : s.lookup signal options position = .ok p)
    (hchain : s.ancestors (s.scopeAt position) = .ok chain) : p.groups.map Prod.fst = chain := by
  obtain ⟨-, chain', hchain', hgroups, -, -⟩ := lookup_eq_ok_iff.1 h
  rw [hchain] at hchain'
  cases hchain'
  exact map_fst_of_entriesAlong hgroups

theorem groupsOf_nameSpace {scope : Scope} (h : scope.kind = .nameSpace) :
    s.groupsOf signal scope =
      .ok [s.declaredIn scope.id fun _ => true, scope.imports.flatMap s.importedTypes] := by
  rw [groupsOf, h]

namespace Built

variable (hs : s.Built)
include hs

/-- What a namespace around the position lists is recorded. -/
theorem records_of_nameSpace (h : s.lookup signal options position = .ok p)
    (hid : id ∈ p.groups.map Prod.fst) {scope : Scope} (hscope : s.scopes[id]? = some scope)
    (hkind : scope.kind = .nameSpace) {found : Finding}
    (hfound : found ∈ s.declaredIn id (fun _ => true) ∨
      found ∈ scope.imports.flatMap s.importedTypes) : s.Records p found.symbol := by
  obtain ⟨chain, hchain, hiff⟩ := exists_level_iff h
  rw [map_fst_groups h hchain] at hid
  rw [← hs.indexed.scope_id id scope hscope] at hfound
  -- whichever group it is in, the look-up has a level for it
  obtain ⟨g, hg, hmem, horigin⟩ : ∃ g ∈ [s.declaredIn scope.id fun _ => true,
      scope.imports.flatMap s.importedTypes], found ∈ g ∧
        (found.origin = .imported ∨ found.origin = .declared) := by
    rcases hfound with hfound | hfound
    · refine ⟨_, List.mem_cons_self .., hfound, Or.inr ?_⟩
      obtain ⟨symbol, -, rfl⟩ := List.mem_map.1 hfound
      rfl
    · refine ⟨_, List.mem_cons_of_mem _ (List.mem_cons_self ..), hfound, Or.inl ?_⟩
      obtain ⟨nameSpace, -, hfound⟩ := List.mem_flatMap.1 hfound
      obtain ⟨_, _, _, _, _, rfl⟩ := mem_importedTypes.1 hfound
      rfl
  obtain ⟨level, hlevel, rfl, rfl⟩ :=
    (hiff id g).2 ⟨hid, scope, _, hscope, groupsOf_nameSpace hkind, hg⟩
  obtain ⟨e, he, rfl⟩ := List.mem_map.1 hmem
  exact ⟨level, hlevel, e, he, rfl,
    horigin.imp_right fun hdeclared => ⟨hdeclared, scope, hscope, hkind⟩⟩

/-- A symbol that is recorded lies in a namespace that is opened. -/
theorem opened_of_records (h : s.lookup signal options position = .ok p)
    (hchain : s.ancestors (s.scopeAt position) = .ok chain) (hstored : s.symbols[c.id]? = some c)
    (hrecords : s.Records p c.id) : ∃ id ∈ chain, ∃ b ∈ s.openedBy id, c ∈ s.symbolsIn b := by
  obtain ⟨level, hlevel, e, he, hsymbol, horigin⟩ := hrecords
  obtain ⟨chain', hchain', hiff⟩ := exists_level_iff h
  rw [hchain] at hchain'
  cases hchain'
  obtain ⟨hid, scope, groups, hscope, hgroups, hg⟩ := (hiff level.1 _).1 ⟨level, hlevel, rfl, rfl⟩
  have hfound : e.finding ∈ level.2.map Entry.finding := List.mem_map_of_mem he
  refine ⟨level.1, hid, ?_⟩
  -- in a group of imported types, the namespace is one that the scope imports
  have himported : level.2.map Entry.finding = scope.imports.flatMap s.importedTypes →
      ∃ b ∈ s.openedBy level.1, c ∈ s.symbolsIn b := by
    intro himports
    rw [himports] at hfound
    obtain ⟨nameSpace, himport, hfound⟩ := List.mem_flatMap.1 hfound
    obtain ⟨body, hbody, symbol, hin, hsame⟩ := liesIn_of_mem_importedTypes hfound
    exact ⟨body.id, mem_openedBy.2 ⟨scope, hscope, Or.inr ⟨nameSpace, himport, body, hbody, rfl⟩⟩,
      hs.indexed.mem_symbolsIn_of_id hstored hin (hsame.trans hsymbol)⟩
  rcases horigin with horigin | ⟨-, scope', hscope', hkind⟩
  · rcases hs.group_cases hgroups hg with ⟨-, hnot⟩ | ⟨-, himports⟩
    · exact absurd horigin (hnot _ hfound)
    · exact himported himports
  · rw [hscope] at hscope'
    cases hscope'
    rw [groupsOf_nameSpace hkind] at hgroups
    cases hgroups
    rcases List.mem_cons.1 hg with hdeclared | hg
    · rw [hdeclared] at hfound
      obtain ⟨symbol, hin, heq⟩ := List.mem_map.1 hfound
      rw [hs.indexed.scope_id _ _ hscope] at hin
      exact ⟨level.1, mem_openedBy.2 ⟨scope, hscope, Or.inl ⟨hkind, rfl⟩⟩,
        hs.indexed.mem_symbolsIn_of_id hstored (List.mem_filter.1 hin).1
          ((congrArg Finding.symbol heq).trans hsymbol)⟩
    · exact himported (List.mem_singleton.1 hg)

/-- **A class is opened when a look-up records it, or when it strays.** -/
theorem opened_iff (h : s.lookup signal options position = .ok p)
    (hchain : s.ancestors (s.scopeAt position) = .ok chain) (hstored : s.symbols[c.id]? = some c)
    (hkind : c.kind = .type) :
    (∃ id ∈ chain, ∃ b ∈ s.openedBy id, c ∈ s.symbolsIn b) ↔
      s.Records p c.id ∨ s.Strays p c.id := by
  constructor
  · rintro ⟨id, hid, b, hb, hin⟩
    rw [← map_fst_groups h hchain] at hid
    obtain ⟨scope, hscope, ⟨hspace, rfl⟩ | ⟨nameSpace, himport, body, hbody, rfl⟩⟩ :=
      mem_openedBy.1 hb
    · have hfound : ({ symbol := c.id } : Finding) ∈ s.declaredIn b fun _ => true :=
        List.mem_map.2 ⟨c, List.mem_filter.2 ⟨hin, rfl⟩, rfl⟩
      exact Or.inl (hs.records_of_nameSpace h hid hscope hspace (Or.inl hfound))
    · by_cases hspace : scope.kind = .nameSpace
      · have hfound : ({ symbol := c.id, origin := .imported } : Finding) ∈
            scope.imports.flatMap s.importedTypes :=
          List.mem_flatMap.2 ⟨nameSpace, himport,
            mem_importedTypes.2 ⟨body, hbody, c, hin, hkind, rfl⟩⟩
        exact Or.inl (hs.records_of_nameSpace h hid hscope hspace (Or.inr hfound))
      · exact Or.inr ⟨id, hid, scope, hscope, hspace, nameSpace, himport, body, hbody, c, hin, rfl⟩
  · rintro (hrecords | ⟨id, hid, scope, hscope, -, nameSpace, himport, body, hbody, c', hin, hsame⟩)
    · exact hs.opened_of_records h hchain hstored hrecords
    · rw [map_fst_groups h hchain] at hid
      exact ⟨id, hid, body.id,
        mem_openedBy.2 ⟨scope, hscope, Or.inr ⟨nameSpace, himport, body, hbody, rfl⟩⟩,
        hs.indexed.mem_symbolsIn_of_id hstored hin hsame⟩

/-- The extension methods in scope are those of the classes that the look-up records or that
stray. -/
theorem mem_extensionMethods {methods : List Symbol} (h : s.lookup signal options position = .ok p)
    (hmethods : s.extensionMethods signal' (s.scopeAt position) = .ok methods) :
    m ∈ methods ↔ ∃ c, s.symbols[c.id]? = some c ∧ s.canExtend c = true ∧
      m ∈ s.membersOf c.id ∧ s.isExtensionMethod m = true ∧
      (s.Records p c.id ∨ s.Strays p c.id) := by
  obtain ⟨chain, hchain, rfl⟩ := extensionMethods_eq_ok hmethods
  simp only [List.mem_flatMap, List.mem_eraseDups, mem_extensionsIn]
  constructor
  · rintro ⟨b, ⟨id, hid, hb⟩, c, hin, hextend, hmember, hmethod⟩
    have hstored := hs.indexed.stored_of_mem_symbolsIn hin
    have hkind := kind_of_canExtend hstored hextend
    exact ⟨c, hstored, hextend, hmember, hmethod,
      (hs.opened_iff h hchain hstored hkind).1 ⟨id, hid, b, hb, hin⟩⟩
  · rintro ⟨c, hstored, hextend, hmember, hmethod, hwhere⟩
    have hkind := kind_of_canExtend hstored hextend
    obtain ⟨id, hid, b, hb, hin⟩ := (hs.opened_iff h hchain hstored hkind).2 hwhere
    exact ⟨b, ⟨id, hid, hb⟩, c, hin, hextend, hmember, hmethod⟩

/-- **The extension methods in scope, by what a look-up meets.**  They are the extension methods of
the static classes that are not generic and that the look-up records from a namespace or as
imported, and of those that stray; each is found once.  So all of them are declared in classes that
the look-up meets exactly when it meets all classes with extension methods that stray. -/
theorem mem_extensionMethods_iff_recorded {methods : List Symbol}
    (h : s.lookup signal options position = .ok p)
    (hmethods : s.extensionMethods signal' (s.scopeAt position) = .ok methods) :
    (∀ m, m ∈ methods ↔ ∃ c, s.symbols[c.id]? = some c ∧ s.canExtend c = true ∧
      m ∈ s.membersOf c.id ∧ s.isExtensionMethod m = true ∧
      (s.Records p c.id ∨ s.Strays p c.id)) ∧
    (methods.Pairwise fun m m' => m.id ≠ m'.id) ∧
    ((∀ m ∈ methods, ∃ c, s.symbols[c.id]? = some c ∧ s.canExtend c = true ∧
        m ∈ s.membersOf c.id ∧ ∃ e ∈ p.entries, e.symbol = c.id) ↔
      ∀ c, s.symbols[c.id]? = some c → s.canExtend c = true → s.Strays p c.id →
        (∃ m ∈ s.membersOf c.id, s.isExtensionMethod m = true) →
        ∃ e ∈ p.entries, e.symbol = c.id) := by
  refine ⟨fun m => hs.mem_extensionMethods h hmethods, hs.pairwise_ne_extensionMethods hmethods,
    ?_, ?_⟩
  · rintro hmet c hstored hextend hstrays ⟨m, hmember, hmethod⟩
    have hm : m ∈ methods := (hs.mem_extensionMethods h hmethods).2
      ⟨c, hstored, hextend, hmember, hmethod, Or.inr hstrays⟩
    obtain ⟨c', -, -, hmember', hentry⟩ := hmet m hm
    -- the class that the method is declared in is the one that strays
    rw [hs.eq_of_liesIn (liesIn_of_mem_membersOf hmember) (liesIn_of_mem_membersOf hmember')]
    exact hentry
  · intro hmet m hm
    obtain ⟨c, hstored, hextend, hmember, hmethod, hrecords | hstrays⟩ :=
      (hs.mem_extensionMethods h hmethods).1 hm
    · exact ⟨c, hstored, hextend, hmember, hrecords.exists_entry⟩
    · exact ⟨c, hstored, hextend, hmember, hmet c hstored hextend hstrays ⟨m, hmember, hmethod⟩⟩

end Built

/-- A static class. -/
def strayClass : Symbol :=
  { id := ⟨1⟩, kind := .type, name := "Ext", scope := ⟨1⟩, modifiers := [.static] }

/-- An extension method of the class. -/
def strayMethod : Symbol :=
  { id := ⟨2⟩, kind := .method, name := "M", scope := ⟨2⟩, container := some ⟨1⟩,
    modifiers := [.static, .extension] }

/-- A type that imports the namespace of the class. -/
def strayImport : Store :=
  empty.insertScope { id := ⟨0⟩, kind := .nameSpace, span := ⟨0, 90⟩ }
    |>.insertScope { id := ⟨1⟩, kind := .nameSpace, span := ⟨10, 40⟩, parent := some ⟨0⟩,
                     owner := some ⟨0⟩ }
    |>.insertScope { id := ⟨2⟩, kind := .type, span := ⟨20, 30⟩, parent := some ⟨1⟩,
                     owner := some ⟨1⟩ }
    |>.insertScope { id := ⟨3⟩, kind := .type, span := ⟨50, 80⟩, parent := some ⟨0⟩,
                     owner := some ⟨3⟩, imports := [⟨0⟩] }
    |>.insertSymbol { id := ⟨0⟩, kind := .nameSpace, name := "N", scope := ⟨0⟩ }
    |>.insertSymbol strayClass
    |>.insertSymbol strayMethod
    |>.insertSymbol { id := ⟨3⟩, kind := .type, name := "C", scope := ⟨0⟩ }

theorem built_strayImport : strayImport.Built :=
  .insertSymbol _ (.insertSymbol _ (.insertSymbol _ (.insertSymbol _
    (.insertScope _ (.insertScope _ (.insertScope _ (.insertScope _ .empty)))))))

def strayImportView : Panorama where
  scope := ⟨3⟩
  groups := [
    (⟨3⟩, [[], []]),
    (⟨0⟩, [[⟨⟨0⟩, none, .applicable, .declared⟩, ⟨⟨3⟩, none, .applicable, .declared⟩], []])]
  hasInstance := true

/-- The class strays, so its extension method is in scope. -/
theorem mem_extensionMethods_iff_recorded_strayImport :
    strayImport.Built ∧ strayImport.lookup .quiet {} 60 = .ok strayImportView ∧
      strayImport.Strays strayImportView strayClass.id ∧
      ∃ methods, strayImport.extensionMethods .quiet (strayImport.scopeAt 60) = .ok methods ∧
        strayMethod ∈ methods := by
  have hview : strayImport.lookup .quiet {} 60 = .ok strayImportView := rfl
  have hstrays : strayImport.Strays strayImportView strayClass.id :=
    ⟨⟨3⟩, List.mem_cons_self .., _, rfl, by decide, ⟨0⟩, List.mem_cons_self .., _, rfl, strayClass,
      List.mem_cons_self .., rfl⟩
  obtain ⟨methods, hmethods⟩ : ∃ methods,
      strayImport.extensionMethods .quiet (strayImport.scopeAt 60) = .ok methods := ⟨_, rfl⟩
  obtain ⟨hmem, -, -⟩ := built_strayImport.mem_extensionMethods_iff_recorded hview hmethods
  exact ⟨built_strayImport, hview, hstrays, methods, hmethods, (hmem _).2 ⟨strayClass, rfl, rfl,
    List.mem_cons_self .., rfl, Or.inr hstrays⟩⟩

/-- **An extension method of a class that the look-up does not meet** is in scope. -/
theorem extensionMethods_strays :
    strayImport.Built ∧ strayImport.lookup .quiet {} 60 = .ok strayImportView ∧
      strayImport.extensionMethods .quiet (strayImport.scopeAt 60) = .ok [strayMethod] ∧
      ∀ c, strayMethod ∈ strayImport.membersOf c →
        ∀ e ∈ strayImportView.entries, e.symbol ≠ c := by
  refine ⟨built_strayImport, rfl, rfl, fun c hmember => ?_⟩
  have hclass : strayImport.LiesIn strayMethod.id ⟨1⟩ :=
    ⟨_, rfl, strayMethod, List.mem_cons_self .., rfl⟩
  rw [← built_strayImport.eq_of_liesIn hclass (liesIn_of_mem_membersOf hmember)]
  decide

end Ambit.Store
