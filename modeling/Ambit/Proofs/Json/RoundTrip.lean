/-
Written values are read back.

The reader takes the lexemes of a text one by one.  Behind what is written for a value it has just
finished that value, with the same arrays and objects open around it; this is shown by induction on
the value, for any text behind it that does not continue it.  With nothing behind, the whole text is
read as the value.

Main definitions:

* `Ambit.Json.Plain` — values whose numbers are natural;
* `Ambit.Json.resume` — reading on from a place;
* `Ambit.Json.Awaits`, `Ambit.Json.AwaitsKey` — the places where a value or a key comes next;
* `Ambit.Json.Reread` — what is written for a value is read as the value.

Main results:

* `Ambit.Json.resume_append` — what a lexeme does to the reader;
* `Ambit.Json.reread_array`, `Ambit.Json.reread_object` — arrays and objects are read as their items
  and members are;
* `Ambit.Json.Plain.parse_render` — **a written value is read back**.
-/

import Ambit.Json.Parser
import Ambit.Proofs.Json.Lexeme

set_option relaxedAutoImplicit false
set_option autoImplicit false

namespace Ambit.Json

/-- Values whose numbers are natural. -/
inductive Plain : Json → Prop
  | null : Plain .null
  | bool (b : Bool) : Plain (.bool b)
  | ofNat (n : ℕ) : Plain (.ofNat n)
  | string (text : Option String) : Plain (.string text)
  | array {items : List Json} : (∀ v ∈ items, Plain v) → Plain (.array items)
  | object {members : List (Option String × Json)} :
      (∀ m ∈ members, Plain m.2) → Plain (.object members)

/-! ### Reading on -/

/-- Reads a text from a place on. -/
def resume (state : State) (cs : List Char) : Option State :=
  (lexemes cs).bind fun ls => ls.foldlM step state

theorem resume_nil (state : State) : resume state [] = some state := by
  rw [resume, lexemes]
  rfl

/-- **What a lexeme does to the reader.** -/
theorem resume_append {text rest : List Char} {lexeme : Lexeme} (h : Spells text lexeme rest)
    (state : State) : resume state (text ++ rest) = (step state lexeme).bind (resume · rest) := by
  rw [resume, lexemes_append h]
  cases hls : lexemes rest with
  | none => cases step state lexeme <;> simp [resume, hls]
  | some ls => simp [resume, hls]

theorem resume_newLine (state : State) (depth : ℕ) (cs : List Char) :
    resume state (newLine depth ++ cs) = resume state cs := by
  rw [resume, lexemes_newLine]
  rfl

theorem resume_mark {c : Char} {lexeme : Lexeme} (h : mark? c = some lexeme) (state : State)
    (rest : List Char) : resume state (c :: rest) = (step state lexeme).bind (resume · rest) :=
  resume_append (spells_mark h rest) state

/-! ### Places where a value comes next -/

/-- A value comes next, and then the given arrays and objects are open around it. -/
inductive Awaits : State → List Frame → Prop
  | value (frames : List Frame) : Awaits (.value, frames) frames
  | opened (frames : List Frame) : Awaits (.opened, frames) (.array [] :: frames)

theorem Awaits.step_eq {state : State} {frames : List Frame} (h : Awaits state frames)
    {lexeme : Lexeme} (hlexeme : lexeme ≠ .closeBracket) :
    step state lexeme = stepValue frames lexeme := by
  cases h with
  | value => rfl
  | opened frames =>
      cases lexeme with
      | closeBracket => contradiction
      | _ => rfl

/-- Where a value comes next, a lexeme that is a value finishes it. -/
theorem Awaits.resume_lexeme {state : State} {frames : List Frame} (h : Awaits state frames)
    {text rest : List Char} {lexeme : Lexeme} (hspells : Spells text lexeme rest) {v : Json}
    (hlexeme : lexeme ≠ .closeBracket) (hv : stepValue frames lexeme = some (.after v, frames)) :
    resume state (text ++ rest) = resume (.after v, frames) rest := by
  rw [resume_append hspells, h.step_eq hlexeme, hv]
  rfl

/-- A key comes next in an object of which some members are finished. -/
inductive AwaitsKey : State → List (Option String × Json) → List Frame → Prop
  | firstKey (frames : List Frame) : AwaitsKey (.firstKey, frames) [] frames
  | key (done : List (Option String × Json)) (frames : List Frame) :
      AwaitsKey (.key done, frames) done frames

theorem AwaitsKey.step_eq {state : State} {done : List (Option String × Json)}
    {frames : List Frame} (h : AwaitsKey state done frames) (key : Option String) :
    step state (.string key) = some (.colon done key, frames) := by
  cases h <;> rfl

/-! ### Items and members -/

/-- What stands behind the first of some parts between marks, when parts come after it. -/
def behind (depth : ℕ) (parts : List (List Char)) (closing : Char) (rest : List Char) : List Char :=
  (parts.flatMap fun part => ',' :: (newLine (depth + 1) ++ part)) ++
    (newLine depth ++ closing :: rest)

theorem behind_cons (depth : ℕ) (part : List Char) (parts : List (List Char)) (closing : Char)
    (rest : List Char) :
    behind depth (part :: parts) closing rest =
      ',' :: (newLine (depth + 1) ++ (part ++ behind depth parts closing rest)) := by
  simp [behind]

theorem delimited_behind (depth : ℕ) (parts : List (List Char)) (closing : Char)
    (rest : List Char) : Delimited (behind depth parts closing rest) := by
  cases parts with
  | nil => exact delimited_newLine depth _
  | cons part parts =>
      rw [behind_cons]
      exact delimited_comma _

theorem enclose_cons (opening closing : Char) (depth : ℕ) (part : List Char)
    (parts : List (List Char)) (rest : List Char) :
    enclose opening closing depth (part :: parts) ++ rest =
      opening :: (newLine (depth + 1) ++ (part ++ behind depth parts closing rest)) := by
  simp [enclose, behind]

def memberText (depth : ℕ) (m : Option String × Json) : List Char :=
  quote m.1 ++ ':' :: ' ' :: chars depth m.2

theorem itemChars_eq_map (depth : ℕ) (vs : List Json) :
    itemChars depth vs = vs.map (chars depth) := by
  induction vs with
  | nil => rfl
  | cons v vs ih => rw [itemChars, ih, List.map_cons]

theorem memberChars_eq_map (depth : ℕ) (ms : List (Option String × Json)) :
    memberChars depth ms = ms.map (memberText depth) := by
  induction ms with
  | nil => rfl
  | cons m ms ih => rw [memberChars, ih, List.map_cons, memberText]

/-- What is written for a value is read as the value, wherever a value comes next and whatever does
not continue it. -/
def Reread (v : Json) : Prop :=
  ∀ (depth : ℕ) (state : State) (frames : List Frame) (rest : List Char), Awaits state frames →
    Delimited rest → resume state (chars depth v ++ rest) = resume (.after v, frames) rest

/-- Reading the items behind the first one, up to the end of the array. -/
theorem resume_items (depth : ℕ) (frames : List Frame) (rest : List Char) {vs : List Json}
    (h : ∀ v ∈ vs, Reread v) (v : Json) (done : List Json) :
    resume (.after v, .array done :: frames) (behind depth (vs.map (chars (depth + 1))) ']' rest) =
      resume (.after (.array (done.reverse ++ v :: vs)), frames) rest := by
  induction vs generalizing v done with
  | nil =>
      rw [List.map_nil, behind, List.flatMap_nil, List.nil_append, resume_newLine, resume_mark rfl]
      simp [step, stepAfter]
  | cons w vs ih =>
      have hw : Reread w := h w (List.mem_cons_self ..)
      have hvs : ∀ v ∈ vs, Reread v := fun v hv => h v (List.mem_cons_of_mem _ hv)
      rw [List.map_cons, behind_cons, resume_mark rfl]
      simp only [step, stepAfter, Option.bind_some]
      rw [resume_newLine, hw _ _ _ _ (.value _) (delimited_behind _ _ _ _), ih hvs]
      simp

/-- Reading a member. -/
theorem resume_memberText {state : State} {done : List (Option String × Json)}
    {frames : List Frame} (h : AwaitsKey state done frames) (depth : ℕ) {m : Option String × Json}
    (hm : Reread m.2) {rest : List Char} (hrest : Delimited rest) :
    resume state (memberText depth m ++ rest) =
      resume (.after m.2, .member done m.1 :: frames) rest := by
  have hblank : ∀ state cs, resume state (' ' :: cs) = resume state cs := by
    intro state cs
    rw [resume, lexemes_blank rfl]
    rfl
  rw [memberText, List.append_assoc, resume_append (spells_quote m.1 _), h.step_eq]
  simp only [Option.bind_some, List.cons_append]
  rw [resume_mark rfl]
  simp only [step, Option.bind_some]
  rw [hblank, hm _ _ _ _ (.value _) hrest]

/-- Reading the members behind the first one, up to the end of the object. -/
theorem resume_members (depth : ℕ) (frames : List Frame) (rest : List Char)
    {ms : List (Option String × Json)} (h : ∀ m ∈ ms, Reread m.2) (m : Option String × Json)
    (done : List (Option String × Json)) :
    resume (.after m.2, .member done m.1 :: frames)
        (behind depth (ms.map (memberText (depth + 1))) '\x7d' rest) =
      resume (.after (.object (done.reverse ++ m :: ms)), frames) rest := by
  induction ms generalizing m done with
  | nil =>
      rw [List.map_nil, behind, List.flatMap_nil, List.nil_append, resume_newLine, resume_mark rfl]
      simp [step, stepAfter]
  | cons n ms ih =>
      have hn : Reread n.2 := h n (List.mem_cons_self ..)
      have hms : ∀ m ∈ ms, Reread m.2 := fun m hm => h m (List.mem_cons_of_mem _ hm)
      rw [List.map_cons, behind_cons, resume_mark rfl]
      simp only [step, stepAfter, Option.bind_some]
      rw [resume_newLine, resume_memberText (.key _ _) _ hn (delimited_behind _ _ _ _), ih hms]
      simp

/-! ### Values -/

/-- An array is read as its items are. -/
theorem reread_array {items : List Json} (h : ∀ v ∈ items, Reread v) : Reread (.array items) := by
  intro depth state frames rest hstate _
  have hopen : step state .openBracket = some (.opened, frames) := by
    rw [hstate.step_eq (by simp)]
    rfl
  rw [chars, itemChars_eq_map]
  cases items with
  | nil =>
      rw [List.map_nil, enclose, List.cons_append, resume_mark rfl, hopen, Option.bind_some,
        List.singleton_append, resume_mark rfl]
      rfl
  | cons v vs =>
      have hv : Reread v := h v (List.mem_cons_self ..)
      have hvs : ∀ v ∈ vs, Reread v := fun v hv => h v (List.mem_cons_of_mem _ hv)
      rw [List.map_cons, enclose_cons, resume_mark rfl, hopen, Option.bind_some, resume_newLine,
        hv _ _ _ _ (.opened _) (delimited_behind _ _ _ _), resume_items _ _ _ hvs]
      rfl

/-- An object is read as its members are. -/
theorem reread_object {members : List (Option String × Json)} (h : ∀ m ∈ members, Reread m.2) :
    Reread (.object members) := by
  intro depth state frames rest hstate _
  have hopen : step state .openBrace = some (.firstKey, frames) := by
    rw [hstate.step_eq (by simp)]
    rfl
  rw [chars, memberChars_eq_map]
  cases members with
  | nil =>
      rw [List.map_nil, enclose, List.cons_append, resume_mark rfl, hopen, Option.bind_some,
        List.singleton_append, resume_mark rfl]
      rfl
  | cons m ms =>
      have hm : Reread m.2 := h m (List.mem_cons_self ..)
      have hms : ∀ m ∈ ms, Reread m.2 := fun m hm => h m (List.mem_cons_of_mem _ hm)
      rw [List.map_cons, enclose_cons, resume_mark rfl, hopen, Option.bind_some, resume_newLine,
        resume_memberText (.firstKey _) _ hm (delimited_behind _ _ _ _), resume_members _ _ _ hms]
      rfl

/-- **What is written for a value is read as the value.** -/
theorem Plain.reread {v : Json} (h : Plain v) : Reread v := by
  induction h with
  | null =>
      intro depth state frames rest hstate _
      exact hstate.resume_lexeme (spells_null rest) (by simp) rfl
  | bool b =>
      intro depth state frames rest hstate _
      cases b with
      | true => exact hstate.resume_lexeme (spells_true rest) (by simp) rfl
      | false => exact hstate.resume_lexeme (spells_false rest) (by simp) rfl
  | ofNat n =>
      intro depth state frames rest hstate hrest
      exact hstate.resume_lexeme (spells_ofNat n hrest) (by simp) rfl
  | string text =>
      intro depth state frames rest hstate _
      exact hstate.resume_lexeme (spells_quote text rest) (by simp) rfl
  | array _ ih => exact reread_array ih
  | object _ ih => exact reread_object ih

/-- **A written value is read back.** -/
theorem Plain.parse_render {v : Json} (h : Plain v) : parse v.render = some v := by
  have hread : resume (.value, []) (chars 0 v) = some (.after v, []) := by
    have hchars := h.reread 0 (.value, []) [] [] (.value []) delimited_nil
    rw [List.append_nil, resume_nil] at hchars
    exact hchars
  obtain ⟨ls, hls, hfold⟩ := Option.bind_eq_some_iff.1 hread
  rw [parse, render, String.toList_ofList, hls, Option.bind_some, ofLexemes, hfold]

end Ambit.Json
