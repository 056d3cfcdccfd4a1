/-
Offsets and places.

The place of an offset is found by counting bytes from the beginning of the text, and the offset of
a place by looking for the newline that ends the line before it.  The two agree because a text is
either one line, or a line, its newline and the rest of the text: on the first line a column is an
offset counted from one, and behind the newline both functions start anew, the one with the lines
counted from two and the other with the first line skipped.  All statements are proved along this
division of the text.

A place need not be one of the text.  Its offset then belongs to the last place before it that is.

Main definitions:

* `Ambit.Text.Place.Before` — the order of places, by line and then by column;
* `Ambit.Text.Place.counted` — a place counted from one;
* `Ambit.Text.Place.InText` — **the places of a text**: a line between newlines, and a column at one
  of its bytes or right behind them.

Main results:

* `Ambit.Text.lineInduction` — induction on the lines of a text;
* `Ambit.Text.offsetAt_placeAt` — the offset of the place of an offset;
* `Ambit.Text.before_placeAt` — places come in the order of their offsets;
* `Ambit.Text.placeAt_offsetAt_eq_iff` — which places are those of their offsets;
* `Ambit.Text.offsets_and_places` — **offsets and places are inverse**.
-/

import Ambit.Text.Place
import Mathlib.Data.List.TakeWhile
import Mathlib.Data.Nat.Init

set_option relaxedAutoImplicit false
set_option autoImplicit false

namespace Ambit.Text

variable {text line rest : List UInt8} {p q : Place} {o : ℕ}

/-! ### Places -/

attribute [ext] Place

namespace Place

/-- The order of places: by line, and then by column. -/
def Before (p q : Place) : Prop := p.line < q.line ∨ p.line = q.line ∧ p.column < q.column

theorem Before.trans {r : Place} (h : p.Before q) (h' : q.Before r) : p.Before r := by
  rcases h with h | ⟨h, hcolumn⟩ <;> rcases h' with h' | ⟨h', hcolumn'⟩ <;> rw [Before] <;> omega

/-- A place counted from one: a line or column zero counts as one. -/
def counted (p : Place) : Place := ⟨max p.line 1, max p.column 1⟩

@[simp] theorem counted_line (p : Place) : p.counted.line = max p.line 1 := rfl

@[simp] theorem counted_column (p : Place) : p.counted.column = max p.column 1 := rfl

/-- The same column one line further down. -/
def below (p : Place) : Place := ⟨p.line + 1, p.column⟩

@[simp] theorem below_line (p : Place) : p.below.line = p.line + 1 := rfl

@[simp] theorem below_column (p : Place) : p.below.column = p.column := rfl

@[simp] theorem below_inj : p.below = q.below ↔ p = q := by
  cases p
  cases q
  simp [below]

@[simp] theorem below_before : p.below.Before q.below ↔ p.Before q := by
  simp [below, Before]

theorem counted_below (hp : 0 < p.line) : p.below.counted = p.counted.below := by
  have hline : max (p.line + 1) 1 = max p.line 1 + 1 := by omega
  rw [counted, below_line, below_column, hline]
  rfl

theorem advance_below (p : Place) (b : UInt8) : p.below.advance b = (p.advance b).below := by
  rw [advance, advance]
  split <;> rfl

theorem before_advance (p : Place) (b : UInt8) : p.Before (p.advance b) := by
  rw [advance]
  split
  · exact .inl (Nat.lt_succ_self _)
  · exact .inr ⟨rfl, Nat.lt_succ_self _⟩

/-- **The places of a text.**  The line is one of those between the newlines, and the column stands
at one of its bytes or right behind them. -/
structure InText (text : List UInt8) (p : Place) : Prop where
  line_pos : 0 < p.line
  column_pos : 0 < p.column
  fits : ∃ line, (text.splitOn newline)[p.line - 1]? = some line ∧ p.column ≤ line.length + 1

end Place

/-! ### The lines of a text -/

/-- **Induction on the lines of a text**: it is one line, or a line, its newline and the rest. -/
theorem lineInduction {motive : List UInt8 → Prop}
    (last : ∀ line, newline ∉ line → motive line)
    (more : ∀ line rest, newline ∉ line → motive rest → motive (line ++ newline :: rest))
    (text : List UInt8) : motive text := by
  induction hn : text.length using Nat.strong_induction_on generalizing text with
  | _ n ih =>
      by_cases hmem : newline ∈ text
      · obtain ⟨line, rest, rfl, hline⟩ := List.eq_append_cons_of_mem hmem
        have hshorter : rest.length < n := by
          rw [← hn, List.length_append, List.length_cons]
          omega
        exact more line rest hline (ih _ hshorter rest rfl)
      · exact last text hmem

theorem splitOn_line (h : newline ∉ line) : line.splitOn newline = [line] :=
  List.splitOnP_eq_singleton fun _ hb => beq_eq_false_iff_ne.2 fun heq => h (heq ▸ hb)

theorem splitOn_more (h : newline ∉ line) :
    (line ++ newline :: rest).splitOn newline = line :: rest.splitOn newline := by
  have hcut := List.splitOnP_append_cons (p := (· == newline)) line rest (beq_self_eq_true newline)
  exact hcut.trans (congrArg (· ++ _) (splitOn_line h))

/-! ### The place of an offset -/

theorem foldl_advance_line (h : newline ∉ line) (p : Place) :
    line.foldl Place.advance p = ⟨p.line, p.column + line.length⟩ := by
  induction line generalizing p with
  | nil => rfl
  | cons b line ih =>
      have hb : b ≠ newline := fun heq => h (heq ▸ List.mem_cons_self ..)
      rw [List.foldl_cons, Place.advance, if_neg hb, ih fun hmem => h (List.mem_cons_of_mem _ hmem),
        List.length_cons]
      dsimp only
      rw [Nat.add_assoc, Nat.add_comm 1]

theorem foldl_advance_below (bytes : List UInt8) (p : Place) :
    bytes.foldl Place.advance p.below = (bytes.foldl Place.advance p).below := by
  induction bytes generalizing p with
  | nil => rfl
  | cons b bytes ih => rw [List.foldl_cons, List.foldl_cons, Place.advance_below, ih]

theorem placeAt_line (h : newline ∉ line) (ho : o ≤ line.length) :
    placeAt (line ++ rest) o = ⟨1, o + 1⟩ := by
  have htake : newline ∉ line.take o := fun hmem => h (List.mem_of_mem_take hmem)
  rw [placeAt, List.take_append_of_le_length ho, foldl_advance_line htake, List.length_take,
    Nat.min_eq_left ho, Nat.add_comm 1]

/-- Behind a newline the place is counted anew, one line further down. -/
theorem placeAt_more (h : newline ∉ line) (o : ℕ) :
    placeAt (line ++ newline :: rest) (line.length + 1 + o) = (placeAt rest o).below := by
  have htake : (line ++ newline :: rest).take (line.length + 1 + o) =
      line ++ newline :: rest.take o := by
    rw [Nat.add_assoc, List.take_length_add_append, Nat.add_comm 1, List.take_succ_cons]
  have hnext : Place.advance ⟨1, 1 + line.length⟩ newline = Place.below ⟨1, 1⟩ := rfl
  rw [placeAt, htake, List.foldl_append, foldl_advance_line h, List.foldl_cons, hnext,
    foldl_advance_below]
  rfl

theorem placeAt_succ (ho : o < text.length) :
    placeAt text (o + 1) = (placeAt text o).advance text[o] := by
  rw [placeAt, List.take_succ_eq_append_getElem ho, List.foldl_append]
  rfl

/-- **Places come in the order of their offsets.** -/
theorem before_placeAt {o' : ℕ} (h : o < o') (ho' : o' ≤ text.length) :
    (placeAt text o).Before (placeAt text o') := by
  induction h with
  | refl =>
      rw [placeAt_succ ho']
      exact Place.before_advance _ _
  | step _ ih =>
      rw [placeAt_succ ho']
      exact (ih (Nat.le_of_succ_le ho')).trans (Place.before_advance _ _)

theorem foldl_advance_le (bytes : List UInt8) (p : Place) (hline : 0 < p.line)
    (hcolumn : 0 < p.column) :
    0 < (bytes.foldl Place.advance p).line ∧ 0 < (bytes.foldl Place.advance p).column ∧
      (bytes.foldl Place.advance p).line + (bytes.foldl Place.advance p).column ≤
        p.line + p.column + bytes.length := by
  induction bytes generalizing p with
  | nil => exact ⟨hline, hcolumn, Nat.le_refl _⟩
  | cons b bytes ih =>
      have hstep : 0 < (p.advance b).line ∧ 0 < (p.advance b).column ∧
          (p.advance b).line + (p.advance b).column ≤ p.line + p.column + 1 := by
        rw [Place.advance]
        split <;> dsimp only <;> omega
      obtain ⟨hline', hcolumn', hsum⟩ := ih _ hstep.1 hstep.2.1
      rw [List.foldl_cons, List.length_cons]
      exact ⟨hline', hcolumn', by omega⟩

theorem placeAt_pos (text : List UInt8) (o : ℕ) :
    0 < (placeAt text o).line ∧ 0 < (placeAt text o).column :=
  have hcount := foldl_advance_le (text.take o) ⟨1, 1⟩ Nat.one_pos Nat.one_pos
  ⟨hcount.1, hcount.2.1⟩

theorem placeAt_le (text : List UInt8) (o : ℕ) :
    (placeAt text o).line ≤ text.length + 1 ∧ (placeAt text o).column ≤ text.length + 1 := by
  have htake : (text.take o).length ≤ text.length := List.length_take_le' o text
  have hcount := foldl_advance_le (text.take o) ⟨1, 1⟩ Nat.one_pos Nat.one_pos
  dsimp only at hcount
  rw [placeAt]
  omega

/-! ### The offset of a place -/

theorem lineLength_line (h : newline ∉ line) : lineLength line = line.length := by
  rw [lineLength, List.takeWhile_eq_self_iff.2]
  exact fun b hb => decide_eq_true fun heq => h (heq ▸ hb)

theorem lineLength_more (h : newline ∉ line) :
    lineLength (line ++ newline :: rest) = line.length := by
  have hbytes : ∀ b ∈ line, decide (b ≠ newline) = true :=
    fun b hb => decide_eq_true fun heq => h (heq ▸ hb)
  rw [lineLength, List.takeWhile_append_of_pos hbytes]
  simp

theorem lineStart_line (h : newline ∉ line) (n : ℕ) : lineStart (n + 1) line = none := by
  induction line with
  | nil => rfl
  | cons b line ih =>
      have hb : b ≠ newline := fun heq => h (heq ▸ List.mem_cons_self ..)
      rw [lineStart, if_neg hb, ih fun hmem => h (List.mem_cons_of_mem _ hmem)]
      rfl

theorem lineStart_more (h : newline ∉ line) (n : ℕ) :
    lineStart (n + 1) (line ++ newline :: rest) =
      (lineStart n rest).map (line.length + 1 + ·) := by
  induction line with
  | nil => simp [lineStart, Nat.add_comm]
  | cons b line ih =>
      have hb : b ≠ newline := fun heq => h (heq ▸ List.mem_cons_self ..)
      rw [List.cons_append, lineStart, if_neg hb, ih fun hmem => h (List.mem_cons_of_mem _ hmem),
        Option.map_map]
      refine congrFun (congrArg _ (funext fun start => ?_)) _
      rw [Function.comp_apply, List.length_cons]
      omega

theorem offsetAt_first (h : p.line ≤ 1) :
    offsetAt text p = min (p.column - 1) (lineLength text) := by
  have hzero : p.line - 1 = 0 := by omega
  rw [offsetAt, hzero, lineStart]
  simp

theorem offsetAt_past (h : newline ∉ line) (hp : 0 < p.line) :
    offsetAt line p.below = line.length := by
  have hsucc : p.below.line - 1 = p.line - 1 + 1 := by
    rw [Place.below_line]
    omega
  rw [offsetAt, hsucc, lineStart_line h]

/-- Behind a newline the lines are looked for anew. -/
theorem offsetAt_more (h : newline ∉ line) (hp : 0 < p.line) :
    offsetAt (line ++ newline :: rest) p.below = line.length + 1 + offsetAt rest p := by
  have hsucc : p.below.line - 1 = p.line - 1 + 1 := by
    rw [Place.below_line]
    omega
  rw [offsetAt, offsetAt, hsucc, lineStart_more h]
  cases lineStart (p.line - 1) rest with
  | none =>
      rw [Option.map_none, List.length_append, List.length_cons]
      dsimp only
      omega
  | some start =>
      have hdrop : (line ++ newline :: rest).drop (line.length + 1 + start) = rest.drop start := by
        rw [Nat.add_assoc, List.drop_length_add_append, Nat.add_comm 1, List.drop_succ_cons]
      rw [Option.map_some]
      dsimp only
      rw [hdrop, Place.below_column]
      omega

theorem offsetAt_counted (text : List UInt8) (p : Place) :
    offsetAt text p.counted = offsetAt text p := by
  have hline : max p.line 1 - 1 = p.line - 1 := by omega
  have hcolumn : max p.column 1 - 1 = p.column - 1 := by omega
  rw [offsetAt, offsetAt, Place.counted_line, Place.counted_column, hline, hcolumn]

theorem Place.first_or_below (p : Place) : p.line ≤ 1 ∨ ∃ q : Place, 0 < q.line ∧ p = q.below := by
  by_cases h : p.line ≤ 1
  · exact .inl h
  · refine .inr ⟨⟨p.line - 1, p.column⟩, by dsimp only; omega, ?_⟩
    rw [below, Nat.sub_add_cancel (by omega)]

theorem lineLength_le (text : List UInt8) : lineLength text ≤ text.length :=
  (List.takeWhile_sublist _).length_le

theorem offsetAt_le_length (text : List UInt8) (p : Place) : offsetAt text p ≤ text.length := by
  induction text using lineInduction generalizing p with
  | last line hline =>
      obtain hp | ⟨q, hq, rfl⟩ := p.first_or_below
      · rw [offsetAt_first hp]
        exact (Nat.min_le_right ..).trans (lineLength_le _)
      · exact (offsetAt_past hline hq).le
  | more line rest hline ih =>
      obtain hp | ⟨q, hq, rfl⟩ := p.first_or_below
      · rw [offsetAt_first hp]
        exact (Nat.min_le_right ..).trans (lineLength_le _)
      · rw [offsetAt_more hline hq, List.length_append, List.length_cons]
        have := ih q
        omega

/-! ### There and back -/

/-- **The offset of the place of an offset** is that offset. -/
theorem offsetAt_placeAt (ho : o ≤ text.length) : offsetAt text (placeAt text o) = o := by
  induction text using lineInduction generalizing o with
  | last line hline =>
      rw [← List.append_nil line, placeAt_line hline ho, List.append_nil,
        offsetAt_first (Nat.le_refl 1), lineLength_line hline, Nat.add_sub_cancel,
        Nat.min_eq_left ho]
  | more line rest hline ih =>
      by_cases hfirst : o ≤ line.length
      · rw [placeAt_line hline hfirst, offsetAt_first (Nat.le_refl 1), lineLength_more hline,
          Nat.add_sub_cancel, Nat.min_eq_left hfirst]
      · obtain ⟨o', rfl⟩ : ∃ o', o = line.length + 1 + o' := ⟨o - (line.length + 1), by omega⟩
        rw [List.length_append, List.length_cons] at ho
        rw [placeAt_more hline, offsetAt_more hline (placeAt_pos rest o').1, ih (by omega)]

theorem inText_line (h : newline ∉ line) :
    p.InText line ↔ p.line = 1 ∧ 0 < p.column ∧ p.column ≤ line.length + 1 := by
  constructor
  · rintro ⟨hline, hcolumn, bytes, hbytes, hfits⟩
    rw [splitOn_line h, List.getElem?_singleton] at hbytes
    split at hbytes
    · cases hbytes
      exact ⟨by omega, hcolumn, hfits⟩
    · cases hbytes
  · rintro ⟨hline, hcolumn, hfits⟩
    refine ⟨by omega, hcolumn, line, ?_, hfits⟩
    rw [splitOn_line h, hline]
    rfl

theorem inText_more_first (h : newline ∉ line) (hp : p.line = 1) :
    p.InText (line ++ newline :: rest) ↔ 0 < p.column ∧ p.column ≤ line.length + 1 := by
  constructor
  · rintro ⟨-, hcolumn, bytes, hbytes, hfits⟩
    rw [splitOn_more h, hp] at hbytes
    cases hbytes
    exact ⟨hcolumn, hfits⟩
  · rintro ⟨hcolumn, hfits⟩
    refine ⟨by omega, hcolumn, line, ?_, hfits⟩
    rw [splitOn_more h, hp]
    rfl

theorem inText_more_below (h : newline ∉ line) (hp : 0 < p.line) :
    p.below.InText (line ++ newline :: rest) ↔ p.InText rest := by
  have hlines : ((line ++ newline :: rest).splitOn newline)[p.below.line - 1]? =
      (rest.splitOn newline)[p.line - 1]? := by
    obtain ⟨n, hn⟩ : ∃ n, p.line = n + 1 := ⟨p.line - 1, by omega⟩
    rw [splitOn_more h, Place.below_line, hn]
    rfl
  constructor
  · rintro ⟨-, hcolumn, hfits⟩
    exact ⟨hp, hcolumn, hlines ▸ hfits⟩
  · rintro ⟨-, hcolumn, hfits⟩
    exact ⟨Nat.succ_pos _, hcolumn, hlines ▸ hfits⟩

theorem inText_placeAt (ho : o ≤ text.length) : (placeAt text o).InText text := by
  induction text using lineInduction generalizing o with
  | last line hline =>
      rw [← List.append_nil line, placeAt_line hline ho, List.append_nil, inText_line hline]
      exact ⟨rfl, Nat.succ_pos o, Nat.succ_le_succ ho⟩
  | more line rest hline ih =>
      by_cases hfirst : o ≤ line.length
      · rw [placeAt_line hline hfirst, inText_more_first hline rfl]
        exact ⟨Nat.succ_pos o, Nat.succ_le_succ hfirst⟩
      · obtain ⟨o', rfl⟩ : ∃ o', o = line.length + 1 + o' := ⟨o - (line.length + 1), by omega⟩
        rw [List.length_append, List.length_cons] at ho
        rw [placeAt_more hline, inText_more_below hline (placeAt_pos rest o').1]
        exact ih (by omega)

theorem placeAt_offsetAt_first (hp : p.line ≤ 1) :
    placeAt text (offsetAt text p) = ⟨1, min (p.column - 1) (lineLength text) + 1⟩ := by
  have hline : newline ∉ text.takeWhile (· ≠ newline) := by
    intro hmem
    have hne := List.mem_takeWhile_imp hmem
    exact of_decide_eq_true hne rfl
  have hplace : placeAt (text.takeWhile (· ≠ newline) ++ text.dropWhile (· ≠ newline))
      (min (p.column - 1) (lineLength text)) = ⟨1, min (p.column - 1) (lineLength text) + 1⟩ :=
    placeAt_line hline (Nat.min_le_right ..)
  rw [offsetAt_first hp]
  rwa [List.takeWhile_append_dropWhile] at hplace

theorem placeAt_offsetAt_first_le (hp : p.line ≤ 1) :
    placeAt text (offsetAt text p) = p.counted ∨
      (placeAt text (offsetAt text p)).Before p.counted := by
  rw [placeAt_offsetAt_first hp, Place.counted, Place.Before, Place.mk.injEq]
  dsimp only
  omega

/-- A place of the text is the place of its offset. -/
theorem placeAt_offsetAt (hp : p.InText text) : placeAt text (offsetAt text p) = p := by
  induction text using lineInduction generalizing p with
  | last line hline =>
      obtain ⟨hfirst, hcolumn, hfits⟩ := (inText_line hline).1 hp
      rw [placeAt_offsetAt_first hfirst.le, lineLength_line hline]
      exact Place.ext hfirst.symm (by dsimp only; omega)
  | more line rest hline ih =>
      obtain hfirst | ⟨q, hq, rfl⟩ := p.first_or_below
      · have hone : p.line = 1 := Nat.le_antisymm hfirst hp.line_pos
        obtain ⟨hcolumn, hfits⟩ := (inText_more_first hline hone).1 hp
        rw [placeAt_offsetAt_first hfirst, lineLength_more hline]
        exact Place.ext hone.symm (by dsimp only; omega)
      · rw [offsetAt_more hline hq, placeAt_more hline, ih ((inText_more_below hline hq).1 hp)]

theorem placeAt_offsetAt_le (text : List UInt8) (p : Place) :
    placeAt text (offsetAt text p) = p.counted ∨
      (placeAt text (offsetAt text p)).Before p.counted := by
  induction text using lineInduction generalizing p with
  | last line hline =>
      obtain hfirst | ⟨q, hq, rfl⟩ := p.first_or_below
      · exact placeAt_offsetAt_first_le hfirst
      · -- the text ends on its first line, the place stands below it
        have hplace : placeAt (line ++ []) line.length = _ := placeAt_line hline (Nat.le_refl _)
        rw [List.append_nil] at hplace
        rw [offsetAt_past hline hq, hplace]
        exact .inr (.inl (by rw [Place.counted, Place.below_line]; dsimp only; omega))
  | more line rest hline ih =>
      obtain hfirst | ⟨q, hq, rfl⟩ := p.first_or_below
      · exact placeAt_offsetAt_first_le hfirst
      · rw [offsetAt_more hline hq, placeAt_more hline, Place.counted_below hq, Place.below_inj,
          Place.below_before]
        exact ih q

/-- **Which places are those of their offsets**: the places of the text. -/
theorem placeAt_offsetAt_eq_iff (text : List UInt8) (p : Place) :
    placeAt text (offsetAt text p) = p.counted ↔ p.counted.InText text := by
  constructor
  · intro h
    exact h ▸ inText_placeAt (offsetAt_le_length text p)
  · intro h
    rw [← offsetAt_counted]
    exact placeAt_offsetAt h

/-- **Offsets and places are inverse.**  Up to the end of the text, an offset is found again from
its place, and the places come in the order of the offsets; lines and columns stay within 32 bits
where the text does.  Any line and column, in the text or not, lead to the offset of a place that
is not later, and to their own place exactly when the text has it. -/
theorem offsets_and_places (text : List UInt8) :
    (∀ o ≤ text.length, offsetAt text (placeAt text o) = o) ∧
    (∀ o o', o < o' → o' ≤ text.length → (placeAt text o).Before (placeAt text o')) ∧
    (text.length + 1 < UInt32.size →
      ∀ o, (placeAt text o).line < UInt32.size ∧ (placeAt text o).column < UInt32.size) ∧
    (∀ p, offsetAt text p ≤ text.length) ∧
    (∀ p, placeAt text (offsetAt text p) = p.counted ∨
      (placeAt text (offsetAt text p)).Before p.counted) ∧
    (∀ p, placeAt text (offsetAt text p) = p.counted ↔ p.counted.InText text) ∧
    (∀ p, p.InText text ↔ ∃ o ≤ text.length, placeAt text o = p) := by
  refine ⟨fun o => offsetAt_placeAt, fun o o' => before_placeAt, fun hsize o => ?_,
    offsetAt_le_length text, placeAt_offsetAt_le text, placeAt_offsetAt_eq_iff text,
    fun p => ⟨fun hp => ?_, ?_⟩⟩
  · obtain ⟨hline, hcolumn⟩ := placeAt_le text o
    exact ⟨by omega, by omega⟩
  · exact ⟨offsetAt text p, offsetAt_le_length text p, placeAt_offsetAt hp⟩
  · rintro ⟨o, ho, rfl⟩
    exact inText_placeAt ho

/-- A letter of two bytes, a blank line and a newline at the end: the offset inside the letter is a
column, the end of the text is a line of its own, and the blank line has one place only. -/
theorem offsets_and_places_blankLine :
    offsetAt (bytes "é\n\nb\n") (placeAt (bytes "é\n\nb\n") 1) = 1 ∧
      (placeAt (bytes "é\n\nb\n") 3).Before (placeAt (bytes "é\n\nb\n") 6) ∧
      (placeAt (bytes "é\n\nb\n") 6).line < UInt32.size ∧
      (⟨4, 1⟩ : Place).InText (bytes "é\n\nb\n") ∧ ¬(⟨2, 2⟩ : Place).InText (bytes "é\n\nb\n") := by
  obtain ⟨hback, horder, hsize, -, -, hown, hplaces⟩ := offsets_and_places (bytes "é\n\nb\n")
  refine ⟨hback 1 (by decide +kernel), horder 3 6 (by decide) (by decide +kernel),
    (hsize (by decide +kernel) 6).1,
    (hplaces ⟨4, 1⟩).2 ⟨6, by decide +kernel, by decide +kernel⟩, fun hp => ?_⟩
  have hcut : placeAt (bytes "é\n\nb\n") (offsetAt (bytes "é\n\nb\n") ⟨2, 2⟩) = ⟨2, 1⟩ := by
    decide +kernel
  exact absurd (hcut.symm.trans ((hown ⟨2, 2⟩).2 hp)) (by decide)

end Ambit.Text
