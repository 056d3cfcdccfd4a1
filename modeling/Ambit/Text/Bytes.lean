/-
Texts as lists of characters, measured in bytes.

Offsets into a text count the bytes of its UTF-8 form, while the text itself is read character by
character.  This module measures a list of characters in bytes, cuts it at a byte offset, and takes
the longest part of it that fits in a number of bytes.

Main definitions:

* `Ambit.Text.byteLength` — the number of bytes of a list of characters;
* `Ambit.Text.cutAt` — cutting at a byte offset, which has to fall between two characters;
* `Ambit.Text.between?` — the part between two such offsets;
* `Ambit.Text.takeBytes`, `Ambit.Text.upTo` — the longest beginning within a number of bytes;
* `Ambit.Text.dropBytes`, `Ambit.Text.slice` — the rest after an offset, and the part between two.

Main results:

* `Ambit.Text.cutAt_eq_some_iff` — **a cut** at `n` is a splitting of the text whose first part has
  `n` bytes;
* `Ambit.Text.between?_eq_some_iff` — a part is what is left between a beginning and an end;
* `Ambit.Text.byteLength_takeBytes_le` — a beginning within `n` bytes has at most `n` bytes.
-/

set_option relaxedAutoImplicit false
set_option autoImplicit false

namespace Ambit.Text

/-! ### Measuring -/

/-- The number of bytes of a list of characters. -/
def byteLength : List Char → Nat
  | [] => 0
  | c :: cs => c.utf8Size + byteLength cs

@[simp] theorem byteLength_nil : byteLength [] = 0 := rfl

@[simp] theorem byteLength_cons (c : Char) (cs : List Char) :
    byteLength (c :: cs) = c.utf8Size + byteLength cs := rfl

@[simp] theorem byteLength_append (as bs : List Char) :
    byteLength (as ++ bs) = byteLength as + byteLength bs := by
  induction as with
  | nil => simp
  | cons c as ih => simp [ih]; omega

/-! ### Cutting -/

/-- Cut a text at a byte offset.  There is no cut past the end or inside a character. -/
def cutAt (n : Nat) : List Char → Option (List Char × List Char)
  | [] => if n = 0 then some ([], []) else none
  | c :: cs =>
      if n = 0 then some ([], c :: cs)
      else if c.utf8Size ≤ n then
        (cutAt (n - c.utf8Size) cs).map fun (as, bs) => (c :: as, bs)
      else none

/-- **A cut** at `n` is a splitting of the text whose first part has `n` bytes. -/
theorem cutAt_eq_some_iff {n : Nat} {cs as bs : List Char} :
    cutAt n cs = some (as, bs) ↔ as ++ bs = cs ∧ byteLength as = n := by
  induction cs generalizing n as with
  | nil =>
      rw [cutAt]
      split
      · rename_i h
        subst h
        constructor
        · rintro ⟨⟩
          exact ⟨rfl, rfl⟩
        · rintro ⟨h, -⟩
          obtain ⟨rfl, rfl⟩ := List.append_eq_nil_iff.1 h
          rfl
      · rename_i h
        simp only [reduceCtorEq, false_iff, not_and]
        intro h' hn
        obtain ⟨rfl, rfl⟩ := List.append_eq_nil_iff.1 h'
        exact h hn.symm
  | cons c cs ih =>
      have hc := Char.utf8Size_pos c
      rw [cutAt]
      split
      · rename_i h
        subst h
        constructor
        · rintro ⟨⟩
          exact ⟨rfl, rfl⟩
        · rintro ⟨h, hn⟩
          cases as with
          | nil => simpa using h.symm
          | cons a as =>
              simp only [byteLength_cons] at hn
              have := Char.utf8Size_pos a
              omega
      · rename_i h
        split
        · rename_i hle
          simp only [Option.map_eq_some_iff, Prod.mk.injEq, Prod.exists]
          constructor
          · rintro ⟨as', bs', hcut, rfl, rfl⟩
            obtain ⟨rfl, hn⟩ := ih.1 hcut
            exact ⟨rfl, by rw [byteLength_cons, hn]; omega⟩
          · rintro ⟨happ, hn⟩
            cases as with
            | nil => exact absurd hn.symm h
            | cons a as =>
                simp only [List.cons_append, List.cons.injEq] at happ
                obtain ⟨rfl, happ⟩ := happ
                rw [byteLength_cons] at hn
                exact ⟨as, bs, ih.2 ⟨happ, by omega⟩, rfl, rfl⟩
        · rename_i hle
          simp only [reduceCtorEq, false_iff, not_and]
          intro happ hn
          cases as with
          | nil => exact h hn.symm
          | cons a as =>
              simp only [List.cons_append, List.cons.injEq] at happ
              rw [byteLength_cons, happ.1] at hn
              omega

/-- The part of a text between two byte offsets, both of which have to fall between two characters
or at an end. -/
def between? (start stop : Nat) (cs : List Char) : Option (List Char) :=
  if start ≤ stop then
    (cutAt start cs).bind fun cut => (cutAt (stop - start) cut.2).map Prod.fst
  else none

/-- **The part between two offsets** has something before it, up to the first offset, and something
after it, from the second one on. -/
theorem between?_eq_some_iff {start stop : Nat} {cs part : List Char} :
    between? start stop cs = some part ↔ ∃ before after, before ++ part ++ after = cs ∧
      byteLength before = start ∧ byteLength (before ++ part) = stop := by
  rw [between?]
  constructor
  · intro h
    split at h
    · rename_i hle
      simp only [Option.bind_eq_some_iff, Option.map_eq_some_iff, Prod.exists] at h
      obtain ⟨before, rest, hcut, part', after, hcut', rfl⟩ := h
      obtain ⟨rfl, rfl⟩ := cutAt_eq_some_iff.1 hcut
      obtain ⟨rfl, hsize⟩ := cutAt_eq_some_iff.1 hcut'
      exact ⟨before, after, List.append_assoc .., rfl, by rw [byteLength_append, hsize]; omega⟩
    · cases h
  · rintro ⟨before, after, rfl, rfl, rfl⟩
    have hcut : cutAt (byteLength before) (before ++ part ++ after) = some (before, part ++ after) :=
      cutAt_eq_some_iff.2 ⟨(List.append_assoc ..).symm, rfl⟩
    have hcut' : cutAt (byteLength part) (part ++ after) = some (part, after) :=
      cutAt_eq_some_iff.2 ⟨rfl, rfl⟩
    rw [byteLength_append, if_pos (Nat.le_add_right ..), hcut, Option.bind_some,
      Nat.add_sub_cancel_left, hcut', Option.map_some]

/-! ### Beginnings and parts -/

/-- The longest beginning of a text within `n` bytes. -/
def takeBytes (n : Nat) : List Char → List Char
  | [] => []
  | c :: cs => if c.utf8Size ≤ n then c :: takeBytes (n - c.utf8Size) cs else []

/-- A beginning within `n` bytes has at most `n` bytes. -/
theorem byteLength_takeBytes_le (n : Nat) (cs : List Char) : byteLength (takeBytes n cs) ≤ n := by
  induction cs generalizing n with
  | nil => simp [takeBytes]
  | cons c cs ih =>
      rw [takeBytes]
      split
      · have := ih (n - c.utf8Size)
        rw [byteLength_cons]
        omega
      · simp

/-- The rest of a text from a byte offset on. -/
def dropBytes (n : Nat) (cs : List Char) : List Char :=
  match cutAt n cs with
  | some (_, rest) => rest
  | none => []

/-- The part of a text between two byte offsets. -/
def slice (start stop : Nat) (cs : List Char) : List Char :=
  takeBytes (stop - start) (dropBytes start cs)

/-- The longest beginning of a string within `n` bytes. -/
def upTo (s : String) (n : Nat) : String := String.ofList (takeBytes n s.toList)

end Ambit.Text
