/-
Texts of whole pieces.

Where one text is put behind another, the tokens of the two need not be the tokens of the whole: the
last piece of the first text may go on in the second.  It does so in a literal or a comment that is
still open.  Otherwise it ends, if what follows begins with a space, or with a slash that makes no
comment with a slash before it.  Then the two texts are read one after the other.

Whether a text ends inside a literal or a comment can be seen from the outside, by putting a space
and a letter behind it: the letter is read as a name exactly when nothing is open.

Main definitions:

* `Ambit.Token.Apart` — what can be put behind a text without going on its last piece;
* `Ambit.Token.Whole` — a text in which no piece goes on behind it;
* `Ambit.EndsOutside` — a text that ends outside literals and comments, seen from the outside.

Main results:

* `Ambit.Token.piece_stays_or_runs` — **a piece ends in its text, or it goes on to the end** of what
  follows;
* `Ambit.Token.Whole.tokensFrom_append` — **the tokens of two texts, one behind the other**;
* `Ambit.endsOutside_iff_whole` — **a text ends outside literals and comments** exactly when its
  pieces are whole.
-/

import Ambit.Proofs.Token.Partition

set_option relaxedAutoImplicit false
set_option autoImplicit false

namespace Ambit

open Ambit.Text
open Identifier (isStart isPart)

namespace Token

variable {c : Char} {cs later : List Char}

/-! ### What follows a text -/

/-- A text that begins with a space or with a slash, if it begins at all. -/
def Breaks (later : List Char) : Prop := ∀ d ∈ later.head?, d = ' ' ∨ d = '/'

theorem Breaks.cases (h : Breaks later) :
    later = [] ∨ (∃ rest, later = ' ' :: rest) ∨ ∃ rest, later = '/' :: rest := by
  cases later with
  | nil => exact Or.inl rfl
  | cons d rest =>
      rcases h d rfl with rfl | rfl
      · exact Or.inr (Or.inl ⟨rest, rfl⟩)
      · exact Or.inr (Or.inr ⟨rest, rfl⟩)

/-- Another character stands in the text itself, and not in what follows. -/
theorem Breaks.append_eq_cons {d : Char} {rest : List Char} (h : Breaks later) (hspace : d ≠ ' ')
    (hslash : d ≠ '/') (heq : cs ++ later = d :: rest) :
    ∃ tail, cs = d :: tail ∧ tail ++ later = rest := by
  cases cs with
  | nil =>
      subst heq
      rcases h d rfl with hd | hd
      · exact absurd hd hspace
      · exact absurd hd hslash
  | cons e tail =>
      obtain ⟨rfl, rfl⟩ := List.cons.inj heq
      exact ⟨tail, rfl, rfl⟩

theorem Breaks.append_eq_cons_cons {d e : Char} {rest : List Char} (h : Breaks later)
    (hd : d ≠ ' ' ∧ d ≠ '/') (he : e ≠ ' ' ∧ e ≠ '/') (heq : cs ++ later = d :: e :: rest) :
    ∃ tail, cs = d :: e :: tail ∧ tail ++ later = rest := by
  obtain ⟨tail, rfl, htail⟩ := h.append_eq_cons hd.1 hd.2 heq
  obtain ⟨tail, rfl, hrest⟩ := h.append_eq_cons he.1 he.2 htail
  exact ⟨tail, rfl, hrest⟩

/-- **What can be put behind a text** without going on its last piece: it begins with a space, or
with a slash that is not behind another one. -/
structure Apart (cs later : List Char) : Prop where
  breaks : Breaks later
  slash : later.head? = some '/' → cs.getLast? ≠ some '/'

/-- A space and a letter. -/
def probe : List Char := [' ', 'x']

/-! ### Scanners -/

theorem takeWhile_append_of_breaks {p : Char → Bool} (hspace : p ' ' = false)
    (hslash : p '/' = false) (h : Breaks later) :
    (cs ++ later).takeWhile p = cs.takeWhile p := by
  have hlater : later.takeWhile p = [] := by
    rcases h.cases with rfl | ⟨rest, rfl⟩ | ⟨rest, rfl⟩
    · rfl
    · rw [List.takeWhile_cons_of_neg (by simp [hspace])]
    · rw [List.takeWhile_cons_of_neg (by simp [hslash])]
  induction cs with
  | nil => exact hlater
  | cons d cs ih => rw [List.cons_append, List.takeWhile_cons, List.takeWhile_cons, ih]

theorem regularRest_escape (quote d : Char) (cs : List Char) :
    regularRest quote ('\\' :: d :: cs) =
      ((regularRest quote cs).1 + 2, (regularRest quote cs).2) := rfl

theorem regularRest_cons {quote : Char} (h : c ≠ '\\') :
    regularRest quote (c :: cs) =
      if c = quote then (1, true)
      else if c = '\n' then (0, false)
      else ((regularRest quote cs).1 + 1, (regularRest quote cs).2) := by
  rw [regularRest.eq_4 _ _ _ (fun hc => absurd hc h) (fun _ _ hc => absurd hc h)]

/-- A regular literal ends in its text, or it goes on. -/
theorem regularRest_stays_or_runs {quote : Char} (hspace : quote ≠ ' ') (hletter : quote ≠ 'x')
    (cs : List Char) :
    (∀ later, regularRest quote (cs ++ later) = regularRest quote cs) ∨
      regularRest quote (cs ++ probe) = (cs.length + 2, false) := by
  -- The cases of a character that protects nothing.
  have hplain : ∀ {d : Char} {ds : List Char}, (d = '\\' → ds = [] → False) →
      (∀ e es, d = '\\' → ds = e :: es → False) → d ≠ '\\' := by
    intro d ds hnil hcons hd
    cases ds with
    | nil => exact hnil hd rfl
    | cons e es => exact hcons e es hd rfl
  induction cs using regularRest.induct quote with
  | case1 =>
      right
      simp [probe, regularRest_cons, hspace.symm, hletter.symm, regularRest]
  | case2 =>
      right
      simp [probe, regularRest_escape, regularRest_cons, hletter.symm, regularRest]
  | case3 d cs _ _ _ ih =>
      rcases ih with hstays | hruns
      · left
        intro later
        rw [List.cons_append, List.cons_append, regularRest_escape, hstays, ← regularRest_escape]
      · right
        rw [List.cons_append, List.cons_append, regularRest_escape, hruns]
        rfl
  | case4 cs hnil hcons =>
      have hquote := hplain hnil hcons
      left
      intro later
      rw [List.cons_append, regularRest_cons hquote, regularRest_cons hquote, if_pos rfl, if_pos rfl]
  | case5 cs hnil hcons hquote =>
      have hline := hplain hnil hcons
      left
      intro later
      rw [List.cons_append, regularRest_cons hline, regularRest_cons hline, if_neg hquote,
        if_neg hquote, if_pos rfl, if_pos rfl]
  | case6 c cs hnil hcons hquote hline _ _ _ ih =>
      have hc := hplain hnil hcons
      rw [regularRest_cons hc, if_neg hquote, if_neg hline]
      simp only [List.cons_append, regularRest_cons hc, if_neg hquote, if_neg hline]
      rcases ih with hstays | hruns
      · left
        intro later
        rw [hstays]
      · right
        rw [hruns]
        rfl

theorem verbatimRest_doubled (cs : List Char) :
    verbatimRest ('"' :: '"' :: cs) = ((verbatimRest cs).1 + 2, (verbatimRest cs).2) := rfl

theorem verbatimRest_quote (h : cs.head? ≠ some '"') : verbatimRest ('"' :: cs) = (1, true) := by
  rw [verbatimRest]
  rintro cs rfl
  exact h rfl

theorem verbatimRest_cons (h : c ≠ '"') :
    verbatimRest (c :: cs) = ((verbatimRest cs).1 + 1, (verbatimRest cs).2) := by
  rw [verbatimRest]
  · exact fun _ hc => absurd hc h
  · exact h

theorem verbatimRest_stays_or_runs (cs : List Char) :
    (∀ later, Breaks later → verbatimRest (cs ++ later) = verbatimRest cs) ∨
      verbatimRest (cs ++ probe) = (cs.length + 2, false) := by
  induction cs using verbatimRest.induct with
  | case1 => exact Or.inr rfl
  | case2 cs _ _ _ ih =>
      simp only [List.cons_append, verbatimRest_doubled]
      rcases ih with hstays | hruns
      · left
        intro later hlater
        rw [hstays later hlater]
      · right
        rw [hruns]
        rfl
  | case3 cs hno =>
      -- What follows does not begin with the quote that would be the second of two.
      have hhead : ∀ {later}, Breaks later → (cs ++ later).head? ≠ some '"' := by
        intro later hlater hquote
        cases cs with
        | nil => rcases hlater '"' hquote with h | h <;> cases h
        | cons d cs => exact hno cs (by rw [Option.some.inj hquote])
      left
      intro later hlater
      rw [List.cons_append, verbatimRest_quote (hhead hlater), ← List.append_nil cs,
        verbatimRest_quote (hhead (by simp [Breaks]))]
  | case4 c cs hno hquote _ _ _ ih =>
      simp only [List.cons_append, verbatimRest_cons hquote]
      rcases ih with hstays | hruns
      · left
        intro later hlater
        rw [hstays later hlater]
      · right
        rw [hruns]
        rfl

theorem toCommentEnd_stays_or_runs (cs : List Char) :
    (∀ later, toCommentEnd (cs ++ later) = toCommentEnd cs) ∨
      toCommentEnd (cs ++ probe) = cs.length + 2 := by
  rcases exists_body_or_open cs with ⟨body, rest, rfl, hbody⟩ | hopen
  · left
    intro later
    rw [List.append_assoc _ rest, toCommentEnd_of_body hbody, toCommentEnd_of_body hbody]
  · right
    have hprobe : ¬ closing <:+: cs ++ probe := by
      induction cs with
      | nil => decide
      | cons c cs ih =>
          rw [closing_infix_cons, not_or] at hopen
          rw [List.cons_append, closing_infix_cons, not_or]
          refine ⟨fun hmark => hopen.1 ⟨hmark.1, ?_⟩, ih hopen.2⟩
          cases cs with
          | nil => cases hmark.2
          | cons d cs => exact hmark.2
    rw [toCommentEnd_of_open hprobe, List.length_append]
    rfl

theorem atLineEnd_append (hcs : cs ≠ []) (hlater : Breaks later) :
    atLineEnd (cs ++ later) = atLineEnd cs := by
  generalize heq : cs ++ later = text
  fun_cases atLineEnd text with
  | case1 => exact absurd (List.append_eq_nil_iff.1 heq).1 hcs
  | case2 rest =>
      obtain ⟨tail, rfl, -⟩ := hlater.append_eq_cons (by decide) (by decide) heq
      rfl
  | case3 rest =>
      obtain ⟨tail, rfl, -⟩ := hlater.append_eq_cons_cons (by decide) (by decide) heq
      rfl
  | case4 _ _ hline hreturn =>
      subst heq
      symm
      rw [atLineEnd]
      · exact hcs
      · rintro rest rfl
        exact hline _ rfl
      · rintro rest rfl
        exact hreturn _ rfl

theorem toLineEnd_stays_or_runs (cs : List Char) :
    (∀ later, Breaks later → toLineEnd (cs ++ later) = toLineEnd cs) ∨
      toLineEnd (cs ++ probe) = some (cs.length + 2) := by
  have hprefix := List.takeWhile_prefix (!isLineEnd ·) (l := cs)
  by_cases hwhole : (cs.takeWhile (!isLineEnd ·)).length = cs.length
  · right
    have hcs : cs.all (!isLineEnd ·) = true := by
      rw [← hprefix.eq_of_length hwhole]
      exact List.all_takeWhile
    have hbody : ∀ d ∈ cs ++ probe, isLineEnd d = false := by
      intro d hd
      rcases List.mem_append.1 hd with hd | hd
      · simpa using List.all_eq_true.1 hcs d hd
      · simp only [probe, List.mem_cons, List.not_mem_nil, or_false] at hd
        rcases hd with rfl | rfl <;> rfl
    rw [← List.append_nil (cs ++ probe), toLineEnd_of_body hbody rfl, List.length_append]
    rfl
  · left
    intro later hlater
    have hlt := Nat.lt_of_le_of_ne hprefix.length_le hwhole
    have hrest : cs.drop (cs.takeWhile (!isLineEnd ·)).length ≠ [] := by
      rw [ne_eq, List.drop_eq_nil_iff]
      exact Nat.not_le.2 hlt
    rw [toLineEnd, toLineEnd, List.takeWhile_append, if_neg hwhole,
      List.drop_append_of_le_length hlt.le, atLineEnd_append hrest hlater]

/-- A literal ends where its rest does, or it goes on without an end. -/
theorem literalPiece_stays_or_runs {scan : List Char → ℕ × Bool} {n m : ℕ}
    (hm : m = n + cs.length)
    (h : (∀ later, Breaks later → scan (cs ++ later) = scan cs) ∨
      scan (cs ++ probe) = (cs.length + 2, false)) :
    (∀ later, Breaks later →
      some (literalPiece n (scan (cs ++ later))) = some (literalPiece n (scan cs))) ∨
      some (literalPiece n (scan (cs ++ probe))) = some (.token .unterminated, m + 2) := by
  rcases h with hstays | hruns
  · left
    intro later hlater
    rw [hstays later hlater]
  · right
    rw [hruns, literalPiece, hm, Nat.add_assoc]
    rfl

/-- A string or character literal ends in its text, or it goes on. -/
theorem literalLength_stays_or_runs (c : Char) (cs : List Char) :
    (∀ later, Breaks later → literalLength c (cs ++ later) = literalLength c cs) ∨
      literalLength c (cs ++ probe) = some (.token .unterminated, cs.length + 2) := by
  have hregular : ∀ quote : Char, quote ≠ ' ' → quote ≠ 'x' → ∀ rest : List Char,
      (∀ later, Breaks later → regularRest quote (rest ++ later) = regularRest quote rest) ∨
        regularRest quote (rest ++ probe) = (rest.length + 2, false) := by
    intro quote hspace hletter rest
    exact (regularRest_stays_or_runs hspace hletter rest).imp_left fun hstays later _ =>
      hstays later
  fun_cases literalLength c cs with
  | case1 rest | case2 rest =>
      exact literalPiece_stays_or_runs (Nat.add_comm _ 2) (verbatimRest_stays_or_runs rest)
  | case3 rest =>
      exact literalPiece_stays_or_runs (Nat.add_comm _ 1) (verbatimRest_stays_or_runs rest)
  | case4 rest =>
      exact literalPiece_stays_or_runs (Nat.add_comm _ 1)
        (hregular '"' (by decide) (by decide) rest)
  | case5 =>
      exact literalPiece_stays_or_runs (Nat.zero_add _).symm
        (hregular '"' (by decide) (by decide) cs)
  | case6 =>
      exact literalPiece_stays_or_runs (Nat.zero_add _).symm
        (hregular '\'' (by decide) (by decide) cs)
  | case7 hquote happ h1 h2 h3 h4 =>
      left
      intro later hlater
      generalize heq : cs ++ later = text
      fun_cases literalLength c text with
      | case1 rest | case2 rest =>
          obtain ⟨tail, rfl, -⟩ := hlater.append_eq_cons_cons (by decide) (by decide) heq
          simp_all
      | case3 rest | case4 rest =>
          obtain ⟨tail, rfl, -⟩ := hlater.append_eq_cons (by decide) (by decide) heq
          simp_all
      | case5 | case6 => simp_all
      | case7 => rfl

theorem identifierLength_append (hlater : Breaks later) :
    identifierLength c (cs ++ later) = identifierLength c cs := by
  have hparts : ∀ cs, partsLength (cs ++ later) = partsLength cs := by
    intro cs
    rw [partsLength, partsLength, takeWhile_append_of_breaks (by decide) (by decide) hlater]
  unfold identifierLength
  rw [hparts]
  split
  · rfl
  · split
    · cases cs with
      | nil =>
          rcases hlater.cases with rfl | ⟨rest, rfl⟩ | ⟨rest, rfl⟩
          · rfl
          · exact if_neg (by decide)
          · exact if_neg (by decide)
      | cons d cs =>
          simp only [List.cons_append, hparts]
    · rfl

theorem operatorLength_append (hlater : Breaks later) :
    operatorLength c (cs ++ later) = operatorLength c cs := by
  generalize heq : cs ++ later = text
  fun_cases operatorLength c text with
  | case2 rest =>
      obtain ⟨tail, rfl, -⟩ := hlater.append_eq_cons_cons (by decide) (by decide) heq
      rfl
  | case3 rest hno =>
      obtain ⟨tail, rfl, htail⟩ := hlater.append_eq_cons (by decide) (by decide) heq
      rw [operatorLength]
      rintro rest rfl
      exact hno _ htail.symm
  | case1 | case4 | case5 | case6 | case7 | case8 | case9 | case10 | case11 | case12 | case13 =>
      obtain ⟨tail, rfl, -⟩ := hlater.append_eq_cons (by decide) (by decide) heq
      rfl
  | case14 =>
      subst heq
      symm
      fun_cases operatorLength c cs <;> simp_all

/-! ### Pieces -/

/-- A piece that ends in its text, whatever is put behind it. -/
def Stays (c : Char) (cs : List Char) : Prop :=
  ∀ later, Apart (c :: cs) later → piece c (cs ++ later) = piece c cs

/-- A piece that goes on behind its text, and never is a closed token. -/
def Runs (c : Char) (cs : List Char) : Prop :=
  piece c (cs ++ probe) = (.gap, cs.length + 2) ∨
    piece c (cs ++ probe) = (.token .unterminated, cs.length + 2)

theorem lexeme_stays_or_runs (c : Char) (cs : List Char) :
    (∀ later, Breaks later → lexeme c (cs ++ later) = lexeme c cs) ∨
      lexeme c (cs ++ probe) = (.token .unterminated, cs.length + 2) := by
  rcases literalLength_stays_or_runs c cs with hstays | hruns
  · left
    intro later hlater
    rw [lexeme, lexeme, hstays later hlater, identifierLength_append hlater,
      operatorLength_append hlater, takeWhile_append_of_breaks (by decide) (by decide) hlater]
  · right
    rw [lexeme, hruns]

theorem lexeme_slash (cs : List Char) : lexeme '/' cs = (.token .punct, 0) := by
  have hname : identifierLength '/' cs = none := by
    unfold identifierLength
    rw [if_neg (by decide), if_neg (by decide)]
  rw [lexeme, hname]
  rfl

theorem commentLength_stays_or_runs (cs : List Char) :
    (∀ later, Apart ('/' :: cs) later → commentLength (cs ++ later) = commentLength cs) ∨
      commentLength (cs ++ probe) = some (cs.length + 2) := by
  fun_cases commentLength cs with
  | case1 cs =>
      rcases toLineEnd_stays_or_runs cs with hstays | hruns
      · left
        intro later hlater
        rw [List.cons_append, commentLength, hstays later hlater.breaks]
      · right
        rw [List.cons_append, commentLength, hruns]
        rfl
  | case2 cs =>
      rcases toCommentEnd_stays_or_runs cs with hstays | hruns
      · left
        intro later _
        rw [List.cons_append, commentLength, hstays]
      · right
        rw [List.cons_append, commentLength, hruns]
        rfl
  | case3 _ hslash hstar =>
      left
      intro later hlater
      cases cs with
      | nil =>
          -- Only a second slash would begin a comment, and it is the one that is excluded.
          rcases hlater.breaks.cases with rfl | ⟨rest, rfl⟩ | ⟨rest, rfl⟩
          · rfl
          · rfl
          · exact absurd rfl (hlater.slash rfl)
      | cons d cs =>
          rw [List.cons_append, commentLength]
          · rintro rest heq
            exact hslash cs (by rw [(List.cons.inj heq).1])
          · rintro rest heq
            exact hstar cs (by rw [(List.cons.inj heq).1])

/-- **A piece ends in its text, or it goes on to the end of what follows.** -/
theorem piece_stays_or_runs (c : Char) (cs : List Char) : Stays c cs ∨ Runs c cs := by
  by_cases hgap : isGapChar c = true
  · left
    intro later _
    rw [piece, piece, if_pos hgap, if_pos hgap]
  · by_cases hslash : c = '/'
    · subst hslash
      rcases commentLength_stays_or_runs cs with hstays | hruns
      · left
        intro later hlater
        rw [piece, piece, hstays later hlater, lexeme_slash, lexeme_slash]
      · exact Or.inr (Or.inl (piece_comment hruns))
    · have hpiece : ∀ cs, piece c cs = lexeme c cs := by
        intro cs
        rw [piece, if_neg hgap, if_neg hslash]
      rcases lexeme_stays_or_runs c cs with hstays | hruns
      · left
        intro later hlater
        rw [hpiece, hpiece, hstays later hlater.breaks]
      · right
        right
        rw [hpiece, hruns]

/-! ### No piece goes beyond the end -/

theorem regularRest_le (quote : Char) (cs : List Char) :
    (regularRest quote cs).1 ≤ cs.length := by
  fun_induction regularRest quote cs <;> simp_all

theorem verbatimRest_le (cs : List Char) : (verbatimRest cs).1 ≤ cs.length := by
  fun_induction verbatimRest cs <;> simp_all

theorem toCommentEnd_le (cs : List Char) : toCommentEnd cs ≤ cs.length := by
  rcases exists_body_or_open cs with ⟨body, rest, rfl, hbody⟩ | hopen
  · rw [toCommentEnd_of_body hbody]
    simp [closing]
  · rw [toCommentEnd_of_open hopen]

theorem commentLength_le {n : ℕ} (h : commentLength cs = some n) : n ≤ cs.length := by
  fun_cases commentLength cs with
  | case1 cs =>
      rw [commentLength, toLineEnd] at h
      split at h <;> cases h
      exact Nat.succ_le_succ (List.takeWhile_prefix _).length_le
  | case2 cs =>
      cases h
      simpa using toCommentEnd_le cs
  | case3 => simp_all [commentLength]

theorem literalLength_le {step : Piece × ℕ} (h : literalLength c cs = some step) :
    step.2 ≤ cs.length := by
  have hregular := regularRest_le
  have hverbatim := verbatimRest_le
  unfold literalLength at h
  split at h <;> cases h <;> simp only [literalPiece, List.length_cons] <;> grind

theorem identifierLength_le {n : ℕ} (h : identifierLength c cs = some n) : n ≤ cs.length := by
  have hparts : ∀ cs, partsLength cs ≤ cs.length := fun _ => (List.takeWhile_prefix _).length_le
  unfold identifierLength at h
  split at h
  · cases h
    exact hparts cs
  · split at h
    · split at h
      · split at h <;> cases h
        simpa using hparts _
      · cases h
    · cases h

theorem operatorLength_le (c : Char) (cs : List Char) : operatorLength c cs ≤ cs.length := by
  fun_cases operatorLength c cs <;> simp

theorem lexeme_le (c : Char) (cs : List Char) : (lexeme c cs).2 ≤ cs.length := by
  rw [lexeme]
  split
  · rename_i step hstep
    exact literalLength_le hstep
  · split
    · rename_i n hn
      exact identifierLength_le hn
    · split
      · exact (List.takeWhile_prefix _).length_le
      · exact operatorLength_le c cs

/-- **No piece goes beyond the end of the text.** -/
theorem piece_le (c : Char) (cs : List Char) : (piece c cs).2 ≤ cs.length := by
  rw [piece]
  split
  · exact Nat.zero_le _
  · split
    · split
      · rename_i n hn
        exact commentLength_le hn
      · exact lexeme_le c cs
    · exact lexeme_le c cs

/-! ### Texts of whole pieces -/

theorem byteLength_take_add_drop (c : Char) (cs : List Char) (n : ℕ) :
    byteLength (c :: cs.take n) + byteLength (cs.drop n) = byteLength (c :: cs) := by
  rw [← byteLength_append, List.cons_append, List.take_append_drop]

/-- **A text in which no piece goes on behind it.** -/
inductive Whole : List Char → Prop
  | nil : Whole []
  | cons {c : Char} {cs : List Char} : Stays c cs → Whole (cs.drop (piece c cs).2) →
      Whole (c :: cs)

theorem Apart.drop (h : Apart (c :: cs) later) (n : ℕ) : Apart (cs.drop n) later := by
  refine ⟨h.breaks, fun hhead hlast => h.slash hhead ?_⟩
  rw [List.getLast?_drop] at hlast
  split at hlast
  · cases hlast
  · rw [List.getLast?_cons, hlast, Option.getD_some]

theorem Apart.space (cs rest : List Char) : Apart cs (' ' :: rest) where
  breaks := by simp [Breaks]
  slash := by simp

/-- **The tokens of two texts, one behind the other**: those of the first, and those of the
second. -/
theorem Whole.tokensFrom_append (hcs : Whole cs) (h : Apart cs later) (offset : ℕ) :
    tokensFrom offset (cs ++ later) =
      tokensFrom offset cs ++ tokensFrom (offset + byteLength cs) later := by
  induction hcs generalizing offset with
  | nil => simp [tokensFrom]
  | @cons c cs hstays _ ih =>
      have hle := piece_le c cs
      rw [List.cons_append, tokensFrom, tokensFrom, hstays later h,
        List.take_append_of_le_length hle, List.drop_append_of_le_length hle,
        ih (h.drop _), Nat.add_assoc, byteLength_take_add_drop]
      split <;> rfl

end Token

/-! ### Gaps -/

/-- A blank or a comment only moves the tokens behind it. -/
theorem tokensFrom_filler {filler rest : List Char} (h : Token.Filler filler rest) (offset : ℕ) :
    tokensFrom offset (filler ++ rest) = tokensFrom (offset + byteLength filler) rest := by
  obtain ⟨c, cs, rfl⟩ := h.exists_cons
  rw [List.cons_append, tokensFrom, Token.piece_of_filler h, List.take_left, List.drop_left]

/-! ### Contents -/

namespace Token

/-- What a token is, apart from where it stands. -/
def content (t : Token) : TokenKind × String := (t.kind, t.text)

/-- What a piece with the given characters is read as. -/
def Piece.contents : Piece → List Char → List (TokenKind × String)
  | .gap, _ => []
  | .token kind, cs => [(kind, String.ofList cs)]

end Token

open Token

variable {c : Char} {cs : List Char}

theorem map_content_tokensFrom (offset start : ℕ) (cs : List Char) :
    (tokensFrom offset cs).map content = (tokensFrom start cs).map content := by
  fun_induction tokensFrom offset cs generalizing start with
  | case1 => rw [tokensFrom]
  | case2 offset c cs step taken stop later hgap ih =>
      rw [tokensFrom.eq_2 start, hgap]
      exact ih _
  | case3 offset c cs step taken stop later kind htoken ih =>
      rw [tokensFrom.eq_2 start, htoken]
      exact congrArg (_ :: ·) (ih _)

def contents (cs : List Char) : List (TokenKind × String) := (tokensFrom 0 cs).map content

theorem contents_cons (c : Char) (cs : List Char) :
    contents (c :: cs) = (piece c cs).1.contents (c :: cs.take (piece c cs).2) ++
      contents (cs.drop (piece c cs).2) := by
  rw [contents, contents, tokensFrom]
  cases (piece c cs).1 with
  | gap => exact map_content_tokensFrom _ _ _
  | token kind => exact congrArg (_ :: ·) (map_content_tokensFrom _ _ _)

/-- **A text that ends outside literals and comments**: a letter behind it, with a space between
them, is read as a name. -/
def EndsOutside (text : String) : Prop :=
  (tokenize (text ++ " x")).map content = (tokenize text).map content ++ [(.identifier, "x")]

instance (text : String) : Decidable (EndsOutside text) := inferInstanceAs (Decidable (_ = _))

/-- A piece that goes on takes the letter behind the text into it. -/
theorem Token.Runs.contents_ne (h : Runs c cs) (before : List (TokenKind × String)) :
    contents (c :: cs ++ probe) ≠ before ++ [(.identifier, "x")] := by
  have hdrop : (cs ++ probe).drop (cs.length + 2) = [] := List.drop_eq_nil_iff.2 (by simp [probe])
  intro heq
  rw [List.cons_append, contents_cons] at heq
  rcases h with hgap | hopen
  · rw [hgap, hdrop] at heq
    simp [Piece.contents, contents, tokensFrom] at heq
  · rw [hopen, hdrop] at heq
    -- The one token is the last one, and it is not a name.
    have hlast := congrArg List.getLast? heq
    simp [Piece.contents, contents, tokensFrom] at hlast

theorem whole_of_contents (cs : List Char)
    (h : contents (cs ++ probe) = contents cs ++ [(.identifier, "x")]) : Whole cs := by
  induction hlength : cs.length using Nat.strong_induction_on generalizing cs with
  | _ n ih =>
  subst hlength
  cases cs with
  | nil => exact .nil
  | cons c cs =>
      rcases piece_stays_or_runs c cs with hstays | hruns
      · have hle := piece_le c cs
        have hlt : (cs.drop (piece c cs).2).length < (c :: cs).length :=
          Nat.lt_succ_of_le (List.drop_sublist _ _).length_le
        refine .cons hstays (ih _ hlt _ ?_ rfl)
        rw [List.cons_append, contents_cons, contents_cons, hstays probe (.space _ _),
          List.take_append_of_le_length hle, List.drop_append_of_le_length hle,
          List.append_assoc] at h
        exact List.append_cancel_left h
      · exact absurd h (hruns.contents_ne _)

/-- **A text ends outside literals and comments exactly when its pieces are whole.** -/
theorem endsOutside_iff_whole {text : String} : EndsOutside text ↔ Whole text.toList := by
  have hprobe : (text ++ " x").toList = text.toList ++ probe := String.toList_append
  rw [EndsOutside, tokenize, tokenize, hprobe]
  constructor
  · exact whole_of_contents text.toList
  · intro h
    have hapart : Apart text.toList probe := .space _ ['x']
    rw [h.tokensFrom_append hapart, List.map_append, map_content_tokensFrom _ 0 probe]
    exact congrArg (_ ++ ·) (by decide +kernel)

end Ambit
