/-
Tokens and gaps make up the text.

A text is read piece by piece, and what is not a token is left out.  So it has to be shown that
nothing else is lost: the text is a gap, a token, a gap, and so on, to a last gap at its end.  A gap
consists of blanks and comments.  Whether something is a comment depends on what follows it: a line
comment goes up to the end of its line, and a block comment without its end goes up to the end of the
text.  A gap is therefore judged together with the rest of the text.

Main definitions:

* `Ambit.Token.Filler` — a blank or a comment in front of the rest of a text;
* `Ambit.Token.Gap` — blanks and comments in front of the rest of a text;
* `Ambit.Token.Tiles` — a text that is made up of gaps and some tokens.

Main results:

* `Ambit.Token.toCommentEnd_of_body`, `Ambit.Token.toCommentEnd_of_open` — where a block comment
  ends;
* `Ambit.Token.filler_of_piece`, `Ambit.Token.piece_of_filler` — **a piece is a gap exactly when it
  is a blank or a comment**;
* `Ambit.tiles_tokensFrom` — the tokens of a text make it up;
* `Ambit.tokenize_partitions` — **tokens and gaps make up the text**.
-/

import Ambit.Proofs.Token.Identifier
import Mathlib.Data.List.Infix

set_option relaxedAutoImplicit false
set_option autoImplicit false

namespace Ambit

open Ambit.Text

namespace Token

variable {c : Char} {cs body rest : List Char} {n : ℕ}

/-! ### Block comments -/

/-- The end of a block comment. -/
def closing : List Char := ['*', '/']

theorem closing_infix_cons :
    closing <:+: c :: cs ↔ (c = '*' ∧ cs.head? = some '/') ∨ closing <:+: cs := by
  rw [List.infix_cons_iff]
  refine or_congr_left ?_
  cases cs with
  | nil => simp [closing]
  | cons d cs => simp [closing, eq_comm]

/-- A block comment ends with the first mark that ends one. -/
theorem toCommentEnd_of_body (h : ¬ closing <:+: body) :
    toCommentEnd (body ++ closing ++ rest) = body.length + 2 := by
  induction body with
  | nil => simp [closing, toCommentEnd]
  | cons c body ih =>
      rw [closing_infix_cons, not_or] at h
      -- the mark does not begin in front of itself
      have hhead : ¬ (c = '*' ∧ (body ++ closing ++ rest).head? = some '/') := by
        cases body with
        | nil => simp [closing]
        | cons d body => simpa using h.1
      rw [List.cons_append, List.cons_append, toCommentEnd, if_neg hhead, ih h.2, List.length_cons]

/-- A block comment without its end goes on to the end of the text. -/
theorem toCommentEnd_of_open (h : ¬ closing <:+: cs) : toCommentEnd cs = cs.length := by
  induction cs with
  | nil => rfl
  | cons c cs ih =>
      rw [closing_infix_cons, not_or] at h
      rw [toCommentEnd, if_neg h.1, ih h.2, List.length_cons]

theorem exists_body_or_open (cs : List Char) :
    (∃ body rest, cs = body ++ closing ++ rest ∧ ¬ closing <:+: body) ∨ ¬ closing <:+: cs := by
  induction cs with
  | nil => exact Or.inr (by simp [closing])
  | cons c cs ih =>
      by_cases hmark : c = '*' ∧ cs.head? = some '/'
      · obtain ⟨rfl, hhead⟩ := hmark
        obtain ⟨rest, rfl⟩ := List.head?_eq_some_iff.1 hhead
        exact Or.inl ⟨[], rest, rfl, by simp [closing]⟩
      · rcases ih with ⟨body, rest, rfl, hbody⟩ | hopen
        · refine Or.inl ⟨c :: body, rest, rfl, ?_⟩
          rw [closing_infix_cons, not_or]
          refine ⟨fun hfirst => hmark ⟨hfirst.1, ?_⟩, hbody⟩
          cases body with
          | nil => simp at hfirst
          | cons d body => simpa using hfirst.2
        · right
          rw [closing_infix_cons, not_or]
          exact ⟨hmark, hopen⟩

/-! ### Line comments -/

theorem isLineEnd_of_atLineEnd (h : atLineEnd rest = true) :
    ∀ d ∈ rest.head?, isLineEnd d = true := by
  unfold atLineEnd at h
  split at h
  · simp
  · simp [isLineEnd]
  · simp [isLineEnd]
  · cases h

theorem toLineEnd_of_body (hbody : ∀ d ∈ body, isLineEnd d = false)
    (hrest : atLineEnd rest = true) : toLineEnd (body ++ rest) = some body.length := by
  have hwhole : (body ++ rest).takeWhile (!isLineEnd ·) = body := by
    refine takeWhile_append (fun d hd => ?_) fun d hd => ?_
    · rw [hbody d hd, Bool.not_false]
    · rw [isLineEnd_of_atLineEnd hrest d hd, Bool.not_true]
  rw [toLineEnd, hwhole, List.drop_left, if_pos hrest]

theorem exists_body_of_toLineEnd (h : toLineEnd cs = some n) :
    (∀ d ∈ cs.take n, isLineEnd d = false) ∧ atLineEnd (cs.drop n) = true := by
  rw [toLineEnd] at h
  split at h
  · rename_i hend
    cases h
    refine ⟨fun d hd => ?_, hend⟩
    rw [← List.prefix_iff_eq_take.1 (List.takeWhile_prefix _)] at hd
    simpa using List.all_eq_true.1 List.all_takeWhile d hd
  · cases h

/-! ### Gaps -/

/-- **A blank or a comment** in front of the rest of a text. -/
inductive Filler : List Char → List Char → Prop
  | blank {c : Char} {rest : List Char} : isGapChar c = true → Filler [c] rest
  | lineComment {body rest : List Char} : (∀ d ∈ body, isLineEnd d = false) →
      atLineEnd rest = true → Filler ('/' :: '/' :: body) rest
  | blockComment {body rest : List Char} : ¬ closing <:+: body →
      Filler ('/' :: '*' :: (body ++ closing)) rest
  /-- A block comment without its end. -/
  | openComment {body : List Char} : ¬ closing <:+: body → Filler ('/' :: '*' :: body) []

/-- **Blanks and comments** in front of the rest of a text. -/
inductive Gap : List Char → List Char → Prop
  | nil {rest : List Char} : Gap [] rest
  | cons {filler gap rest : List Char} : Filler filler (gap ++ rest) → Gap gap rest →
      Gap (filler ++ gap) rest

theorem Filler.exists_cons {filler : List Char} (h : Filler filler rest) :
    ∃ c tail, filler = c :: tail := by
  cases h with
  | blank | lineComment | blockComment | openComment => exact ⟨_, _, rfl⟩

theorem lexeme_ne_gap (c : Char) (cs : List Char) (n : ℕ) : lexeme c cs ≠ (.gap, n) := by
  have hliteral : ∀ piece, literalLength c cs = some piece → piece.1 ≠ .gap := by
    intro piece hpiece
    unfold literalLength at hpiece
    split at hpiece <;> cases hpiece <;> simp [literalPiece]
  rw [lexeme]
  split
  · rename_i piece hpiece
    intro heq
    exact hliteral piece hpiece (by rw [heq])
  · split
    · simp
    · split <;> simp

/-- A piece that is a gap is a blank or a comment. -/
theorem filler_of_piece (h : piece c cs = (.gap, n)) :
    Filler (c :: cs.take n) (cs.drop n) := by
  rw [piece] at h
  split at h
  · rename_i hblank
    cases h
    exact .blank hblank
  · split at h
    · rename_i hslash
      subst hslash
      split at h
      · rename_i k hcomment
        cases h
        unfold commentLength at hcomment
        split at hcomment
        · rename_i cs
          obtain ⟨k, hk, rfl⟩ := Option.map_eq_some_iff.1 hcomment
          obtain ⟨hbody, hend⟩ := exists_body_of_toLineEnd hk
          exact .lineComment hbody hend
        · rename_i cs
          cases hcomment
          rcases exists_body_or_open cs with ⟨body, rest, rfl, hbody⟩ | hopen
          · rw [toCommentEnd_of_body hbody]
            have hlength : body.length + 2 = (body ++ closing).length := by simp [closing]
            rw [List.take_succ_cons, List.drop_succ_cons, hlength, List.take_left, List.drop_left]
            exact .blockComment hbody
          · rw [toCommentEnd_of_open hopen, List.take_succ_cons, List.drop_succ_cons,
              List.take_length, List.drop_length]
            exact .openComment hopen
        · cases hcomment
      · exact absurd h (lexeme_ne_gap _ _ _)
    · exact absurd h (lexeme_ne_gap _ _ _)

theorem piece_comment (h : commentLength cs = some n) : piece '/' cs = (.gap, n) := by
  have hslash : isGapChar '/' = false := by decide
  rw [piece, hslash, if_neg (by simp), if_pos rfl, h]

/-- **A blank or a comment is a piece that is a gap.** -/
theorem piece_of_filler {filler : List Char} (h : Filler (c :: filler) rest) :
    piece c (filler ++ rest) = (.gap, filler.length) := by
  cases h with
  | blank hblank =>
      rw [piece, if_pos hblank]
      rfl
  | @lineComment body _ hbody hrest =>
      refine piece_comment ?_
      rw [List.cons_append, commentLength, toLineEnd_of_body hbody hrest]
      rfl
  | @blockComment body _ hbody =>
      refine piece_comment ?_
      rw [List.cons_append, commentLength, toCommentEnd_of_body hbody]
      simp [closing]
  | @openComment body hbody =>
      refine piece_comment ?_
      rw [List.append_nil, commentLength, toCommentEnd_of_open hbody]
      rfl

/-! ### Tilings -/

/-- **A text that is made up of gaps and some tokens**, from a byte offset on.  No gap goes on where
a token begins. -/
inductive Tiles : ℕ → List Char → List Token → Prop
  | gap {offset : ℕ} {gap : List Char} : Gap gap [] → Tiles offset gap []
  | token {offset : ℕ} {gap rest : List Char} {t : Token} {ts : List Token} :
      Gap gap (t.text.toList ++ rest) → t.text ≠ "" →
      (∀ filler later, filler ++ later = t.text.toList ++ rest → ¬ Filler filler later) →
      t.start = offset + byteLength gap → t.stop = t.start + byteLength t.text.toList →
      Tiles t.stop rest ts → Tiles offset (gap ++ t.text.toList ++ rest) (t :: ts)

namespace Tiles

variable {offset : ℕ} {ts : List Token}

theorem of_gap (hpiece : piece c cs = (.gap, n))
    (h : Tiles (offset + byteLength (c :: cs.take n)) (cs.drop n) ts) :
    Tiles offset (c :: cs) ts := by
  have hfiller := filler_of_piece hpiece
  rw [← List.take_append_drop n cs, ← List.cons_append]
  generalize cs.drop n = rest at h hfiller ⊢
  generalize c :: cs.take n = filler at h hfiller ⊢
  cases h with
  | gap hgap => exact .gap (.cons (by rwa [List.append_nil]) hgap)
  | @token _ gap rest t ts hgap htext hno hstart hstop hrest =>
      rw [List.append_assoc] at hfiller
      rw [← List.append_assoc, ← List.append_assoc]
      refine .token (.cons hfiller hgap) htext hno ?_ hstop hrest
      rw [hstart, byteLength_append, Nat.add_assoc]

/-- A piece that is a token is the first one, without a gap in front of it. -/
theorem of_token {kind : TokenKind} (hpiece : piece c cs = (.token kind, n))
    (h : Tiles (offset + byteLength (c :: cs.take n)) (cs.drop n) ts) :
    Tiles offset (c :: cs) (⟨kind, String.ofList (c :: cs.take n), offset,
      offset + byteLength (c :: cs.take n)⟩ :: ts) := by
  have hno : ∀ filler rest, filler ++ rest = c :: cs → ¬ Filler filler rest := by
    intro filler rest heq hfiller
    obtain ⟨d, tail, rfl⟩ := hfiller.exists_cons
    rw [List.cons_append, List.cons.injEq] at heq
    obtain ⟨rfl, rfl⟩ := heq
    rw [piece_of_filler hfiller] at hpiece
    cases hpiece
  have hlist : (String.ofList (c :: cs.take n)).toList = c :: cs.take n := String.toList_ofList
  have hsplit : c :: cs = [] ++ (String.ofList (c :: cs.take n)).toList ++ cs.drop n := by
    rw [hlist, List.nil_append, List.cons_append, List.take_append_drop]
  generalize String.ofList (c :: cs.take n) = text at hlist hsplit ⊢
  have htext : text ≠ "" := by
    rintro rfl
    cases hlist
  rw [← hlist] at h ⊢
  rw [hsplit] at hno ⊢
  exact .token (t := ⟨kind, text, offset, offset + byteLength text.toList⟩) .nil htext hno rfl rfl h

end Tiles

end Token

open Token

/-- **The tokens of a text make it up**, with the gaps between them. -/
theorem tiles_tokensFrom (offset : ℕ) (cs : List Char) : Tiles offset cs (tokensFrom offset cs) := by
  fun_induction tokensFrom offset cs with
  | case1 => exact .gap .nil
  | case2 offset c cs step taken stop later hgap ih => exact .of_gap (Prod.ext hgap rfl) ih
  | case3 offset c cs step taken stop later kind htoken ih =>
      exact .of_token (Prod.ext htoken rfl) ih

/-! ### The text of a token, and the gaps -/

namespace Token

/-- Where the last of some tokens stops, or else the given offset. -/
def stopOf : ℕ → List Token → ℕ
  | offset, [] => offset
  | _, t :: ts => stopOf t.stop ts

/-- Where the first of some tokens starts, or else the given offset. -/
def startOf : ℕ → List Token → ℕ
  | offset, [] => offset
  | _, t :: _ => t.start

end Token

namespace Token.Tiles

variable {offset : ℕ} {cs : List Char} {ts : List Token}

theorem stands (h : Tiles offset cs ts) : ∀ t ∈ ts, t.text ≠ "" ∧
    ∃ before after, cs = before ++ t.text.toList ++ after ∧
      t.start = offset + byteLength before ∧ t.stop = t.start + byteLength t.text.toList := by
  induction h with
  | gap => simp
  | @token offset gap rest t ts _ htext _ hstart hstop _ ih =>
      refine List.forall_mem_cons.2 ⟨⟨htext, gap, rest, rfl, hstart, hstop⟩, fun u hu => ?_⟩
      obtain ⟨hu, before, after, rfl, hbegin, hend⟩ := ih u hu
      refine ⟨hu, gap ++ t.text.toList ++ before, after, by simp, ?_, hend⟩
      rw [hbegin, hstop, hstart]
      simp only [byteLength_append]
      omega

theorem pairwise (h : Tiles offset cs ts) : ts.Pairwise fun t u => t.stop ≤ u.start := by
  induction h with
  | gap => exact .nil
  | token _ _ _ _ _ hrest ih =>
      refine List.pairwise_cons.2 ⟨fun u hu => ?_, ih⟩
      obtain ⟨-, before, after, -, hbegin, -⟩ := hrest.stands u hu
      omega

/-- Between the tokens before a place and those behind it there is a gap. -/
theorem gap_between (h : Tiles offset cs ts) {before after : List Token}
    (hts : ts = before ++ after) :
    ∃ pre gap post, cs = pre ++ gap ++ post ∧ Gap gap post ∧
      offset + byteLength pre = stopOf offset before ∧
      offset + byteLength (pre ++ gap) = startOf (offset + byteLength cs) after ∧
      ∀ filler later, filler ++ later = post → ¬ Filler filler later := by
  induction h generalizing before with
  | @gap offset gap hgap =>
      obtain ⟨rfl, rfl⟩ := List.nil_eq_append_iff.1 hts
      refine ⟨[], gap, [], by simp, hgap, rfl, rfl, fun filler later heq hfiller => ?_⟩
      obtain ⟨d, tail, rfl⟩ := hfiller.exists_cons
      cases heq
  | @token offset gap rest t ts hgap _ hno hstart hstop _ ih =>
      cases before with
      | nil =>
          subst hts
          exact ⟨[], gap, t.text.toList ++ rest, by simp, hgap, rfl, hstart.symm, hno⟩
      | cons u before =>
          obtain ⟨rfl, rfl⟩ := List.cons.inj hts
          obtain ⟨pre, gap', post, rfl, hgap', hpre, hpost, hno'⟩ := ih rfl
          have hoffset : ∀ more, offset + byteLength (gap ++ t.text.toList ++ more) =
              t.stop + byteLength more := by
            intro more
            rw [byteLength_append, byteLength_append, hstop, hstart]
            omega
          refine ⟨gap ++ t.text.toList ++ pre, gap', post, by simp, hgap', ?_, ?_, hno'⟩
          · rw [hoffset]
            exact hpre
          · rw [List.append_assoc, hoffset, hpost, hoffset]

end Token.Tiles

/-- **Tokens and gaps make up the text.**  No token is empty; its text stands in the source between
its start and its stop, and the next token does not start before that.  What stands before the first
token, between two tokens and behind the last one is a gap, and no gap goes on where a token
begins. -/
theorem tokenize_partitions (text : String) :
    (∀ t ∈ tokenize text, t.text ≠ "" ∧
      ∃ before after, text.toList = before ++ t.text.toList ++ after ∧
        byteLength before = t.start ∧ byteLength (before ++ t.text.toList) = t.stop) ∧
    ((tokenize text).Pairwise fun t u => t.stop ≤ u.start) ∧
    ∀ before after, tokenize text = before ++ after →
      ∃ pre gap post, text.toList = pre ++ gap ++ post ∧ Gap gap post ∧
        byteLength pre = stopOf 0 before ∧
        byteLength (pre ++ gap) = startOf (byteLength text.toList) after ∧
        ∀ filler later, filler ++ later = post → ¬ Filler filler later := by
  have htiles : Tiles 0 text.toList (tokenize text) := tiles_tokensFrom 0 text.toList
  refine ⟨fun t ht => ?_, htiles.pairwise, fun before after hts => ?_⟩
  · obtain ⟨htext, before, after, hsplit, hstart, hstop⟩ := htiles.stands t ht
    rw [Nat.zero_add] at hstart
    refine ⟨htext, before, after, hsplit, hstart.symm, ?_⟩
    rw [byteLength_append, hstop, hstart]
  · simpa only [Nat.zero_add] using htiles.gap_between hts

/-- A comment that a lone carriage return undoes, a letter of two bytes, a verbatim string with a
quote in it, and a block comment without its end. -/
def unevenText : String := "//é\r /**/@\"a\"\"\" // b\r\n/*c*"

/-- The string stands behind the letter, and what follows it is a gap to the end of the text. -/
theorem tokenize_partitions_uneven :
    ∃ t, tokenize unevenText = [⟨.punct, "/", 0, 1⟩, ⟨.punct, "/", 1, 2⟩,
        ⟨.identifier, "é", 2, 4⟩, t] ∧ t.text ≠ "" ∧
      (∃ before after, unevenText.toList = before ++ t.text.toList ++ after ∧
        byteLength before = t.start ∧ byteLength (before ++ t.text.toList) = t.stop) ∧
      ∃ pre gap post, unevenText.toList = pre ++ gap ++ post ∧ Gap gap post ∧
        byteLength pre = t.stop ∧ byteLength (pre ++ gap) = byteLength unevenText.toList := by
  have htokens : tokenize unevenText = [⟨.punct, "/", 0, 1⟩, ⟨.punct, "/", 1, 2⟩,
      ⟨.identifier, "é", 2, 4⟩, ⟨.literal, "@\"a\"\"\"", 10, 16⟩] := by decide +kernel
  obtain ⟨hstands, -, hgaps⟩ := tokenize_partitions unevenText
  obtain ⟨pre, gap, post, hsplit, hgap, hpre, hpost, -⟩ :=
    hgaps (tokenize unevenText) [] (List.append_nil _).symm
  rw [htokens] at hstands hpre
  obtain ⟨htext, hplace⟩ := hstands ⟨.literal, "@\"a\"\"\"", 10, 16⟩ (by simp)
  exact ⟨_, htokens, htext, hplace, pre, gap, post, hsplit, hgap, hpre, hpost⟩

end Ambit
