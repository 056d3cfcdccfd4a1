/-
A comment is as good as a space.

What the text before a cursor says is read off its tokens, and hardly anything depends on where they
stand.  Of their places only this is ever asked: whether two tokens touch, where an angle bracket may
open type arguments, and whether the last token touches the cursor.  So two lists of tokens say the
same if they have the same kinds and texts, and the same tokens touch in both.

Two texts that differ in a gap have such tokens.  Reading them piece by piece in parallel, each piece
is put behind what was read before; a token then touches the place where the next piece begins, and a
gap separates it from there, whatever the length of the gap.

Main definitions:

* `Ambit.Cursor.touches` — the nearest token stops at an offset;
* `Ambit.Cursor.Resembles` — the same kinds and texts, and the same tokens touch;
* `Ambit.Cursor.Parallel` — what was read of two texts, up to two offsets.

Main results:

* `Ambit.Cursor.Resembles.slotAfter_eq`, `Ambit.Cursor.Resembles.afterTokens_eq` — **tokens that
  resemble each other say the same** about a cursor;
* `Ambit.Cursor.Parallel.tokensFrom`, `Ambit.Cursor.Parallel.fillers` — the same text, read behind
  what was read before, and behind two gaps;
* `Ambit.tokenize_comment_eq_space` — **a block comment is as good as a space**.
-/

import Ambit.Proofs.Token.Whole
import Mathlib.Data.Option.Basic

set_option relaxedAutoImplicit false
set_option autoImplicit false

namespace Ambit

open Ambit.Text

namespace Cursor

/-! ### Tokens that resemble each other -/

/-- The nearest token stops at an offset. -/
def touches (before : List Token) (offset : ℕ) : Bool := before.head?.any (·.stop == offset)

/-- **Tokens that resemble each other**, nearest first: they have the same kinds and texts, and the
same tokens touch. -/
inductive Resembles : List Token → List Token → Prop
  | nil : Resembles [] []
  | cons {t u : Token} {ts us : List Token} : t.content = u.content →
      touches ts t.start = touches us u.start → Resembles ts us → Resembles (t :: ts) (u :: us)

variable {t u : Token} {ts us : List Token}

theorem kind_eq_of_content (h : t.content = u.content) : t.kind = u.kind := congrArg Prod.fst h

theorem text_eq_of_content (h : t.content = u.content) : t.text = u.text := congrArg Prod.snd h

theorem isIdentifier_eq_of_content (h : t.content = u.content) :
    t.isIdentifier = u.isIdentifier := by
  rw [Token.isIdentifier, Token.isIdentifier, kind_eq_of_content h]

theorem endsType_eq_of_content (h : t.content = u.content) : endsType t = endsType u := by
  rw [endsType, endsType, kind_eq_of_content h, text_eq_of_content h]

/-- A question about the kind and the text of a token has the same answer. -/
theorem any_eq_of_content {found found' : Option Token} {p : Token → Bool}
    (hp : ∀ {t u : Token}, t.content = u.content → p t = p u)
    (h : found.map Token.content = found'.map Token.content) : found.any p = found'.any p := by
  cases found with
  | none =>
      rw [Option.map_none, eq_comm, Option.map_eq_none_iff] at h
      rw [h]
  | some t =>
      obtain ⟨u, rfl, hu⟩ := Option.map_eq_some_iff.1 h.symm
      exact hp hu.symm

theorem map_nameOf_eq (h : ts.map Token.content = us.map Token.content) :
    ts.map nameOf = us.map nameOf := by
  have hname : nameOf = (fun content : TokenKind × String =>
      String.ofList (content.2.toList.dropWhile (· == '@'))) ∘ Token.content := rfl
  rw [hname, ← List.map_map, h, List.map_map]

namespace Resembles

theorem head_content (h : Resembles ts us) :
    ts.head?.map Token.content = us.head?.map Token.content := by
  cases h with
  | nil => rfl
  | cons hcontent _ _ => exact congrArg some hcontent

theorem map_content (h : Resembles ts us) : ts.map Token.content = us.map Token.content := by
  induction h with
  | nil => rfl
  | cons hcontent _ _ ih => exact congrArg₂ List.cons hcontent ih

/-! ### Looking back -/

theorem inTypeArguments_eq (h : Resembles ts us) (depth : ℕ) :
    inTypeArguments depth ts = inTypeArguments depth us := by
  induction h generalizing depth with
  | nil => rfl
  | @cons t u ts us hcontent htouches hrest ih =>
      unfold inTypeArguments
      rw [text_eq_of_content hcontent, isIdentifier_eq_of_content hcontent, ih, ih]
      split
      · rfl
      · split
        · cases depth with
          | zero =>
              -- The bracket opens type arguments only where it touches the name before it.
              cases hrest with
              | nil => rfl
              | @cons name name' _ _ hname _ _ =>
                  have hstop : (name.stop == t.start) = (name'.stop == u.start) := htouches
                  simp only [isIdentifier_eq_of_content hname, hstop]
          | succ depth => exact ih depth
        · rfl

theorem afterWhere_eq (h : Resembles ts us) {next next' later later' : Option Token}
    (hnext : next.map Token.content = next'.map Token.content)
    (hlater : later.map Token.content = later'.map Token.content) :
    afterWhere next later ts = afterWhere next' later' us := by
  induction h generalizing next next' later later' with
  | nil => rfl
  | @cons t u ts us hcontent _ _ ih =>
      have hcolon : later.any (·.text == ":") = later'.any (·.text == ":") :=
        any_eq_of_content (fun h => by rw [text_eq_of_content h]) hlater
      have hstep : (some t).map Token.content = (some u).map Token.content := congrArg some hcontent
      rw [afterWhere, afterWhere, text_eq_of_content hcontent, ih hstep hnext, hcolon,
        any_eq_of_content isIdentifier_eq_of_content hnext]

theorem inConstraintClause_eq (h : Resembles ts us) :
    inConstraintClause ts = inConstraintClause us := by
  cases h with
  | nil => rfl
  | @cons t u ts us hcontent htouches hrest =>
      rw [inConstraintClause, inConstraintClause, text_eq_of_content hcontent,
        (Resembles.cons hcontent htouches hrest).afterWhere_eq rfl rfl]

theorem beforeOpening_rel (h : Resembles ts us) (depth : ℕ) :
    Option.Rel Resembles (beforeOpening depth ts) (beforeOpening depth us) := by
  induction h generalizing depth with
  | nil => exact .none
  | @cons t u ts us hcontent _ hrest ih =>
      unfold beforeOpening
      rw [text_eq_of_content hcontent]
      split
      · exact ih _
      · split
        · cases depth with
          | zero =>
              dsimp only
              split
              · exact .some hrest
              · exact .none
          | succ depth => exact ih depth
        · exact ih depth

theorem inParameterList_eq (h : Resembles ts us) : inParameterList ts = inParameterList us := by
  have hopening := h.beforeOpening_rel 0
  unfold inParameterList
  generalize beforeOpening 0 ts = opening at hopening ⊢
  generalize beforeOpening 0 us = opening' at hopening ⊢
  cases hopening with
  | none => rfl
  | some hrest =>
      cases hrest with
      | nil => rfl
      | cons hname _ hrest =>
          cases hrest with
          | nil => rfl
          | cons htype _ _ =>
              simp only [isIdentifier_eq_of_content hname, text_eq_of_content hname,
                endsType_eq_of_content htype]

theorem slotAfterReference_eq (h : Resembles ts us) :
    slotAfterReference ts = slotAfterReference us := by
  cases h with
  | nil => rfl
  | @cons t u ts us hcontent htouches hrest =>
      rw [slotAfterReference, slotAfterReference, text_eq_of_content hcontent,
        (Resembles.cons hcontent htouches hrest).inParameterList_eq]

theorem opensTypeOperand_eq (h : Resembles ts us) :
    opensTypeOperand ts = opensTypeOperand us := by
  cases h with
  | nil => rfl
  | cons hopen _ hrest =>
      cases hrest with
      | nil => rfl
      | cons hword _ _ =>
          rw [opensTypeOperand, opensTypeOperand, text_eq_of_content hopen,
            text_eq_of_content hword]

/-- **The same may follow** tokens that resemble each other. -/
theorem slotAfter_eq (h : Resembles ts us) : slotAfter ts = slotAfter us := by
  cases h with
  | nil => rfl
  | @cons t u ts us hcontent htouches hrest =>
      have h := Resembles.cons hcontent htouches hrest
      rw [slotAfter, slotAfter, text_eq_of_content hcontent, h.opensTypeOperand_eq,
        h.inTypeArguments_eq, h.inConstraintClause_eq, hrest.slotAfterReference_eq]

/-! ### The receiver -/

theorem exists_cons_cons {s : Token} (h : Resembles (t :: s :: ts) us) :
    ∃ t' s' us', us = t' :: s' :: us' ∧ t.content = t'.content ∧ s.content = s'.content ∧
      Resembles ts us' ∧ Resembles (s :: ts) (s' :: us') := by
  cases h with
  | cons ht _ hrest =>
      cases hrest with
      | cons hs htouches hts => exact ⟨_, _, _, rfl, ht, hs, hts, .cons hs htouches hts⟩

/-- The chains at the end of tokens that resemble each other have the same names, and what stands
before them resembles. -/
theorem receiverChain_rel (h : Resembles ts us) :
    Option.Rel (fun p q => p.1.map Token.content = q.1.map Token.content ∧ Resembles p.2 q.2)
      (receiverChain ts) (receiverChain us) := by
  fun_induction receiverChain ts generalizing us with
  | case1 =>
      cases h
      exact .some ⟨rfl, .nil⟩
  | case2 t ht =>
      cases h with
      | cons hcontent _ hrest =>
          cases hrest
          rw [isIdentifier_eq_of_content hcontent] at ht
          rw [receiverChain, if_pos ht]
          exact .some ⟨congrArg ([·]) hcontent, .nil⟩
  | case3 t ht =>
      cases h with
      | cons hcontent htouches hrest =>
          cases hrest
          rw [isIdentifier_eq_of_content hcontent] at ht
          rw [receiverChain, if_neg ht]
          exact .some ⟨rfl, .cons hcontent htouches .nil⟩
  | case4 t s before ht hs hhead ih =>
      obtain ⟨t', s', before', rfl, ht', hs', hbefore, -⟩ := h.exists_cons_cons
      rw [isIdentifier_eq_of_content ht'] at ht
      rw [text_eq_of_content hs'] at hs
      rw [any_eq_of_content isIdentifier_eq_of_content hbefore.head_content] at hhead
      rw [receiverChain, if_pos ht, if_pos hs, if_pos hhead]
      have hchain := ih hbefore
      generalize receiverChain before = chain at hchain ⊢
      generalize receiverChain before' = chain' at hchain ⊢
      cases hchain with
      | none => exact .none
      | some hpq => exact .some ⟨congrArg₂ List.cons ht' hpq.1, hpq.2⟩
  | case5 t s before ht hs hhead =>
      obtain ⟨t', s', before', rfl, ht', hs', hbefore, -⟩ := h.exists_cons_cons
      rw [isIdentifier_eq_of_content ht'] at ht
      rw [text_eq_of_content hs'] at hs
      rw [any_eq_of_content isIdentifier_eq_of_content hbefore.head_content] at hhead
      rw [receiverChain, if_pos ht, if_pos hs, if_neg hhead]
      exact .none
  | case6 t s before ht hs =>
      obtain ⟨t', s', before', rfl, ht', hs', -, hrest⟩ := h.exists_cons_cons
      rw [isIdentifier_eq_of_content ht'] at ht
      rw [text_eq_of_content hs'] at hs
      rw [receiverChain, if_pos ht, if_neg hs]
      exact .some ⟨congrArg ([·]) ht', hrest⟩
  | case7 t s before ht =>
      obtain ⟨t', s', before', rfl, ht', -, -, -⟩ := h.exists_cons_cons
      rw [isIdentifier_eq_of_content ht'] at ht
      rw [receiverChain, if_neg ht]
      exact .some ⟨rfl, h⟩

theorem afterLink_eq (h : Resembles ts us) (typed : String) (link : Link) :
    afterLink typed link ts = afterLink typed link us := by
  have hchain := h.receiverChain_rel
  unfold afterLink
  generalize receiverChain ts = chain at hchain ⊢
  generalize receiverChain us = chain' at hchain ⊢
  cases hchain with
  | none => rfl
  | @some p q hpq =>
      obtain ⟨hnames, hrest⟩ := hpq
      have hreceiver : p.1.reverse.map nameOf = q.1.reverse.map nameOf := by
        rw [List.map_reverse, List.map_reverse, map_nameOf_eq hnames]
      have hpattern := any_eq_of_content (p := (patternOperators.contains ·.text))
        (fun h => by rw [text_eq_of_content h]) hrest.head_content
      dsimp only
      rw [hreceiver, hpattern, hrest.slotAfter_eq]

/-- **Tokens that resemble each other say the same** about a cursor. -/
theorem afterTokens_eq (h : Resembles ts us) (typed : String) :
    afterTokens typed ts = afterTokens typed us := by
  cases h with
  | nil => rfl
  | @cons t u ts us hcontent htouches hrest =>
      have hlink : linkOf t = linkOf u := by rw [linkOf, linkOf, text_eq_of_content hcontent]
      rw [afterTokens, afterTokens, hlink, (Resembles.cons hcontent htouches hrest).slotAfter_eq]
      simp only [hrest.afterLink_eq]

end Resembles

/-! ### Reading two texts in parallel -/

/-- **What was read of two texts**, nearest first, up to two offsets: the tokens resemble each other
and do not go beyond the offsets, and the last ones touch them in both or in none. -/
structure Parallel (ts us : List Token) (offset offset' : ℕ) : Prop where
  resembles : Resembles ts us
  le : ∀ t ∈ ts.head?, t.stop ≤ offset
  le' : ∀ u ∈ us.head?, u.stop ≤ offset'
  touches : touches ts offset = touches us offset'

namespace Parallel

variable {offset offset' : ℕ}

/-- Gaps, whatever their lengths, separate the last tokens from what follows. -/
theorem gap (h : Parallel ts us offset offset') {n n' : ℕ} (hn : 0 < n) (hn' : 0 < n') :
    Parallel ts us (offset + n) (offset' + n') where
  resembles := h.resembles
  le t ht := (h.le t ht).trans (Nat.le_add_right _ _)
  le' u hu := (h.le' u hu).trans (Nat.le_add_right _ _)
  touches := by
    have hapart : ∀ {ts : List Token} {offset n : ℕ}, (∀ t ∈ ts.head?, t.stop ≤ offset) →
        0 < n → Cursor.touches ts (offset + n) = false := by
      intro ts offset n hle hn
      cases ts with
      | nil => rfl
      | cons t ts =>
          have := hle t rfl
          simp only [Cursor.touches, List.head?_cons, Option.any_some, beq_eq_false_iff_ne]
          omega
    rw [hapart h.le hn, hapart h.le' hn']

/-- A token touches what follows. -/
theorem token (h : Parallel ts us offset offset') (kind : TokenKind) (text : String) (n : ℕ) :
    Parallel (⟨kind, text, offset, offset + n⟩ :: ts) (⟨kind, text, offset', offset' + n⟩ :: us)
      (offset + n) (offset' + n) where
  resembles := .cons rfl h.touches h.resembles
  le := by simp
  le' := by simp
  touches := by simp [Cursor.touches]

/-- **The same text, read behind what was read before.** -/
theorem tokensFrom (h : Parallel ts us offset offset') (cs : List Char) :
    Parallel ((Ambit.tokensFrom offset cs).reverse ++ ts) ((Ambit.tokensFrom offset' cs).reverse ++ us)
      (offset + byteLength cs) (offset' + byteLength cs) := by
  -- The second text is read along with the first, so its offset and all that was read move too.
  fun_induction Ambit.tokensFrom offset cs generalizing ts us offset' with
  | case1 => simpa [Ambit.tokensFrom] using h
  | case2 offset c cs =>
      rename_i step taken stop later hgap ih
      have hbytes : byteLength (c :: cs) = byteLength taken + byteLength (cs.drop step.2) :=
        (Token.byteLength_take_add_drop c cs step.2).symm
      have hpos : 0 < byteLength taken := Nat.add_pos_left (Char.utf8Size_pos c) _
      rw [Ambit.tokensFrom.eq_2 offset', hgap, hbytes, ← Nat.add_assoc, ← Nat.add_assoc]
      exact ih (h.gap hpos hpos)
  | case3 offset c cs =>
      rename_i step taken stop later kind htoken ih
      have hbytes : byteLength (c :: cs) = byteLength taken + byteLength (cs.drop step.2) :=
        (Token.byteLength_take_add_drop c cs step.2).symm
      rw [Ambit.tokensFrom.eq_2 offset', htoken, hbytes, ← Nat.add_assoc, ← Nat.add_assoc,
        List.reverse_cons, List.reverse_cons, List.append_assoc, List.append_assoc]
      exact ih (h.token kind (String.ofList taken) (byteLength taken))

/-- Texts that were read in parallel say the same about the cursors at their ends. -/
theorem ofText_eq {text text' : String}
    (h : Parallel (tokenize text).reverse (tokenize text').reverse (byteLength text.toList)
      (byteLength text'.toList)) : ofText text = ofText text' := by
  have hresembles := h.resembles
  have htouches := h.touches
  unfold ofText
  generalize (tokenize text).reverse = ts at hresembles htouches ⊢
  generalize (tokenize text').reverse = us at hresembles htouches ⊢
  cases hresembles with
  | nil => rfl
  | @cons t u ts us hcontent htouch hrest =>
      have hend : (t.stop == byteLength text.toList) = (u.stop == byteLength text'.toList) :=
        htouches
      have hname : nameOf t = nameOf u := by rw [nameOf, nameOf, text_eq_of_content hcontent]
      simp only [kind_eq_of_content hcontent, isIdentifier_eq_of_content hcontent, hend, hname,
        hrest.afterTokens_eq, (Resembles.cons hcontent htouch hrest).afterTokens_eq]

/-- **Two gaps between the same texts.** -/
theorem fillers {a b filler filler' : List Char} (ha : Token.Whole a)
    (hfiller : Token.Filler filler b) (hfiller' : Token.Filler filler' b)
    (hapart : Token.Apart a (filler ++ b)) (hapart' : Token.Apart a (filler' ++ b)) :
    Parallel (Ambit.tokensFrom 0 (a ++ (filler ++ b))).reverse
      (Ambit.tokensFrom 0 (a ++ (filler' ++ b))).reverse
      (byteLength (a ++ (filler ++ b))) (byteLength (a ++ (filler' ++ b))) := by
  have hbefore : Parallel (Ambit.tokensFrom 0 a).reverse (Ambit.tokensFrom 0 a).reverse
      (0 + byteLength a) (0 + byteLength a) := by
    simpa using (⟨.nil, by simp, by simp, rfl⟩ : Parallel [] [] 0 0).tokensFrom a
  have hpos : ∀ {filler : List Char}, Token.Filler filler b → 0 < byteLength filler := by
    intro filler h
    obtain ⟨c, cs, rfl⟩ := h.exists_cons
    exact Nat.add_pos_left (Char.utf8Size_pos c) _
  have hwhole := (hbefore.gap (hpos hfiller) (hpos hfiller')).tokensFrom b
  rw [ha.tokensFrom_append hapart, ha.tokensFrom_append hapart', tokensFrom_filler hfiller,
    tokensFrom_filler hfiller', List.reverse_append, List.reverse_append]
  simpa only [byteLength_append, Nat.zero_add, Nat.add_assoc] using hwhole

end Parallel

end Cursor

/-! ### Comments and spaces -/

open Token

/-- **A block comment is as good as a space.**  Behind a text that ends outside literals and comments
and not with a slash, a block comment can be put for a space: the tokens of the text have the same
kinds and texts, and they say the same about the cursor at its end. -/
theorem tokenize_comment_eq_space (before comment after : String) (hbefore : EndsOutside before)
    (hslash : before.toList.getLast? ≠ some '/') (hcomment : ¬ closing <:+: comment.toList) :
    (tokenize (before ++ "/*" ++ comment ++ "*/" ++ after)).map content =
        (tokenize (before ++ " " ++ after)).map content ∧
      Cursor.ofText (before ++ "/*" ++ comment ++ "*/" ++ after) =
        Cursor.ofText (before ++ " " ++ after) := by
  have hblock : (before ++ "/*" ++ comment ++ "*/" ++ after).toList =
      before.toList ++ (('/' :: '*' :: (comment.toList ++ closing)) ++ after.toList) := by
    simp [closing]
  have hblank : (before ++ " " ++ after).toList = before.toList ++ ([' '] ++ after.toList) := by
    simp
  have hapart : Apart before.toList
      (('/' :: '*' :: (comment.toList ++ closing)) ++ after.toList) :=
    ⟨by simp [Breaks], fun _ => hslash⟩
  have hparallel := Cursor.Parallel.fillers (endsOutside_iff_whole.1 hbefore)
    (.blockComment hcomment) (.blank (by decide)) hapart (Apart.space _ after.toList)
  rw [← hblock, ← hblank] at hparallel
  refine ⟨?_, hparallel.ofText_eq⟩
  have hcontents := hparallel.resembles.map_content
  rw [List.map_reverse, List.map_reverse] at hcontents
  exact List.reverse_injective hcontents

/-- A call with a string in it that looks like the beginning of a comment. -/
def listCall : String := "f(@\"/*\"\"\", List"

/-- A bracket behind a comment, with the beginning of another comment, a quote and a star in it, does
not open type arguments.  Right behind the name it does. -/
theorem tokenize_comment_eq_space_bracket :
    EndsOutside listCall ∧
      (tokenize (listCall ++ "/*" ++ "/* \" *" ++ "*/" ++ "<in")).map content =
        (tokenize (listCall ++ " " ++ "<in")).map content ∧
      Cursor.ofText (listCall ++ "/*" ++ "/* \" *" ++ "*/" ++ "<in") = { typed := "in" } ∧
      Cursor.ofText (listCall ++ "<in") = { typed := "in", slot := .typeOnly } := by
  have hbefore : EndsOutside listCall := by decide +kernel
  have hsame := tokenize_comment_eq_space listCall "/* \" *" "<in" hbefore (by decide +kernel)
    (by decide +kernel)
  refine ⟨hbefore, hsame.1, ?_, by decide +kernel⟩
  rw [hsame.2]
  decide +kernel

end Ambit
