/-
Chains of names are read back.

A chain is written as names with access operators between and behind them.  A name in it is one
identifier and an operator is one mark, whatever follows, so the tokens of a chain alternate between
the two.  Looking back from the end, the names are found again, down to the first token that is no
operator of a chain.  Which operators stand between the names leaves no trace: only the last one,
right before the cursor, is known there.

Main definitions:

* `Ambit.Hop` — a name in a chain, and the operator behind it;
* `Ambit.chainText` — the text of a chain.

Main results:

* `Ambit.tokensFrom_hop`, `Ambit.tokensFrom_hops` — the tokens of a chain;
* `Ambit.Cursor.receiverChain_hops` — the chain that ends a list of tokens;
* `Ambit.Cursor.afterTokens_chainTokens` — **what a chain says about the cursor**;
* `Ambit.Cursor.ofText_chainText` — the cursor behind a chain alone.
-/

import Ambit.Proofs.Token.Identifier

set_option relaxedAutoImplicit false
set_option autoImplicit false

namespace Ambit

open Ambit.Text
open Identifier (isName isStart isPart openers)

/-- A name in a chain, with or without a mark, and the operator behind it. -/
structure Hop where
  name : String
  /-- The name is written with a mark. -/
  marked : Bool := false
  operator : String
  isName : Identifier.isName name.toList = true
  isOperator : operator ∈ Cursor.chainOperators

namespace Hop

/-- The name as it is written. -/
def written (h : Hop) : List Char := if h.marked then '@' :: h.name.toList else h.name.toList

def chars (h : Hop) : List Char := h.written ++ h.operator.toList

theorem written_cases (h : Hop) : h.written = h.name.toList ∨ h.written = '@' :: h.name.toList := by
  rw [written]
  split
  · exact Or.inr rfl
  · exact Or.inl rfl

/-- The token of the name, when it begins at byte `offset`. -/
def nameToken (h : Hop) (offset : Nat) : Token :=
  ⟨.identifier, String.ofList h.written, offset, offset + byteLength h.written⟩

/-- The token of the operator, when it begins at byte `offset`. -/
def operatorToken (h : Hop) (offset : Nat) : Token :=
  ⟨.punct, h.operator, offset, offset + byteLength h.operator.toList⟩

end Hop

def chainChars (hops : List Hop) : List Char := hops.flatMap Hop.chars

/-- The text of a chain. -/
def chainText (hops : List Hop) : String := String.ofList (chainChars hops)

/-! ### Marks -/

namespace Token

variable {c : Char} {cs rest : List Char}

theorem piece_punct (hopeners : c ∉ openers) (hstart : isStart c = false)
    (hdigit : c.isDigit = false) : piece c cs = (.token .punct, operatorLength c cs) := by
  have hidentifier : identifierLength c cs = none := by
    have hat : c ≠ '@' := by
      rintro rfl
      exact hopeners (by decide)
    simp [identifierLength, hstart, hat]
  have hlexeme : lexeme c cs = (.token .punct, operatorLength c cs) := by
    rw [lexeme, literalLength_of_not_mem hopeners, hidentifier, hdigit]
    rfl
  simp only [openers, List.mem_cons, not_or] at hopeners
  obtain ⟨hspace, htab, hreturn, hline, hslash, -⟩ := hopeners
  have hgap : isGapChar c = false := by simp [isGapChar, hspace, htab, hreturn, hline]
  rw [piece, hgap, if_neg (by simp), if_neg hslash, hlexeme]

/-- The operators of chains are marks, and they do not begin like the rest of a name. -/
theorem piece_chainOperator {operator : String} (h : operator ∈ Cursor.chainOperators) :
    ∃ c cs, operator.toList = c :: cs ∧ isPart c = false ∧
      ∀ rest, piece c (cs ++ rest) = (.token .punct, cs.length) := by
  simp only [Cursor.chainOperators, List.mem_cons, List.not_mem_nil, or_false] at h
  rcases h with rfl | rfl | rfl
  · refine ⟨'.', [], rfl, by decide, fun rest => ?_⟩
    rw [piece_punct (by decide) (by decide) (by decide)]
    rfl
  · refine ⟨'?', ['.'], rfl, by decide, fun rest => ?_⟩
    rw [piece_punct (by decide) (by decide) (by decide)]
    rfl
  · refine ⟨':', [':'], rfl, by decide, fun rest => ?_⟩
    rw [piece_punct (by decide) (by decide) (by decide)]
    rfl

end Token

/-! ### The tokens of a chain -/

/-- **A name and the operator behind it are two tokens**, whatever follows. -/
theorem tokensFrom_hop (offset : Nat) (h : Hop) (rest : List Char) :
    tokensFrom offset (h.chars ++ rest) =
      h.nameToken offset :: h.operatorToken (offset + byteLength h.written) ::
        tokensFrom (offset + byteLength h.chars) rest := by
  obtain ⟨c, cs, hoperator, hpart, hpiece⟩ := Token.piece_chainOperator h.isOperator
  have hrest : ∀ d ∈ (h.operator.toList ++ rest).head?, isPart d = false := by
    intro d hd
    rw [hoperator, List.cons_append, List.head?_cons] at hd
    cases hd
    exact hpart
  have hmark := tokensFrom_token (offset + byteLength h.written) (hpiece rest)
  rw [← hoperator, String.ofList_toList] at hmark
  rw [Hop.chars, List.append_assoc, tokensFrom_written offset h.isName h.written_cases hrest, hmark,
    byteLength_append, ← Nat.add_assoc]
  rfl

/-- The operators and names of a chain as tokens, when the chain begins at byte `offset`. -/
def hopTokens : Nat → List Hop → List (Token × Token)
  | _, [] => []
  | offset, h :: hops =>
      (h.operatorToken (offset + byteLength h.written), h.nameToken offset) ::
        hopTokens (offset + byteLength h.chars) hops

/-- The tokens of a chain that begins at byte `offset`, from left to right. -/
def chainTokens (offset : Nat) (hops : List Hop) : List Token :=
  (hopTokens offset hops).flatMap fun pair => [pair.2, pair.1]

/-- **The tokens of a chain**, and of what follows it. -/
theorem tokensFrom_hops (offset : Nat) (hops : List Hop) (rest : List Char) :
    tokensFrom offset (chainChars hops ++ rest) =
      chainTokens offset hops ++ tokensFrom (offset + byteLength (chainChars hops)) rest := by
  induction hops generalizing offset with
  | nil => rfl
  | cons h hops ih =>
      rw [chainChars, List.flatMap_cons, ← chainChars, List.append_assoc, tokensFrom_hop, ih,
        byteLength_append, Nat.add_assoc]
      rfl

theorem hopTokens_append (offset : Nat) (hops more : List Hop) :
    ∃ offset', hopTokens offset (hops ++ more) =
      hopTokens offset hops ++ hopTokens offset' more := by
  induction hops generalizing offset with
  | nil => exact ⟨offset, rfl⟩
  | cons h hops ih =>
      obtain ⟨offset', hoffset⟩ := ih (offset + byteLength h.chars)
      exact ⟨offset', congrArg (List.cons _) hoffset⟩

/-- Nearest first, the last operator and the last name come before the rest of the chain. -/
theorem reverse_chainTokens (offset : Nat) (hops : List Hop) (last : Hop) :
    ∃ offset', hopTokens offset (hops ++ [last]) = hopTokens offset hops ++
        [(last.operatorToken (offset' + byteLength last.written), last.nameToken offset')] ∧
      (chainTokens offset (hops ++ [last])).reverse =
        last.operatorToken (offset' + byteLength last.written) :: last.nameToken offset' ::
          (hopTokens offset hops).reverse.flatMap fun pair => [pair.1, pair.2] := by
  obtain ⟨offset', htokens⟩ := hopTokens_append offset hops [last]
  rw [hopTokens, hopTokens] at htokens
  refine ⟨offset', htokens, ?_⟩
  rw [chainTokens, htokens, List.reverse_flatMap, List.reverse_append]
  rfl

theorem exists_of_mem_hopTokens {offset : Nat} {hops : List Hop} {pair : Token × Token}
    (h : pair ∈ hopTokens offset hops) :
    pair.1.text ∈ Cursor.chainOperators ∧ pair.2.isIdentifier = true := by
  induction hops generalizing offset with
  | nil => cases h
  | cons hop hops ih =>
      rcases List.mem_cons.1 h with rfl | h
      · exact ⟨hop.isOperator, rfl⟩
      · exact ih h

theorem map_nameOf_hopTokens (offset : Nat) (hops : List Hop) :
    (hopTokens offset hops).map (fun pair => Cursor.nameOf pair.2) = hops.map Hop.name := by
  induction hops generalizing offset with
  | nil => rfl
  | cons h hops ih =>
      have hname : Cursor.nameOf (h.nameToken offset) = h.name := by
        rw [Cursor.nameOf, Hop.nameToken, String.toList_ofList,
          dropWhile_mark h.isName h.written_cases, String.ofList_toList]
      rw [hopTokens, List.map_cons, List.map_cons, hname, ih]

/-! ### The cursor behind a chain -/

/-- The operator that reaches a member, as it is written. -/
def Link.operator : Link → String
  | .dot => "."
  | .conditionalDot => "?."

namespace Cursor

/-- **The chain that ends a list of tokens**: behind a name, operators and names alternate down to a
token that is no operator of a chain. -/
theorem receiverChain_hops {t : Token} (ht : t.isIdentifier = true) {pairs : List (Token × Token)}
    (hpairs : ∀ pair ∈ pairs, pair.1.text ∈ chainOperators ∧ pair.2.isIdentifier = true)
    {before : List Token} (hbefore : ∀ b ∈ before.head?, b.text ∉ chainOperators) :
    receiverChain (t :: (pairs.flatMap fun pair => [pair.1, pair.2]) ++ before) =
      some (t :: pairs.map Prod.snd, before) := by
  induction pairs generalizing t with
  | nil =>
      cases before with
      | nil => simp [receiverChain, ht]
      | cons b before =>
          have hb := hbefore b rfl
          simp [receiverChain, ht, hb]
  | cons pair pairs ih =>
      obtain ⟨⟨hoperator, hname⟩, hpairs⟩ := List.forall_mem_cons.1 hpairs
      have hrest := ih hname hpairs
      rw [List.cons_append] at hrest
      simp only [List.flatMap_cons, List.cons_append, List.nil_append, receiverChain, ht,
        List.contains_iff_mem, hoperator, if_true, List.head?_cons, Option.any_some, hname, hrest]
      rfl

theorem linkOf_eq {t : Token} {link : Link} (h : t.text = link.operator) :
    linkOf t = some link := by
  rw [linkOf, h]
  cases link <;> rfl

/-- **What a chain says about the cursor** behind its last operator and the typed part of a name:
the names of the chain and the operator are known, and the rest is read off what stands before the
chain, unless that ends with an operator of a chain. -/
theorem afterTokens_chainTokens (typed : String) (offset : Nat) (hops : List Hop) (last : Hop)
    {link : Link} (hlink : last.operator = link.operator) {before : List Token}
    (hbefore : ∀ b ∈ before.head?, b.text ∉ chainOperators) :
    afterTokens typed ((chainTokens offset (hops ++ [last])).reverse ++ before) =
      { typed
        link := some link
        receiver := (hops ++ [last]).map Hop.name
        inPattern := before.head?.any (patternOperators.contains ·.text)
        slot := slotAfter before } := by
  obtain ⟨offset', htokens, hreverse⟩ := reverse_chainTokens offset hops last
  have hpairs : ∀ pair ∈ (hopTokens offset hops).reverse,
      pair.1.text ∈ chainOperators ∧ pair.2.isIdentifier = true :=
    fun pair hpair => exists_of_mem_hopTokens (List.mem_reverse.1 hpair)
  have hname : (last.nameToken offset').isIdentifier = true := rfl
  have hchain := receiverChain_hops hname hpairs hbefore
  have hreceiver : ((last.nameToken offset' ::
      (hopTokens offset hops).reverse.map Prod.snd).reverse).map nameOf =
      (hops ++ [last]).map Hop.name := by
    rw [← map_nameOf_hopTokens offset (hops ++ [last]), htokens]
    simp
  have hoperator : linkOf (last.operatorToken (offset' + byteLength last.written)) = some link :=
    linkOf_eq hlink
  rw [List.cons_append] at hchain
  rw [hreverse, List.cons_append, List.cons_append]
  simp only [afterTokens, hoperator, afterLink, hchain, hreceiver]

theorem ofText_of_punct {text : String} {t : Token} {before : List Token}
    (htokens : (tokenize text).reverse = t :: before) (ht : t.kind = .punct) :
    ofText text = afterTokens "" (t :: before) := by
  simp [ofText, htokens, Token.isIdentifier, ht]

/-- Behind the operator of a chain, what stands before the chain is known as well. -/
theorem ofText_of_chainTokens {text : String} (offset : Nat) (hops : List Hop) (last : Hop)
    {link : Link} (hlink : last.operator = link.operator) {before : List Token}
    (hbefore : ∀ b ∈ before.head?, b.text ∉ chainOperators)
    (htokens : (tokenize text).reverse = (chainTokens offset (hops ++ [last])).reverse ++ before) :
    ofText text =
      { link := some link
        receiver := (hops ++ [last]).map Hop.name
        inPattern := before.head?.any (patternOperators.contains ·.text)
        slot := slotAfter before } := by
  rw [← afterTokens_chainTokens "" offset hops last hlink hbefore]
  obtain ⟨offset', -, hreverse⟩ := reverse_chainTokens offset hops last
  rw [hreverse, List.cons_append] at htokens ⊢
  exact ofText_of_punct htokens rfl

/-- **The cursor behind a chain** knows the names of the chain and the last operator. -/
theorem ofText_chainText (hops : List Hop) (last : Hop) {link : Link}
    (hlink : last.operator = link.operator) :
    ofText (chainText (hops ++ [last])) =
      { link := some link, receiver := (hops ++ [last]).map Hop.name } := by
  have htokens := tokensFrom_hops 0 (hops ++ [last]) []
  rw [List.append_nil, tokensFrom, List.append_nil] at htokens
  have hreverse : (tokenize (chainText (hops ++ [last]))).reverse =
      (chainTokens 0 (hops ++ [last])).reverse ++ [] := by
    rw [tokenize, chainText, String.toList_ofList, htokens, List.append_nil]
  exact ofText_of_chainTokens 0 hops last hlink (by simp) hreverse

end Cursor

end Ambit
