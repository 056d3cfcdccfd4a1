/-
Chains behind a text.

The text before a cursor may be anything, as long as it ends outside literals and comments: a space
ends its last piece, so its tokens come before those of a chain that is put behind the space.
Looking back from the cursor, the names of the chain are found again, and the search stops right at
the first of them.  What stands before it, be it a word that looks like a name, is not taken for a
part of the chain; it says what may follow, and whether the chain is an operand of a pattern.

Main definitions:

* `Ambit.Cursor.Typed` — the part of a name that is typed, as it is written.

Main results:

* `Ambit.tokenize_append_space` — the tokens of two texts with a space between them;
* `Ambit.Cursor.ofText_append_chainText` — **the cursor behind a text and a chain**.
-/

import Ambit.Proofs.Token.Chain
import Ambit.Proofs.Token.Whole

set_option relaxedAutoImplicit false
set_option autoImplicit false

namespace Ambit

open Ambit.Text
open Identifier (isName)

/-- **The tokens of two texts with a space between them**, when the first ends outside literals and
comments: those of the first, and those of the second behind the space. -/
theorem tokenize_append_space {before : String} (hbefore : EndsOutside before) (after : String) :
    tokenize (before ++ " " ++ after) =
      tokenize before ++ tokensFrom (byteLength before.toList + 1) after.toList := by
  have hspace : Token.Filler [' '] after.toList := .blank (by decide)
  have hwhole := endsOutside_iff_whole.1 hbefore
  have hapart : Token.Apart before.toList ([' '] ++ after.toList) := .space _ after.toList
  have htext : (before ++ " " ++ after).toList = before.toList ++ ([' '] ++ after.toList) := by simp
  rw [tokenize, tokenize, htext, hwhole.tokensFrom_append hapart, tokensFrom_filler hspace,
    Nat.zero_add]
  rfl

namespace Cursor

/-- **The part of a name that is typed**, as it is written: nothing, a name, or a name behind its
mark. -/
inductive Typed : String → String → Prop
  | nothing : Typed "" ""
  | plain {name : String} : isName name.toList = true → Typed name name
  | marked {name : String} : isName name.toList = true → Typed ("@" ++ name) name

theorem ofText_of_identifier {text : String} {t : Token} {before : List Token}
    (htokens : (tokenize text).reverse = t :: before) (ht : t.kind = .identifier)
    (hstop : t.stop = byteLength text.toList) : ofText text = afterTokens (nameOf t) before := by
  simp [ofText, htokens, Token.isIdentifier, ht, hstop]

/-- A name that is typed is the last token, and the one that the cursor does not look back at. -/
theorem ofText_append_name {text written name : String} {offset : ℕ} {before : List Token}
    (hname : isName name.toList = true)
    (hwritten : written.toList = name.toList ∨ written.toList = '@' :: name.toList)
    (htokens : (tokenize text).reverse =
      (tokensFrom offset written.toList).reverse ++ before)
    (hlength : byteLength text.toList = offset + byteLength written.toList) :
    ofText text = afterTokens name before := by
  have hend : ∀ c ∈ ([] : List Char).head?, Identifier.isPart c = false := by simp
  have hone := tokensFrom_written offset hname hwritten hend
  rw [List.append_nil, tokensFrom, String.ofList_toList] at hone
  rw [hone, List.reverse_singleton, List.singleton_append] at htokens
  have htyped : nameOf ⟨.identifier, written, offset, offset + byteLength written.toList⟩ =
      name := by
    rw [nameOf, dropWhile_mark hname hwritten, String.ofList_toList]
  rw [ofText_of_identifier htokens rfl hlength.symm, htyped]

/-- **The cursor behind a text and a chain.**  Behind a text that ends outside literals and comments
and not with an operator of a chain, the names of the chain are read back, whatever operators stand
between them; the last operator and the typed part of a name are known.  The text alone decides what
may follow, and whether the chain is an operand of a pattern. -/
theorem ofText_append_chainText (before : String) (hbefore : EndsOutside before)
    (hend : ∀ t ∈ (tokenize before).getLast?, t.text ∉ chainOperators) (hops : List Hop)
    (last : Hop) {link : Link} (hlink : last.operator = link.operator) {written typed : String}
    (htyped : Typed written typed) :
    ofText (before ++ " " ++ chainText (hops ++ [last]) ++ written) =
      { slot := slotAfter (tokenize before).reverse
        link := some link
        inPattern := (tokenize before).getLast?.any (patternOperators.contains ·.text)
        typed
        receiver := (hops ++ [last]).map Hop.name } := by
  have hfirst : ∀ t ∈ (tokenize before).reverse.head?, t.text ∉ chainOperators := by
    rwa [List.head?_reverse]
  -- nearest first, the typed name comes before the chain, and the chain before the text
  have htokens : (tokenize (before ++ " " ++ chainText (hops ++ [last]) ++ written)).reverse =
      (tokensFrom (byteLength before.toList + 1 + byteLength (chainChars (hops ++ [last])))
        written.toList).reverse ++
        ((chainTokens (byteLength before.toList + 1) (hops ++ [last])).reverse ++
          (tokenize before).reverse) := by
    rw [String.append_assoc, tokenize_append_space hbefore, String.toList_append, chainText,
      String.toList_ofList, tokensFrom_hops, List.reverse_append, List.reverse_append,
      List.append_assoc]
  have hlength : byteLength (before ++ " " ++ chainText (hops ++ [last]) ++ written).toList =
      byteLength before.toList + 1 + byteLength (chainChars (hops ++ [last])) +
        byteLength written.toList := by
    have hspace : byteLength [' '] = 1 := rfl
    simp only [String.toList_append, byteLength_append, chainText, String.toList_ofList]
    rw [show " ".toList = [' '] from rfl, hspace]
  have hchain := afterTokens_chainTokens typed (byteLength before.toList + 1) hops last hlink hfirst
  rw [List.head?_reverse] at hchain
  cases htyped with
  | nothing =>
      rw [String.toList_empty, tokensFrom, List.reverse_nil, List.nil_append] at htokens
      rw [ofText_of_chainTokens _ hops last hlink hfirst htokens, List.head?_reverse]
  | plain hname =>
      rw [ofText_append_name hname (.inl rfl) htokens hlength, hchain]
  | marked hname =>
      rw [ofText_append_name hname (.inr (by simp)) htokens hlength, hchain]

/-- A condition that goes on with a pattern, with a comment and a string that end like chains. -/
def openPattern : String := "/* a. */ if (\"b?.\" != c || d is not"

/-- Words and marked names in a chain are names, a chain ends where a word without an operator
stands before it, and the word says that the chain is an operand of a pattern. -/
theorem ofText_append_chainText_openPattern :
    EndsOutside openPattern ∧
      (∀ t ∈ (tokenize openPattern).getLast?, t.text ∉ chainOperators) ∧
      ofText (openPattern ++ " " ++ "global::@class?.not.@ne") =
        { link := some .dot
          inPattern := true
          typed := "ne"
          receiver := ["global", "class", "not"] } := by
  have hbefore : EndsOutside openPattern := by decide +kernel
  have hend : ∀ t ∈ (tokenize openPattern).getLast?, t.text ∉ chainOperators := by decide +kernel
  let first : Hop := ⟨"global", false, "::", by decide, by decide⟩
  let second : Hop := ⟨"class", true, "?.", by decide, by decide⟩
  let last : Hop := ⟨"not", false, ".", by decide, by decide⟩
  have hlink : last.operator = Link.dot.operator := rfl
  have hname : isName "ne".toList = true := by decide
  have hcursor := ofText_append_chainText openPattern hbefore hend [first, second] last hlink
    (.marked hname)
  have htext : openPattern ++ " " ++ chainText ([first, second] ++ [last]) ++ ("@" ++ "ne") =
      openPattern ++ " " ++ "global::@class?.not.@ne" := by decide +kernel
  refine ⟨hbefore, hend, ?_⟩
  rw [← htext, hcursor]
  decide +kernel

end Cursor

end Ambit
