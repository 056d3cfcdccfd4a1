/-
What the text before a cursor says about the cursor.

From the tokens before it alone, a cursor can tell whether any expression may follow or only a
type, a constraint or a label; whether it stands after a member access, and on what chain of names;
and which part of a name has been typed already.  The rules look back over the last few tokens, so
the tokens are kept nearest first: the head of the list is the token right before the cursor.

    static |       new |        List<|       typeof(|        types only
    void M(ref |                                             types only (a declaration)
    M(out |                                                  an expression (an argument)
    where T : |    where T : A, |                            a constraint
    goto |                                                   a label
    x is E.|       case E.|                                  a member, in a pattern

Main definitions:

* `Ambit.Slot`, `Ambit.Link`, `Ambit.Cursor` — what may follow, the access operator, and all that
  the text says;
* `Ambit.Cursor.slotAfter` — **what may follow** a list of tokens;
* `Ambit.Cursor.receiverChain` — the chain of names that a member access applies to;
* `Ambit.Cursor.ofText` — **the cursor at the end of a text**.
-/

import Ambit.Token

set_option relaxedAutoImplicit false
set_option autoImplicit false

namespace Ambit

open Ambit.Text

/-- What the place of a cursor accepts. -/
inductive Slot where
  /-- Any expression: values, types and namespaces. -/
  | expression
  /-- Types and namespaces. -/
  | typeOnly
  /-- A constraint of a type parameter. -/
  | typeConstraint
  /-- The target of a jump. -/
  | label
deriving DecidableEq, Repr

/-- The name of a slot. -/
def Slot.name : Slot → String
  | .expression => "expression"
  | .typeOnly => "type_only"
  | .typeConstraint => "type_constraint"
  | .label => "label"

/-- The operators that reach a member. -/
inductive Link where
  /-- The plain access `.`. -/
  | dot
  /-- The access `?.`, which stops at null. -/
  | conditionalDot
deriving DecidableEq, Repr

/-- The name of an access operator. -/
def Link.name : Link → String
  | .dot => "dot"
  | .conditionalDot => "conditional_dot"

/-- What the text before a cursor says about it. -/
structure Cursor where
  slot : Slot := .expression
  /-- The access operator right before the cursor or the name being typed. -/
  link : Option Link := none
  /-- The member access is an operand of a pattern or of an equality. -/
  inPattern : Bool := false
  /-- The part of a name that touches the cursor. -/
  typed : String := ""
  /-- The names before the access operator, or nothing when they form no plain chain. -/
  receiver : List String := []
deriving DecidableEq, Repr

namespace Cursor

/-! ### Words that decide -/

/-- The operators whose right operand is a pattern or a constant. -/
def patternOperators : List String := ["is", "not", "and", "or", "==", "!=", "case"]

/-- The words after which a declaration goes on with a type. -/
def declarationWords : List String := [
    "static", "async", "const", "readonly", "unsafe", "extern", "volatile", "abstract", "virtual",
    "override", "sealed", "public", "private", "protected", "internal", "partial", "required",
    "fixed"]

/-- The words that stop the search for the clause a constraint stands in. -/
def clauseStops : List String := ["\x7b", "\x7d", ";", "(", ")", "=", "=>"]

/-- The marks that a list of type arguments may hold besides names and angle brackets. -/
def argumentMarks : List String := [",", ".", "?", "[", "]", "::"]

def chainOperators : List String := [".", "?.", "::"]

/-! ### Looking back -/

/-- The cursor stands in a list of type arguments.  The opening angle bracket has to touch the name
before it, so that a comparison is none; `depth` counts the lists that were closed on the way. -/
def inTypeArguments (depth : Nat) : List Token → Bool
  | [] => false
  | t :: before =>
      if t.text = ">" then inTypeArguments (depth + 1) before
      else if t.text = "<" then
        match depth with
        | 0 =>
            match before with
            | [] => false
            | name :: _ => name.isIdentifier && name.stop == t.start
        | depth + 1 => inTypeArguments depth before
      else if argumentMarks.contains t.text || t.isIdentifier then inTypeArguments depth before
      else false

/-- The nearest `where` begins a constraint clause: a name and a colon follow it.  The two options
are the tokens that follow the place where the search stands. -/
def afterWhere (next later : Option Token) : List Token → Bool
  | [] => false
  | t :: before =>
      if t.text = "where" then next.any Token.isIdentifier && later.any (·.text == ":")
      else if clauseStops.contains t.text then false
      else afterWhere (some t) next before

/-- The cursor stands after the colon or a comma of a constraint clause. -/
def inConstraintClause : List Token → Bool
  | [] => false
  | t :: before =>
      (t.text == ":" || t.text == ",") && afterWhere none none (t :: before)

/-- What stands before the bracket that opens the list the cursor is in, when it is a round one;
`depth` counts the brackets that were closed on the way. -/
def beforeOpening (depth : Nat) : List Token → Option (List Token)
  | [] => none
  | t :: before =>
      if t.text = ")" ∨ t.text = "]" then beforeOpening (depth + 1) before
      else if t.text = "(" ∨ t.text = "[" then
        match depth with
        | 0 => if t.text = "(" then some before else none
        | depth + 1 => beforeOpening depth before
      else beforeOpening depth before

/-- A token that can end the type of a declaration. -/
def endsType (t : Token) : Bool :=
  match t.kind with
  | .identifier => !Identifier.isReserved t.text || Identifier.isPredefined t.text
  | .punct => t.text == ">" || t.text == "]" || t.text == "?"
  | _ => false

/-- The list the cursor is in belongs to a declaration: a type and a name stand before it. -/
def inParameterList (before : List Token) : Bool :=
  match beforeOpening 0 before with
  | some (name :: type :: _) =>
      name.isIdentifier && !Identifier.isReserved name.text && endsType type
  | _ => false

/-- What may follow a word that passes by reference, given the tokens before it. -/
def slotAfterReference : List Token → Slot
  | [] => .typeOnly
  | t :: before =>
      if ["\x7b", "\x7d", ";", "ref", "scoped", "readonly"].contains t.text then .typeOnly
      else if t.text = "(" ∨ t.text = "," then
        if inParameterList (t :: before) then .typeOnly else .expression
      else if declarationWords.contains t.text then .typeOnly
      else .expression

/-- The cursor stands right inside the brackets of `typeof`, `sizeof` or `default`. -/
def opensTypeOperand : List Token → Bool
  | open_ :: word :: _ =>
      open_.text == "(" && ["typeof", "sizeof", "default"].contains word.text
  | _ => false

/-- **What may follow** a list of tokens, nearest first. -/
def slotAfter : List Token → Slot
  | [] => .expression
  | t :: before =>
      if t.text = "goto" then .label
      else if t.text = "new" ∨ t.text = "as" then .typeOnly
      else if opensTypeOperand (t :: before) then .typeOnly
      else if inTypeArguments 0 (t :: before) then .typeOnly
      else if inConstraintClause (t :: before) then .typeConstraint
      else if declarationWords.contains t.text then .typeOnly
      else if ["ref", "out", "in", "scoped"].contains t.text then slotAfterReference before
      else .expression

/-! ### The receiver -/

/-- The chain of names that ends a list of tokens, last name first, and what stands before it.
A chain that goes on with anything but a name is no chain. -/
def receiverChain : List Token → Option (List Token × List Token)
  | [] => some ([], [])
  | [t] => if t.isIdentifier then some ([t], []) else some ([], [t])
  | t :: s :: before =>
      if t.isIdentifier then
        if chainOperators.contains s.text then
          if before.head?.any Token.isIdentifier then
            (receiverChain before).map fun (names, rest) => (t :: names, rest)
          else none
        else some ([t], s :: before)
      else some ([], t :: s :: before)

def nameOf (t : Token) : String := String.ofList (t.text.toList.dropWhile (· == '@'))

def linkOf (t : Token) : Option Link :=
  if t.text = "." then some .dot else if t.text = "?." then some .conditionalDot else none

/-- The cursor after an access operator, given the tokens before the operator. -/
def afterLink (typed : String) (link : Link) (before : List Token) : Cursor :=
  match receiverChain before with
  | none => { typed, link := some link }
  | some (names, rest) =>
      { typed
        link := some link
        receiver := names.reverse.map nameOf
        inPattern := rest.head?.any (patternOperators.contains ·.text)
        slot := slotAfter rest }

/-- The cursor after some tokens and the typed part of a name. -/
def afterTokens (typed : String) (before : List Token) : Cursor :=
  match before with
  | [] => { typed }
  | t :: rest =>
      match linkOf t with
      | some link => afterLink typed link rest
      | none => { typed, slot := slotAfter (t :: rest) }

/-- **The cursor at the end of a text.**  A cursor inside an unfinished literal says nothing. -/
def ofText (text : String) : Cursor :=
  match (tokenize text).reverse with
  | [] => {}
  | t :: before =>
      if t.kind = .unterminated then {}
      else if t.isIdentifier && t.stop == byteLength text.toList then
        afterTokens (nameOf t) before
      else afterTokens "" (t :: before)

def isMemberAccess (c : Cursor) : Bool := c.link.isSome

end Cursor

end Ambit
