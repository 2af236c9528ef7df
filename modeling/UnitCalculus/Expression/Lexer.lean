import UnitCalculus.Expression.Fault

/-! # From text to tokens

A text is cut into blocks: maximal runs of characters that continue each other, and single
characters.  Blank blocks stand for nothing and every other block is a token; a run of digits and
signs that is no integer is a fault at its first character (`Token.lex`). -/

namespace UnitCalculus.Token

/-- The text cut where a character does not continue the run of the one before it. -/
def blocks (cs : List Char) : List (List Char) :=
  cs.splitBy continues

/-- The kind of token that a block starting with this character is; blanks are none. -/
def blockKind? (c : Char) : Option TokenKind :=
  match runKind? c with
  | some k => some k
  | none => singleKind? c

/-- The ordinary characters of a block. -/
def ordinary (cs : List Char) : List Char :=
  cs.map fun c => (ordinary? c).getD c

/-- Whether tokens of the kind have a value. -/
def hasValue : TokenKind → Bool
  | .integer | .supinteger => true
  | _ => false

/-- The token of a block at a position of a text; none for a blank. -/
def ofBlock? (text : String) (position : Nat) (cs : List Char) :
    Except ExpressionFault (Option Token) :=
  match cs.head?.bind blockKind? with
  | none => .ok none
  | some k =>
    if hasValue k then
      match integerValue? (ordinary cs) with
      | some n => .ok (some ⟨k, String.ofList cs, position, some n⟩)
      | none => .error ⟨.malformedInteger (String.ofList cs), text, position⟩
    else .ok (some ⟨k, String.ofList cs, position, none⟩)

/-- The tokens of blocks that follow each other from a position on. -/
def ofBlocks (text : String) : Nat → List (List Char) → Except ExpressionFault (List Token)
  | _, [] => .ok []
  | position, b :: bs => do
    let t ← ofBlock? text position b
    let ts ← ofBlocks text (position + b.length) bs
    return t.toList ++ ts

/-- The tokens of a text. -/
def lex (text : String) : Except ExpressionFault (List Token) :=
  ofBlocks text 0 (blocks text.toList)

end UnitCalculus.Token
