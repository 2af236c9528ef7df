import UnitCalculus.Decimal.Literal

/-! # Tokens of unit expressions

A unit expression such as `kg/(m.s²)` is a sequence of symbols, operators, parentheses and integers;
integers come in ordinary and in superscript characters.  Every character belongs to one class: it
continues a run, stands for a token of its own, or is blank. -/

namespace UnitCalculus

/-- The kinds of tokens. -/
inductive TokenKind where
  | symbol
  | mul
  | div
  | exp
  | integer
  | supinteger
  | lparen
  | rparen
  deriving DecidableEq, Repr

/-- The name of a kind, as messages give it. -/
def TokenKind.name : TokenKind → String
  | symbol => "symbol"
  | mul => "mul"
  | div => "div"
  | exp => "exp"
  | integer => "integer"
  | supinteger => "supinteger"
  | lparen => "lparen"
  | rparen => "rparen"

/-- A token with the position of its first character; integers come with their value. -/
structure Token where
  kind : TokenKind
  text : String
  position : Nat
  value : Option Int
  deriving DecidableEq, Repr

namespace Token

open UnitCalculus.Text

/-- The ordinary character that a superscript one stands for. -/
def ordinary? : Char → Option Char
  | '⁰' => some '0'
  | '¹' => some '1'
  | '²' => some '2'
  | '³' => some '3'
  | '⁴' => some '4'
  | '⁵' => some '5'
  | '⁶' => some '6'
  | '⁷' => some '7'
  | '⁸' => some '8'
  | '⁹' => some '9'
  | '⁺' => some '+'
  | '⁻' => some '-'
  | _ => none

/-- The kind of a token that is always a single character. -/
def singleKind? : Char → Option TokenKind
  | '(' => some .lparen
  | ')' => some .rparen
  | '*' => some .mul
  | '.' => some .mul
  | '⋅' => some .mul
  | '×' => some .mul
  | '/' => some .div
  | '÷' => some .div
  | '^' => some .exp
  | _ => none

/-- Whether a character belongs to an integer. -/
def isIntegerChar (c : Char) : Bool :=
  c.isDigit || c == '+' || c == '-'

/-- The kind of the run that a character belongs to. -/
def runKind? (c : Char) : Option TokenKind :=
  if isIntegerChar c then some .integer
  else if (ordinary? c).isSome then some .supinteger
  else if isBlank c || (singleKind? c).isSome then none
  else some .symbol

/-- Whether the second of two neighbouring characters continues the run of the first. -/
def continues (a b : Char) : Bool :=
  (runKind? a).isSome && runKind? a == runKind? b

/-- The value of an integer: a sign, which may be missing, and digits, not too many. -/
def integerValue? (cs : List Char) : Option Int :=
  let (negative, r) := Decimal.leadingSign cs
  if r.isEmpty || !r.all Char.isDigit then none
  else Decimal.signedValue negative (r.map fun c => c.toNat - '0'.toNat)

end Token

end UnitCalculus
