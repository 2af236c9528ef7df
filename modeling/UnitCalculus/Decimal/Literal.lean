import UnitCalculus.Decimal.Binary
import UnitCalculus.Text.Blank
import UnitCalculus.Text.Digit

/-! # Numbers in text

Two kinds of literals, integers and decimals, in the digits of any script; an underscore may stand
between two digits.  A *leading* literal is the longest one that a text starts with, and comes with
the rest of the text; a *whole* literal is a text that holds nothing else but padding.  Integers of
more than `maxDigits` digits are refused. -/

namespace UnitCalculus.Decimal

open UnitCalculus.Text

/-- The most digits an integer may have in text. -/
def maxDigits : Nat := 4300

/-- Whether an integer can be written, which takes no more digits than can be read. -/
def isWritable (n : Int) : Bool :=
  n.natAbs < powTen maxDigits

/-- Blanks that may surround a literal: all but the information separators. -/
def isPadding (c : Char) : Bool :=
  isBlank c && !(0x1c ≤ c.toNat && c.toNat ≤ 0x1f)

/-- The text without the padding at either end. -/
def trimPadding (cs : List Char) : List Char :=
  ((cs.dropWhile isPadding).reverse.dropWhile isPadding).reverse

/-! ### Digit groups -/

/-- The longest run of digits, each after the digit before it or after an underscore, that continues
a digit. -/
def moreDigits : List Char → List Nat × List Char
  | [] => ([], [])
  | [c] =>
    match digitValue? c with
    | some d => ([d], [])
    | none => ([], [c])
  | c :: e :: r =>
    match digitValue? c with
    | some d =>
      let p := moreDigits (e :: r)
      (d :: p.1, p.2)
    | none =>
      if c == '_' then
        match digitValue? e with
        | some d =>
          let p := moreDigits r
          (d :: p.1, p.2)
        | none => ([], c :: e :: r)
      else ([], c :: e :: r)

/-- The digits that a text starts with, single underscores between them skipped. -/
def groupedDigits (cs : List Char) : List Nat × List Char :=
  match cs with
  | [] => ([], [])
  | c :: r =>
    match digitValue? c with
    | some d =>
      let p := moreDigits r
      (d :: p.1, p.2)
    | none => ([], c :: r)

/-- The digits that a text starts with. -/
def plainDigits : List Char → List Nat × List Char
  | [] => ([], [])
  | c :: r =>
    match digitValue? c with
    | some d =>
      let p := plainDigits r
      (d :: p.1, p.2)
    | none => ([], c :: r)

/-- A sign, if there is one: whether it is a minus, and the text after it. -/
def leadingSign : List Char → Bool × List Char
  | '+' :: r => (false, r)
  | '-' :: r => (true, r)
  | cs => (false, cs)

/-! ### Integers -/

/-- The value of an integer literal, unless it is too long. -/
def signedValue (negative : Bool) (ds : List Nat) : Option Int :=
  if maxDigits < ds.length then none
  else some (if negative then -(ofDigits ds : Int) else ofDigits ds)

/-- The integer that a text holds. -/
def wholeInteger? (cs : List Char) : Option Int :=
  let (negative, r) := leadingSign (trimPadding cs)
  match groupedDigits r with
  | (d :: ds, []) => signedValue negative (d :: ds)
  | _ => none

/-! ### Decimals -/

/-- A decimal literal: the digits before and after the point and the power of ten. -/
structure DecimalLiteral where
  negative : Bool
  whole : List Nat
  fractional : List Nat
  exponent : Int
  deriving DecidableEq, Repr

namespace DecimalLiteral

/-- The digits as one number. -/
def digits (l : DecimalLiteral) : Nat :=
  ofDigits (l.whole ++ l.fractional)

/-- The power of ten of the last digit. -/
def scale (l : DecimalLiteral) : Int :=
  l.exponent - l.fractional.length

/-- The floating-point number nearest to the literal; too large ones are infinite. -/
def toFloat (l : DecimalLiteral) : Float :=
  let d := l.digits
  let count : Int := (l.whole ++ l.fractional).length
  if d == 0 || count + l.scale < -400 then (if l.negative then -0.0 else 0.0)
  else if 400 < count + l.scale && 400 < l.scale + (Nat.toDigits 10 d).length then
    infinite l.negative
  else
    let (n, m) := scaleTen d 1 (-l.scale)
    (nearest? l.negative n m).getD (infinite l.negative)

end DecimalLiteral

/-- A power of ten after its mark, if the text starts with one. -/
def leadingExponentPart (digits : List Char → List Nat × List Char) (cs : List Char) :
    Int × List Char :=
  match cs with
  | [] => (0, [])
  | m :: r =>
    if m == 'e' || m == 'E' then
      let (negative, r) := leadingSign r
      match digits r with
      | ([], _) => (0, cs)
      | (ds, rest) => (if negative then -(ofDigits ds : Int) else ofDigits ds, rest)
    else (0, cs)

/-- The decimal literal that a text without sign starts with. -/
def leadingUnsigned (exponentDigits : List Char → List Nat × List Char) (negative : Bool)
    (cs : List Char) : Option (DecimalLiteral × List Char) :=
  match groupedDigits cs with
  | ([], '.' :: r) =>
    match groupedDigits r with
    | ([], _) => none
    | (fractional, rest) =>
      let (exponent, rest) := leadingExponentPart exponentDigits rest
      some (⟨negative, [], fractional, exponent⟩, rest)
  | ([], _) => none
  | (whole, '.' :: r) =>
    let (fractional, rest) := groupedDigits r
    let (exponent, rest) := leadingExponentPart exponentDigits rest
    some (⟨negative, whole, fractional, exponent⟩, rest)
  | (whole, rest) =>
    let (exponent, rest) := leadingExponentPart exponentDigits rest
    some (⟨negative, whole, [], exponent⟩, rest)

/-- The spelling of infinity and of the undefined number, letter case ignored. -/
def namedNumber (negative : Bool) (cs : List Char) : Option Float :=
  match String.ofList (cs.map Char.toLower) with
  | "inf" | "infinity" => some (infinite negative)
  | "nan" => some undefined
  | _ => none

/-- The floating-point number that a text holds. -/
def wholeFloat? (cs : List Char) : Option Float :=
  let (negative, r) := leadingSign (trimPadding cs)
  match leadingUnsigned groupedDigits negative r with
  | some (l, []) => some l.toFloat
  | _ => namedNumber negative r

end UnitCalculus.Decimal
