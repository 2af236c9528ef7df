import UnitCalculus.Decimal.Shortest

/-! # Layout of decimal numbers

How chosen digits become text: positional or with an exponent, with or without a point.  A `Layout`
collects the decisions; `Layout.plain` is the one for numbers written without further instructions.
Signs are kept apart from the digits, since a field may put fill characters between them. -/

namespace UnitCalculus.Decimal

/-- Decimal digits and the place of the point among them: the value is
`0.d₁d₂… · 10 ^ point`. -/
structure Numeral where
  digits : List Char
  point : Int
  deriving DecidableEq, Repr

namespace Numeral

/-- The digits of a decimal number. -/
def ofScaled (s : Scaled) : Numeral :=
  let ds := Nat.toDigits 10 s.digits
  ⟨ds, ds.length + s.scale⟩

/-- The digits without the zeros at the end, the first digit excepted. -/
def trimZeros (n : Numeral) : Numeral :=
  match n.digits with
  | [] => n
  | d :: ds => { n with digits := d :: (ds.reverse.dropWhile (· == '0')).reverse }

/-- The digits before the point, at least one. -/
def whole (n : Numeral) : List Char :=
  if n.point ≤ 0 then ['0']
  else
    let p := n.point.toNat
    n.digits.take p ++ List.replicate (p - n.digits.length) '0'

/-- The digits after the point. -/
def fractional (n : Numeral) : List Char :=
  if n.point ≤ 0 then List.replicate (-n.point).toNat '0' ++ n.digits
  else n.digits.drop n.point.toNat

/-- The exponent of the first digit. -/
def leading (n : Numeral) : Int :=
  n.point - 1

end Numeral

/-- Whole and fractional digits with the point between them; a point at the end stays only if
`keepPoint`. -/
def joinPoint (keepPoint : Bool) (whole fractional : List Char) : List Char :=
  if fractional.isEmpty && !keepPoint then whole else whole ++ '.' :: fractional

/-- An exponent with its mark, its sign and at least two digits. -/
def exponentText (mark : Char) (e : Int) : List Char :=
  let ds := Nat.toDigits 10 e.natAbs
  mark :: (if e < 0 then '-' else '+') :: (List.replicate (2 - ds.length) '0' ++ ds)

/-- The digits in positional notation. -/
def positional (keepPoint : Bool) (n : Numeral) : List Char :=
  joinPoint keepPoint n.whole n.fractional

/-- The digits in scientific notation. -/
def scientific (keepPoint : Bool) (mark : Char) (n : Numeral) : List Char :=
  joinPoint keepPoint (n.digits.take 1) (n.digits.drop 1) ++ exponentText mark n.leading

/-- The decisions on how a floating-point number is written. -/
structure Layout where
  /-- The least leading exponent written positionally. -/
  leastPositional : Int
  /-- The least leading exponent beyond it that is written with an exponent. -/
  firstScientific : Int
  /-- Whether a whole number written positionally ends in `.0`. -/
  pointZero : Bool
  /-- Whether a point at the end stays. -/
  keepPoint : Bool
  /-- The mark before the exponent. -/
  mark : Char
  deriving DecidableEq, Repr

/-- Numbers from `0.0001` up to `10 ^ 16` are positional, whole ones end in `.0`, and the others
have an exponent such as `e-05`. -/
def Layout.plain : Layout := ⟨-4, 16, true, false, 'e'⟩

/-- The digits in the notation that the layout chooses. -/
def Layout.write (l : Layout) (n : Numeral) : List Char :=
  if n.leading < l.leastPositional || l.firstScientific ≤ n.leading then
    scientific l.keepPoint l.mark n
  else if l.pointZero && n.fractional.isEmpty then joinPoint l.keepPoint n.whole ['0']
  else positional l.keepPoint n

/-- The fewest digits that read back as `e`. -/
def shortestNumeral (e : Expansion) : Numeral :=
  if e.significand == 0 then ⟨['0'], 1⟩ else (Numeral.ofScaled (shortest e)).trimZeros

/-- `e` rounded to `count` significant digits. -/
def significantNumeral (e : Expansion) (count : Nat) : Numeral :=
  if e.significand == 0 then ⟨List.replicate count '0', 1⟩
  else
    let (n, d) := e.fraction
    Numeral.ofScaled (significant n d count)

/-- `e` rounded to `places` decimal places. -/
def fixedNumeral (e : Expansion) (places : Nat) : Numeral :=
  let (n, d) := e.fraction
  Numeral.ofScaled (fixed n d places)

/-- The text of a floating-point number: the shortest digits in the plain layout. -/
def floatText (x : Float) : String :=
  match expand x with
  | .finite e =>
    let body := Layout.plain.write (shortestNumeral e)
    String.ofList (if e.negative then '-' :: body else body)
  | .infinite negative => if negative then "-inf" else "inf"
  | .undefined => "nan"

end UnitCalculus.Decimal
