import UnitCalculus.Decimal.Literal

/-! # Rational exponents

Exponents of base dimensions are rational numbers in lowest terms, so that roots of units stay
exact.  They are written `n` or `n/d`, read from fractions and decimals, and approximated from
floating-point numbers on the grid of a given number of decimal places. -/

namespace UnitCalculus.Exponent

open UnitCalculus.Text UnitCalculus.Decimal

/-- `n` for an integer and `n/d` for any other rational number. -/
def text (q : Rat) : String :=
  if q.den == 1 then toString q.num else toString q.num ++ "/" ++ toString q.den

/-- Whether both parts of a rational number can be written. -/
def isWritable (q : Rat) : Bool :=
  Decimal.isWritable q.num && Decimal.isWritable q.den

/-- `q` with the sign of a literal. -/
def signed (negative : Bool) (q : Rat) : Rat :=
  if negative then -q else q

/-- A power of ten. -/
def tenPow (e : Int) : Rat :=
  if e < 0 then mkRat 1 (powTen (-e).toNat) else ((powTen e.toNat : Nat) : Rat)

/-- The value of a decimal literal, unless one of its parts has too many digits. -/
def ofDecimal? (l : DecimalLiteral) : Option Rat :=
  if maxDigits < l.whole.length || maxDigits < l.fractional.length then none
  else
    let d := (l.digits : Rat) * tenPow (-(l.fractional.length : Int))
    some (signed l.negative (d * tenPow l.exponent))

/-- The fraction of two digit groups, unless it has too many digits or a zero denominator. -/
def ofFraction? (negative : Bool) (num den : List Nat) : Option Rat :=
  if maxDigits < num.length || maxDigits < den.length then none
  else if ofDigits den == 0 then none
  else some (signed negative (mkRat (ofDigits num) (ofDigits den)))

/-- The rational number that a text holds: a fraction of integers or a decimal. -/
def ofText? (s : String) : Option Rat :=
  let (negative, r) := leadingSign (trimBlank s.toList)
  match groupedDigits r with
  | (d :: ds, '/' :: r') =>
    match groupedDigits r' with
    | (e :: es, []) => ofFraction? negative (d :: ds) (e :: es)
    | _ => none
  | _ =>
    match leadingUnsigned groupedDigits negative r with
    | some (l, []) => ofDecimal? l
    | _ => none

/-! ### Approximation -/

/-- Why a floating-point number has no rational approximation. -/
inductive ApproximationFault where
  /-- The number, or the grid, is too large. -/
  | tooLarge
  /-- The number is undefined. -/
  | notANumber
  /-- A negative number of places makes no grid. -/
  | noGrid
  deriving DecidableEq, Repr

/-- The nearest integer, a tie going to the even one. -/
def nearestInteger (x : Float) : Except ApproximationFault Int :=
  match roundInt? x with
  | some n => .ok n
  | none => .error (if x == x then .tooLarge else .notANumber)

/-- The multiple of `1 / 10 ^ places` next to `x`. -/
def approximate (x : Float) (places : Int) : Except ApproximationFault Rat :=
  if places < 0 then
    match nearestInteger (x * Float.pow 10.0 ((Decimal.ofInt? places).getD 0.0)) with
    | .error f => .error f
    | .ok _ => .error .noGrid
  else if 308 < places then .error .tooLarge
  else
    let grid : Nat := powTen places.toNat
    match Decimal.ofInt? grid with
    | none => .error .tooLarge
    | some g =>
      match nearestInteger (x * g) with
      | .error f => .error f
      | .ok n => .ok (mkRat n grid)

/-- The decimal places of approximations when nothing else is set. -/
def defaultPlaces : Nat := 6

end UnitCalculus.Exponent
