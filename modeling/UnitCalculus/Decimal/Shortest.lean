import UnitCalculus.Decimal.Binary

/-! # Decimal digits of a number

Three ways to choose decimal digits for a positive value, all in exact arithmetic: the fewest digits
that read back as the same floating-point number, a given number of significant digits, and a given
number of decimal places.  Digits are a natural number `d` with a power of ten: the chosen value is
`d · 10 ^ scale`. -/

namespace UnitCalculus.Decimal

/-- A decimal number `digits · 10 ^ scale`. -/
structure Scaled where
  digits : Nat
  scale : Int
  deriving DecidableEq, Repr

/-- Whether `10 ^ k ≤ num / den`. -/
def reachesTen (num den : Nat) (k : Int) : Bool :=
  let (n, d) := scaleTen num den k
  d ≤ n

/-- The exponent of the leading decimal digit of `num / den`. -/
def leadingExponent (num den : Nat) : Int :=
  let guess := (((num.log2 : Int) - den.log2) * 30103).fdiv 100000
  if reachesTen num den (guess + 1) then guess + 1
  else if reachesTen num den guess then guess
  else guess - 1

/-- The value with `count` significant digits, a tie going to the even digit. -/
def significant (num den count : Nat) : Scaled :=
  let scale := leadingExponent num den - count + 1
  let (n, d) := scaleTen num den scale
  let q := roundDiv n d
  if q < powTen count then ⟨q, scale⟩ else ⟨q / 10, scale + 1⟩

/-- The value with `places` decimal places, a tie going to the even digit. -/
def fixed (num den places : Nat) : Scaled :=
  ⟨roundDiv (num * powTen places) den, -(places : Int)⟩

/-- The decimals that read back as one floating-point number: those between `low / den` and
`high / den`, the ends counted when `closed`. -/
structure Interval where
  low : Nat
  value : Nat
  high : Nat
  den : Nat
  closed : Bool

namespace Interval

/-- The numbers nearest to `e`: half a step to each side, a quarter below a power of two.  The ends
belong to it when the significand is even. -/
def ofExpansion (e : Expansion) : Interval :=
  let low := if e.significand == powTwo 52 && -1074 < e.exponent then 1 else 2
  let (unit, den) := scaleTwo 1 4 (-e.exponent)
  let center := 4 * e.significand
  ⟨(center - low) * unit, center * unit, (center + 2) * unit, den, e.significand % 2 == 0⟩

/-- Whether `d · 10 ^ scale` belongs to the interval. -/
def holds (v : Interval) (d : Nat) (scale : Int) : Bool :=
  let (n, m) := scaleTen d 1 (-scale)
  if v.closed then v.low * m ≤ n * v.den && n * v.den ≤ v.high * m
  else v.low * m < n * v.den && n * v.den < v.high * m

/-- The neighbour of the value on the grid of multiples of `10 ^ scale` that belongs to the
interval; of two the nearer one, of two equally near the even one. -/
def onGrid (v : Interval) (scale : Int) : Option Scaled :=
  let (n, d) := scaleTen v.value v.den scale
  let below := n / d
  let nearest := roundDiv n d
  if v.holds nearest scale then some ⟨nearest, scale⟩
  else if v.holds below scale then some ⟨below, scale⟩
  else if v.holds (below + 1) scale then some ⟨below + 1, scale⟩
  else none

end Interval

/-- The first of the grids with `count`, `count + 1`, … significant digits that has a hit. -/
def shortestFrom (v : Interval) (leading : Int) : Nat → Nat → Option Scaled
  | 0, _ => none
  | fuel + 1, count =>
    match v.onGrid (leading - count + 1) with
    | some s => some s
    | none => shortestFrom v leading fuel (count + 1)

/-- The fewest digits that read back as `e`, and of those the nearest to it.  Seventeen digits are
always enough. -/
def shortest (e : Expansion) : Scaled :=
  let (n, d) := e.fraction
  let v := Interval.ofExpansion e
  let leading := leadingExponent n d
  (shortestFrom v leading 17 1).getD (significant n d 17)

end UnitCalculus.Decimal
