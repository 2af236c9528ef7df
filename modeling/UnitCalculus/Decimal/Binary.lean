/-! # Binary floating point, exactly

A finite floating-point number is `± significand · 2 ^ exponent`, and every rational number has a
nearest one.  `expand` reads the parts off the 64-bit pattern; `nearestBits` finds the pattern
nearest to a positive fraction, a tie going to the even significand.  All of it is arithmetic on
natural numbers, so that statements about it need no law of the floating-point operations. -/

namespace UnitCalculus.Decimal

/-- A power of two. -/
abbrev powTwo (n : Nat) : Nat := Nat.pow 2 n

/-- A power of ten. -/
abbrev powTen (n : Nat) : Nat := Nat.pow 10 n

/-- The quotient rounded to a nearest integer, a tie going to the even one. -/
def roundDiv (num den : Nat) : Nat :=
  let q := num / den
  let r := num % den
  if 2 * r < den then q
  else if den < 2 * r then q + 1
  else q + q % 2

/-- A finite floating-point number, taken apart. -/
structure Expansion where
  negative : Bool
  significand : Nat
  exponent : Int
  deriving DecidableEq, Repr

/-- What a 64-bit pattern denotes. -/
inductive Pattern where
  | finite (e : Expansion)
  | infinite (negative : Bool)
  | undefined
  deriving DecidableEq, Repr

/-- The number that a 64-bit pattern denotes. -/
def Pattern.ofBits (n : Nat) : Pattern :=
  let negative := n / powTwo 63 % 2 == 1
  let field : Nat := n / powTwo 52 % powTwo 11
  let fraction : Nat := n % powTwo 52
  if field == 2047 then
    if fraction == 0 then .infinite negative else .undefined
  else if field == 0 then .finite ⟨negative, fraction, -1074⟩
  else .finite ⟨negative, powTwo 52 + fraction, (field : Int) - 1075⟩

/-- The parts of a floating-point number. -/
def expand (x : Float) : Pattern :=
  Pattern.ofBits x.toBits.toNat

namespace Expansion

/-- The numerator and the denominator of the absolute value. -/
def fraction (e : Expansion) : Nat × Nat :=
  if e.exponent < 0 then (e.significand, powTwo (-e.exponent).toNat)
  else (e.significand * powTwo e.exponent.toNat, 1)

/-- The exact value. -/
def toRat (e : Expansion) : Rat :=
  let (n, d) := e.fraction
  let q : Rat := mkRat n d
  if e.negative then -q else q

end Expansion

/-- A fraction scaled by a power of two, as a numerator and a denominator. -/
def scaleTwo (num den : Nat) (k : Int) : Nat × Nat :=
  if k < 0 then (num * powTwo (-k).toNat, den) else (num, den * powTwo k.toNat)

/-- A fraction divided by a power of ten, as a numerator and a denominator. -/
def scaleTen (num den : Nat) (k : Int) : Nat × Nat :=
  if k < 0 then (num * powTen (-k).toNat, den) else (num, den * powTen k.toNat)

/-- The first pattern that no finite number has. -/
def overflowBits : Nat := 2047 * powTwo 52

/-- The pattern of the floating-point number nearest to `num / den`, at least `overflowBits` when
the quotient is too large for a finite one. -/
def nearestBits (num den : Nat) : Nat :=
  if num == 0 then 0
  else
    let guess := max ((num.log2 : Int) - den.log2 - 53) (-1074)
    let (n, d) := scaleTwo num den guess
    let k := if n / d < powTwo 53 then guess else guess + 1
    let (n, d) := scaleTwo num den k
    (k + 1074).toNat * powTwo 52 + roundDiv n d

/-- The floating-point number nearest to `± num / den`, unless it is too large. -/
def nearest? (negative : Bool) (num den : Nat) : Option Float :=
  let bits := nearestBits num den
  if bits < overflowBits then
    some (Float.ofBits (UInt64.ofNat (if negative then powTwo 63 + bits else bits)))
  else none

/-- Positive infinity. -/
def infinity : Float := Float.ofBits 0x7ff0000000000000

/-- The undefined number. -/
def undefined : Float := Float.ofBits 0x7ff8000000000000

/-- Infinity of the given sign. -/
def infinite (negative : Bool) : Float :=
  if negative then -infinity else infinity

/-- The floating-point number nearest to an integer, unless it is too large. -/
def ofInt? (n : Int) : Option Float :=
  nearest? (n < 0) n.natAbs 1

/-- The floating-point number nearest to a rational number, unless it is too large. -/
def ofRat? (q : Rat) : Option Float :=
  nearest? (q.num < 0) q.num.natAbs q.den

/-- The floating-point number nearest to a quotient of integers, unless it is too large.  A zero
quotient is negative when exactly one of the two is. -/
def quotient? (a b : Int) : Option Float :=
  nearest? ((a < 0 : Bool) != (b < 0 : Bool)) a.natAbs b.natAbs

/-- Whether the sign bit is set. -/
def signBit (x : Float) : Bool :=
  x.toBits.toNat / powTwo 63 % 2 == 1

/-- The power `x ^ y`; every power of one is one, the undefined one included, and no power of a number
without sign has a sign. -/
def floatPow (x y : Float) : Float :=
  if x == 1.0 then 1.0
  else if signBit x then Float.pow x y
  else (Float.pow x y).abs

/-- The remainder of truncating division, with the sign of `x`. -/
def truncatedMod (x y : Float) : Float :=
  match expand x, expand y with
  | .finite a, .finite b =>
    if b.significand == 0 then undefined
    else
      let e := min a.exponent b.exponent
      let m := a.significand * powTwo (a.exponent - e).toNat
      let n := b.significand * powTwo (b.exponent - e).toNat
      let (num, den) := scaleTwo (m % n) 1 (-e)
      (nearest? a.negative num den).getD undefined
  | .finite _, .infinite _ => x
  | _, _ => undefined

/-- Zero with the sign of `x`. -/
def signedZero (x : Float) : Float :=
  if signBit x then -0.0 else 0.0

/-- The remainder of flooring division, with the sign of `y`. -/
def flooredMod (x y : Float) : Float :=
  let m := truncatedMod x y
  if m == 0.0 then signedZero y
  else if (y < 0.0 : Bool) != (m < 0.0 : Bool) then m + y
  else m

/-- The nearest integer, a tie going to the even one; none when there is no finite value. -/
def roundInt? (x : Float) : Option Int :=
  match expand x with
  | .finite e =>
    let (n, d) := e.fraction
    let r := roundDiv n d
    some (if e.negative then -(r : Int) else r)
  | _ => none

/-- The integer part, towards zero; none when there is no finite value. -/
def truncate? (x : Float) : Option Int :=
  match expand x with
  | .finite e =>
    let (n, d) := e.fraction
    let r := n / d
    some (if e.negative then -(r : Int) else r)
  | _ => none

/-- Whether the value is a finite integer. -/
def isInteger (x : Float) : Bool :=
  match expand x with
  | .finite e =>
    let (n, d) := e.fraction
    n % d == 0
  | _ => false

end UnitCalculus.Decimal
