import UnitCalculus.Magnitude.Order
import UnitCalculus.Magnitude.Power

/-! # Elementary functions of magnitudes

Squares, cubes, powers, roots and absolute values that never refuse a floating-point number: their
results are unchecked numbers, or words for integers that fit one.  Rational numbers and integers
beyond a word stay exact where that is possible. -/

namespace UnitCalculus.Magnitude

open UnitCalculus.Decimal

/-- Whether an integer fits a word without a sign, but none with a sign. -/
def fitsUnsignedOnly (n : Int) : Bool :=
  powTwo 63 ≤ n && n < powTwo 64

/-- The square of a magnitude. -/
def square (m : Magnitude) : Except NumberFault Magnitude :=
  match m.numeric with
  | integer n =>
    if fitsWord n then .ok (word (Int64.ofInt n * Int64.ofInt n))
    else if fitsUnsignedOnly n then .ok (integer (n * n % powTwo 64))
    else .ok (integer (n * n))
  | ratio q => .ok (ratio (q * q))
  | real x => .ok (unchecked (x * x))
  | unchecked x => .ok (unchecked (x * x))
  | word n => .ok (word (n * n))
  | complex z => .ok (uncheckedComplex (z.mul z))
  | uncheckedComplex z => .ok (uncheckedComplex (z.mul z))
  | vector xs => .ok (vector (xs.map fun x => x * x))
  | _ => .error .unsupported

/-- The third power of a magnitude. -/
def cubic (m : Magnitude) : Except NumberFault Magnitude :=
  match m.numeric with
  | integer n => do
    let w ← wordOfInt n
    return word (w * w * w)
  | ratio q => .ok (ratio (q * q * q))
  | real x => .ok (unchecked (floatPow x 3.0))
  | unchecked x => .ok (unchecked (floatPow x 3.0))
  | word n => .ok (word (n * n * n))
  | complex z => .ok (uncheckedComplex (z.scaledPow 3))
  | uncheckedComplex z => .ok (uncheckedComplex (z.scaledPow 3))
  | vector xs => .ok (vector (xs.map fun x => floatPow x 3.0))
  | _ => .error .unsupported

/-- A floating-point power of a magnitude. -/
def floatPower (m : Magnitude) (y : Float) : Except NumberFault Magnitude :=
  match m.numeric with
  | integer n => do return unchecked (entryPow (← floatOfInt n) y)
  | ratio q => do checkedPow (← floatOfRat q) y
  | real x => .ok (unchecked (entryPow x y))
  | unchecked x => .ok (unchecked (entryPow x y))
  | word n => .ok (unchecked (entryPow (floatOfWord n) y))
  | complex z => (Aligned.uncheckedComplexes z (.ofReal y)).power
  | uncheckedComplex z => (Aligned.uncheckedComplexes z (.ofReal y)).power
  | vector xs => .ok (vector (xs.map (entryPow · y)))
  | _ => .error .unsupported

/-- The square root of a magnitude. -/
def sqrt (m : Magnitude) : Except NumberFault Magnitude :=
  match m.numeric with
  | integer n =>
    if fitsWord n || fitsUnsignedOnly n then do return unchecked (Float.sqrt (← floatOfInt n))
    else .error .unsupported
  | real x => .ok (unchecked (Float.sqrt x))
  | unchecked x => .ok (unchecked (Float.sqrt x))
  | word n => .ok (unchecked (Float.sqrt (floatOfWord n)))
  | complex z => .ok (uncheckedComplex z.sqrt)
  | uncheckedComplex z => .ok (uncheckedComplex z.sqrt)
  | vector xs => .ok (vector (xs.map Float.sqrt))
  | _ => .error .unsupported

/-- The floor of the cube root, by bisection of `[lo, hi)`. -/
def cbrtBetween (n : Nat) : Nat → Nat → Nat → Nat
  | 0, lo, _ => lo
  | fuel + 1, lo, hi =>
    if hi ≤ lo + 1 then lo
    else
      let mid := (lo + hi) / 2
      if mid * mid * mid ≤ n then cbrtBetween n fuel mid hi else cbrtBetween n fuel lo mid

/-- The floor of the cube root. -/
def natCbrt (n : Nat) : Nat :=
  let width := n.log2 / 3 + 1
  cbrtBetween n (width + 1) 0 (powTwo width)

/-- The cube root to the nearest floating-point number: extra bits and a mark for what they leave
out decide every rounding. -/
def cbrtFloat (x : Float) : Float :=
  match expand x with
  | .finite e =>
    if e.significand == 0 then x
    else
      let (n, d) := e.fraction
      let bits := d.log2 + 130
      let scaled := n * d * d * Nat.pow 8 bits
      let r := natCbrt scaled
      let sticky := if r * r * r == scaled then 0 else 1
      (nearest? e.negative (2 * r + sticky) (2 * d * powTwo bits)).getD undefined
  | _ => x

/-- The cube root of a magnitude. -/
def cbrt (m : Magnitude) : Except NumberFault Magnitude :=
  match m.numeric with
  | integer n =>
    if fitsWord n || fitsUnsignedOnly n then do return unchecked (cbrtFloat (← floatOfInt n))
    else .error .unsupported
  | real x => .ok (unchecked (cbrtFloat x))
  | unchecked x => .ok (unchecked (cbrtFloat x))
  | word n => .ok (unchecked (cbrtFloat (floatOfWord n)))
  | vector xs => .ok (vector (xs.map cbrtFloat))
  | _ => .error .unsupported

/-- The absolute value; integers that fit one become words. -/
def absolute (m : Magnitude) : Except NumberFault Magnitude :=
  match m with
  | integer n => if fitsWord n then abs (word (Int64.ofInt n)) else abs (integer n)
  | real x => .ok (unchecked x.abs)
  | complex z => .ok (unchecked z.abs)
  | truth b => .ok (truth b)
  | m => m.abs

/-- The sign of a floating-point number, zero without a sign for both zeros. -/
def signOf (x : Float) : Float :=
  if 0.0 < x then 1.0 else if x < 0.0 then -1.0 else if x == 0.0 then 0.0 else x

/-- The root with the reciprocal `y` of an odd degree, which keeps the sign. -/
def oddRootFloat (x y : Float) : Float :=
  signOf x * entryPow x.abs y

/-- The root with the reciprocal `y` of an odd degree. -/
def oddRoot (m : Magnitude) (y : Float) : Except NumberFault Magnitude :=
  match m.numeric with
  | integer n => do return unchecked (oddRootFloat (← floatOfInt n) y)
  | ratio q => do
    let r ← checkedPow (← floatOfRat (if q < 0 then -q else q)) y
    mul (integer (if q < 0 then -1 else if 0 < q then 1 else 0)) r
  | real x => .ok (unchecked (oddRootFloat x y))
  | unchecked x => .ok (unchecked (oddRootFloat x y))
  | word n => .ok (unchecked (oddRootFloat (floatOfWord n) y))
  | complex z | uncheckedComplex z =>
    let r := z.abs
    let sign : Complex := if z.isZero then z else ⟨z.re / r, z.im / r⟩
    .ok (uncheckedComplex (sign.mul (.ofReal (entryPow r y))))
  | vector xs => .ok (vector (xs.map (oddRootFloat · y)))
  | _ => .error .unsupported

/-- The root whose degree has the reciprocal `y`; roots of odd degree keep the sign. -/
def nthRoot (m : Magnitude) (odd : Bool) (y : Float) : Except NumberFault Magnitude :=
  if odd then m.oddRoot y else m.floatPower y

end UnitCalculus.Magnitude
