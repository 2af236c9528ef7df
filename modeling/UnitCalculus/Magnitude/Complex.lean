import UnitCalculus.Decimal.Binary

/-! # Complex magnitudes

Complex numbers with floating-point parts.  They arise as fractional powers of negative numbers.
The absolute value is a square root that is corrected once. -/

namespace UnitCalculus

open UnitCalculus.Decimal

/-- A complex number. -/
structure Complex where
  re : Float
  im : Float
  deriving DecidableEq

/-- Whether `x` is an infinity. -/
def isInfinite (x : Float) : Bool :=
  match expand x with
  | .infinite _ => true
  | _ => false

/-- The length of the vector `(x, y)` for `0 ≤ y ≤ x` without overflow: the square root of the sum of
squares, less the error that the rounding of the sum left in it. -/
def correctedHypot (x y : Float) : Float :=
  let h := Float.sqrt (x * x + y * y)
  let error :=
    if h ≤ 2.0 * y then
      let delta := h - y
      x * (2.0 * delta - x) + (delta - 2.0 * (x - y)) * delta
    else
      let delta := h - x
      2.0 * delta * (x - 2.0 * y) + ((4.0 * delta - y) * y + delta * delta)
  h - error / (2.0 * h)

/-- The length of the vector `(x, y)` for `0 ≤ y ≤ x`: very large and very small vectors are scaled,
and a part too small to count is added. -/
def orderedHypot (x y : Float) : Float :=
  if y ≤ x.scaleB (-54) then x + y
  else if (1.0 : Float).scaleB 511 < x then
    (correctedHypot (x.scaleB (-600)) (y.scaleB (-600))).scaleB 600
  else if y < (1.0 : Float).scaleB (-459) then
    (correctedHypot (x.scaleB 600) (y.scaleB 600)).scaleB (-600)
  else correctedHypot x y

/-- The length of the vector `(x, y)`. -/
def hypot (x y : Float) : Float :=
  if isInfinite x || isInfinite y then infinity
  else if x.abs < y.abs then orderedHypot y.abs x.abs
  else orderedHypot x.abs y.abs

namespace Complex

/-- A real number as a complex one. -/
def ofReal (x : Float) : Complex := ⟨x, 0.0⟩

def add (a b : Complex) : Complex := ⟨a.re + b.re, a.im + b.im⟩

def sub (a b : Complex) : Complex := ⟨a.re - b.re, a.im - b.im⟩

def neg (a : Complex) : Complex := ⟨-a.re, -a.im⟩

def mul (a b : Complex) : Complex :=
  ⟨a.re * b.re - a.im * b.im, a.re * b.im + a.im * b.re⟩

/-- Whether both parts are zero. -/
def isZero (a : Complex) : Bool := a.re == 0.0 && a.im == 0.0

/-- Whether the two numbers have equal parts. -/
def equal (a b : Complex) : Bool := a.re == b.re && a.im == b.im

/-- The absolute value. -/
def abs (a : Complex) : Float := hypot a.re a.im

/-- The quotient; the larger part of the divisor is divided out first. -/
def div (a b : Complex) : Complex :=
  if b.im.abs ≤ b.re.abs then
    let ratio := b.im / b.re
    let den := b.re + b.im * ratio
    ⟨(a.re + a.im * ratio) / den, (a.im - a.re * ratio) / den⟩
  else if b.re.abs ≤ b.im.abs then
    let ratio := b.re / b.im
    let den := b.re * ratio + b.im
    ⟨(a.re * ratio + a.im) / den, (a.im * ratio - a.re) / den⟩
  else ⟨undefined, undefined⟩

/-- `acc · a ^ n`, by squaring; the fuel bounds the binary digits of `n`. -/
def mulPow (acc a : Complex) : Nat → Nat → Complex
  | 0, _ => acc
  | fuel + 1, n =>
    if n == 0 then acc
    else mulPow (if n % 2 == 1 then acc.mul a else acc) (a.mul a) fuel (n / 2)

/-- An integer power. -/
def intPow (a : Complex) (n : Int) : Complex :=
  let p := mulPow ⟨1.0, 0.0⟩ a 64 n.natAbs
  if 0 < n then p else div ⟨1.0, 0.0⟩ p

/-- The quotient by way of a reciprocal: the larger part of the divisor is divided out, and what
remains is inverted once for both parts. -/
def scaledDiv (a b : Complex) : Complex :=
  if b.isZero then ⟨a.re / b.re.abs, a.im / b.re.abs⟩
  else if b.im.abs ≤ b.re.abs then
    let ratio := b.im / b.re
    let scale := 1.0 / (b.re + b.im * ratio)
    ⟨(a.re + a.im * ratio) * scale, (a.im - a.re * ratio) * scale⟩
  else
    let ratio := b.re / b.im
    let scale := 1.0 / (b.im + b.re * ratio)
    ⟨(a.re * ratio + a.im) * scale, (a.im * ratio - a.re) * scale⟩

/-- An integer power; the first three are the number itself and bare products, negative ones are
quotients by way of a reciprocal. -/
def scaledPow (a : Complex) (n : Int) : Complex :=
  if n == 1 then a
  else if n == 2 then a.mul a
  else if n == 3 then a.mul (a.mul a)
  else
    let p := mulPow ⟨1.0, 0.0⟩ a 64 n.natAbs
    if 0 ≤ n then p else scaledDiv ⟨1.0, 0.0⟩ p

/-- A complex power of a nonzero number, in polar form; an infinite angle has no direction. -/
def polarPow? (a b : Complex) : Option Complex :=
  let r := a.abs
  let angle := Float.atan2 a.im a.re
  let length := floatPow r b.re
  let phase := angle * b.re
  let (length, phase) :=
    if b.im != 0.0 then (length / Float.exp (angle * b.im), phase + b.im * Float.log r)
    else (length, phase)
  if isInfinite phase then none
  else some ⟨length * Float.cos phase, length * Float.sin phase⟩

/-- The principal square root. -/
def sqrt (a : Complex) : Complex :=
  if a.isZero then ⟨0.0, a.im⟩
  else if a.re == 0.0 then
    let t := Float.sqrt (0.5 * a.im.abs)
    ⟨t, if signBit a.im then -t else t⟩
  else
    let t := Float.sqrt ((a.re.abs + a.abs) / 2.0)
    if 0.0 ≤ a.re then ⟨t, a.im / (2.0 * t)⟩
    else ⟨a.im.abs / (2.0 * t), if signBit a.im then -t else t⟩

end Complex

end UnitCalculus
