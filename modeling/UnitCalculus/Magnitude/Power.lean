import UnitCalculus.Magnitude.Arithmetic

/-! # Powers of magnitudes

Integers and rational numbers have exact integer powers.  A checked floating-point power refuses
zero to a negative power and an infinite result of finite operands, and a fractional power of a
negative number is complex.  Unchecked powers are those of floating-point arithmetic. -/

namespace UnitCalculus.Magnitude

open UnitCalculus.Decimal

/-- An integer power; the bases without growth take any exponent. -/
def integerPow (m : Int) (n : Nat) : Int :=
  if m == 0 then (if n == 0 then 1 else 0)
  else if m == 1 then 1
  else if m == -1 then (if n % 2 == 0 then 1 else -1)
  else m.pow n

/-- An exact power of a rational number. -/
def ratioPow (q : Rat) (n : Int) : Except NumberFault Rat :=
  if 0 ≤ n then .ok (mkRat (integerPow q.num n.toNat) (integerPow q.den n.toNat).toNat)
  else if q == 0 then .error .divisionByZero
  else
    let r := mkRat (integerPow q.num n.natAbs) (integerPow q.den n.natAbs).toNat
    .ok r.inv

/-- `acc · a ^ n` for words, by squaring; the fuel bounds the binary digits of `n`. -/
def wordMulPow (acc a : Int64) : Nat → Nat → Int64
  | 0, _ => acc
  | fuel + 1, n =>
    if n == 0 then acc
    else wordMulPow (if n % 2 == 1 then acc * a else acc) (a * a) fuel (n / 2)

/-- A power of a word; there are no negative ones. -/
def wordPow (a n : Int64) : Except NumberFault Int64 :=
  if n < 0 then .error .outsideDomain else .ok (wordMulPow 1 a 64 n.toInt.toNat)

/-- A complex power before its size is checked. -/
def complexPowRaw (a b : Complex) : Except NumberFault Complex :=
  if b.im == 0.0 && isInteger b.re && b.re.abs ≤ 100.0 then
    let n := (truncate? b.re).getD 0
    if n < 0 && (Complex.mulPow ⟨1.0, 0.0⟩ a 64 n.natAbs).isZero then .error .divisionByZero
    else .ok (a.intPow n)
  else if b.isZero then .ok ⟨1.0, 0.0⟩
  else if a.isZero then
    if b.im != 0.0 || b.re < 0.0 then .error .divisionByZero else .ok ⟨0.0, 0.0⟩
  else
    match a.polarPow? b with
    | some r => .ok r
    | none => .error .divisionByZero

/-- A complex power with finite parts. -/
def complexPow (a b : Complex) : Except NumberFault Complex := do
  let r ← complexPowRaw a b
  if isInfinite r.re || isInfinite r.im then .error .overflow else return r

/-- Whether the value is neither infinite nor undefined. -/
def isFinite (x : Float) : Bool :=
  match expand x with
  | .finite _ => true
  | _ => false

/-- A power of checked floating-point numbers. -/
def checkedPow (x y : Float) : Except NumberFault Magnitude :=
  if x == 0.0 && y < 0.0 && isFinite y then .error .divisionByZero
  else if x < 0.0 && isFinite x && isFinite y && !isInteger y then
    complex <$> complexPow (.ofReal x) (.ofReal y)
  else
    let r := floatPow x y
    if isInfinite r && isFinite x && isFinite y then .error .overflow else .ok (real r)

/-- A power of an entry, where all entries have the same exponent: the exponents one half, two and
minus one are a square root, a product and a quotient. -/
def entryPow (x y : Float) : Float :=
  if y == 0.5 then Float.sqrt x
  else if y == 2.0 then x * x
  else if y == -1.0 then 1.0 / x
  else floatPow x y

/-- A power of vectors: one exponent for several entries, or an exponent for each. -/
def vectorPow (xs ys : List Float) : Except NumberFault Magnitude :=
  match ys with
  | [y] =>
    if xs.length == 1 then .ok (vector (xs.map (floatPow · y)))
    else .ok (vector (xs.map (entryPow · y)))
  | ys => do
    let (xs, ys) ← matchLengths xs ys
    return vector (List.zipWith floatPow xs ys)

/-- A power of unchecked complex numbers: small integer powers are products, and zero has no powers
but those with a positive exponent. -/
def uncheckedComplexPow (a b : Complex) : Complex :=
  if b.isZero then ⟨1.0, 0.0⟩
  else if a.isZero then
    if b.im == 0.0 && 0.0 < b.re then ⟨0.0, 0.0⟩ else ⟨undefined, undefined⟩
  else if b.im == 0.0 && isInteger b.re && b.re.abs < 100.0 then
    a.scaledPow ((truncate? b.re).getD 0)
  else (a.polarPow? b).getD ⟨undefined, undefined⟩

/-- A power of two aligned numbers. -/
def Aligned.power : Aligned → Except NumberFault Magnitude
  | .integers m n =>
    if 0 ≤ n then .ok (integer (integerPow m n.toNat))
    else do checkedPow (← floatOfInt m) (← floatOfInt n)
  | .ratios p q =>
    if q.den == 1 then ratio <$> ratioPow p q.num
    else do checkedPow (← floatOfRat p) (← floatOfRat q)
  | .reals x y => checkedPow x y
  | .uncheckeds x y => .ok (unchecked (floatPow x y))
  | .words m n => word <$> wordPow m n
  | .complexes a b => complex <$> complexPow a b
  | .uncheckedComplexes a b => .ok (uncheckedComplex (uncheckedComplexPow a b))
  | .vectors xs ys => .ok (vector (List.zipWith floatPow xs ys))

/-- A power of an integer with a rational exponent: exact where the exponent is an integer, and an
integer again where that is not negative. -/
def integerRatioPow (m : Int) (q : Rat) : Except NumberFault Magnitude :=
  if q.den == 1 && 0 ≤ q.num then .ok (integer (integerPow m q.num.toNat))
  else (Aligned.ratios m q).power

/-- The power `a ^ b`.  A word and a checked number meet as entries do. -/
def pow (a b : Magnitude) : Except NumberFault Magnitude :=
  match a.numeric, b.numeric with
  | integer m, ratio q => integerRatioPow m q
  | word m, ratio q => integerRatioPow m.toInt q
  | word m, real y => .ok (unchecked (entryPow (floatOfWord m) y))
  | real x, word n => .ok (unchecked (entryPow x (floatOfWord n)))
  | vector xs, vector ys => vectorPow xs ys
  | vector xs, n => do
    let y ← n.toFloat
    return vector (xs.map (entryPow · y))
  | m, n => do (← align m n).power

end UnitCalculus.Magnitude
