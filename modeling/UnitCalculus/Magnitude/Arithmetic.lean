import UnitCalculus.Magnitude.Basic

/-! # Arithmetic of magnitudes

Two magnitudes are first brought to one family (`align`), then the operation of that family is
applied.  Integers stay exact under sum, difference, product and remainder and become floating-point
numbers under division; rational numbers stay exact under all four; checked numbers refuse a zero
divisor; unchecked numbers, words and vectors never refuse. -/

namespace UnitCalculus.Magnitude

open UnitCalculus.Decimal

/-! ### One family for two magnitudes -/

/-- Two numbers of one family, or two vectors of one length. -/
inductive Aligned where
  | integers (a b : Int)
  | ratios (a b : Rat)
  | reals (a b : Float)
  | uncheckeds (a b : Float)
  | words (a b : Int64)
  | complexes (a b : Complex)
  | uncheckedComplexes (a b : Complex)
  | vectors (xs ys : List Float)

/-- A single number as a complex one. -/
def toComplex : Magnitude → Except NumberFault Complex
  | complex z => .ok z
  | uncheckedComplex z => .ok z
  | vector _ => .error .unsupported
  | m => (Complex.ofReal ·) <$> m.toFloat

/-- Two vectors of one length; a vector of one entry is repeated as often as needed. -/
def matchLengths {α β : Type} (xs : List α) (ys : List β) :
    Except NumberFault (List α × List β) :=
  if xs.length == ys.length then .ok (xs, ys)
  else
    match xs, ys with
    | [x], ys => .ok (List.replicate ys.length x, ys)
    | xs, [y] => .ok (xs, List.replicate xs.length y)
    | _, _ => .error .outsideDomain

/-- Two vectors brought to one length. -/
def alignVectors (xs ys : List Float) : Except NumberFault Aligned := do
  let (xs, ys) ← matchLengths xs ys
  return .vectors xs ys

/-- Two magnitudes brought to one family.  A rational number on the right makes an unchecked number
checked; on the left it becomes unchecked itself. -/
def align (a b : Magnitude) : Except NumberFault Aligned :=
  match a.numeric, b.numeric with
  | integer m, integer n => .ok (.integers m n)
  | integer m, ratio q => .ok (.ratios m q)
  | ratio p, integer n => .ok (.ratios p n)
  | ratio p, ratio q => .ok (.ratios p q)
  | integer m, real y => (.reals · y) <$> floatOfInt m
  | real x, integer n => (.reals x ·) <$> floatOfInt n
  | ratio p, real y => (.reals · y) <$> floatOfRat p
  | real x, ratio q => (.reals x ·) <$> floatOfRat q
  | real x, real y => .ok (.reals x y)
  | integer m, unchecked y => (.uncheckeds · y) <$> floatOfInt m
  | unchecked x, integer n => (.uncheckeds x ·) <$> floatOfInt n
  | ratio p, unchecked y => (.uncheckeds · y) <$> floatOfRat p
  | unchecked x, ratio q => (.reals x ·) <$> floatOfRat q
  | real x, unchecked y => .ok (.uncheckeds x y)
  | unchecked x, real y => .ok (.uncheckeds x y)
  | unchecked x, unchecked y => .ok (.uncheckeds x y)
  | word m, word n => .ok (.words m n)
  | word m, integer n => (.words m ·) <$> wordOfInt n
  | integer m, word n => (.words · n) <$> wordOfInt m
  | word m, ratio q => .ok (.ratios m.toInt q)
  | ratio p, word n => .ok (.ratios p n.toInt)
  | word m, real y => .ok (.uncheckeds (floatOfWord m) y)
  | real x, word n => .ok (.uncheckeds x (floatOfWord n))
  | word m, unchecked y => .ok (.uncheckeds (floatOfWord m) y)
  | unchecked x, word n => .ok (.uncheckeds x (floatOfWord n))
  | uncheckedComplex z, n => (.uncheckedComplexes z ·) <$> n.toComplex
  | m, uncheckedComplex w => (.uncheckedComplexes · w) <$> m.toComplex
  | complex z, word n => .ok (.uncheckedComplexes z (.ofReal (floatOfWord n)))
  | word m, complex w => .ok (.uncheckedComplexes (.ofReal (floatOfWord m)) w)
  | unchecked x, complex w => .ok (.uncheckedComplexes (.ofReal x) w)
  | complex z, n => (.complexes z ·) <$> n.toComplex
  | m, complex w => (.complexes · w) <$> m.toComplex
  | vector xs, vector ys => alignVectors xs ys
  | vector xs, n => do alignVectors xs [← n.toFloat]
  | m, vector ys => do alignVectors [← m.toFloat] ys
  | _, _ => .error .unsupported

/-! ### Sum, difference, product -/

/-- An operation that every family has. -/
structure Operation where
  integers : Int → Int → Int
  ratios : Rat → Rat → Rat
  floats : Float → Float → Float
  words : Int64 → Int64 → Int64
  complexes : Complex → Complex → Complex

/-- Apply an operation in the family of two aligned numbers. -/
def Operation.apply (o : Operation) : Aligned → Magnitude
  | .integers a b => integer (o.integers a b)
  | .ratios a b => ratio (o.ratios a b)
  | .reals a b => real (o.floats a b)
  | .uncheckeds a b => unchecked (o.floats a b)
  | .words a b => word (o.words a b)
  | .complexes a b => complex (o.complexes a b)
  | .uncheckedComplexes a b => uncheckedComplex (o.complexes a b)
  | .vectors xs ys => vector (List.zipWith o.floats xs ys)

def addition : Operation := ⟨(· + ·), (· + ·), (· + ·), (· + ·), Complex.add⟩

def subtraction : Operation := ⟨(· - ·), (· - ·), (· - ·), (· - ·), Complex.sub⟩

def multiplication : Operation := ⟨(· * ·), (· * ·), (· * ·), (· * ·), Complex.mul⟩

def add (a b : Magnitude) : Except NumberFault Magnitude :=
  addition.apply <$> align a b

def sub (a b : Magnitude) : Except NumberFault Magnitude :=
  subtraction.apply <$> align a b

def mul (a b : Magnitude) : Except NumberFault Magnitude :=
  multiplication.apply <$> align a b

/-! ### Division and remainder -/

/-- The quotient of two aligned numbers. -/
def Aligned.quotient : Aligned → Except NumberFault Magnitude
  | .integers a b =>
    if b == 0 then .error .divisionByZero
    else
      match quotient? a b with
      | some x => .ok (real x)
      | none => .error .overflow
  | .ratios a b => if b == 0 then .error .divisionByZero else .ok (ratio (a / b))
  | .reals a b => if b == 0.0 then .error .divisionByZero else .ok (real (a / b))
  | .uncheckeds a b => .ok (unchecked (a / b))
  | .words a b => .ok (unchecked (floatOfWord a / floatOfWord b))
  | .complexes a b => if b.isZero then .error .divisionByZero else .ok (complex (a.div b))
  | .uncheckedComplexes a b => .ok (uncheckedComplex (a.scaledDiv b))
  | .vectors xs ys => .ok (vector (List.zipWith (· / ·) xs ys))

/-- The remainder of flooring division of rational numbers. -/
def ratioMod (a b : Rat) : Rat :=
  a - b * ((a / b).floor : Rat)

/-- The remainder of two aligned numbers, with the sign of the divisor. -/
def Aligned.remainder : Aligned → Except NumberFault Magnitude
  | .integers a b =>
    if b == 0 then .error .divisionByZero else .ok (integer (Int.fmod a b))
  | .ratios a b => if b == 0 then .error .divisionByZero else .ok (ratio (ratioMod a b))
  | .reals a b => if b == 0.0 then .error .divisionByZero else .ok (real (flooredMod a b))
  | .uncheckeds a b => .ok (unchecked (flooredMod a b))
  | .words a b =>
    .ok (word (if b == 0 then 0 else Int64.ofInt (Int.fmod a.toInt b.toInt)))
  | .complexes _ _ => .error .unsupported
  | .uncheckedComplexes _ _ => .error .unsupported
  | .vectors xs ys => .ok (vector (List.zipWith flooredMod xs ys))

def div (a b : Magnitude) : Except NumberFault Magnitude := do
  (← align a b).quotient

/-- The remainder.  Complex numbers have none; with an integer that shows before the two are brought
to one family. -/
def mod (a b : Magnitude) : Except NumberFault Magnitude :=
  match a.numeric, b.numeric with
  | integer _, complex _ => .error .unsupported
  | complex _, integer _ => .error .unsupported
  | m, n => do (← align m n).remainder

/-! ### Signs and parts -/

def neg (m : Magnitude) : Except NumberFault Magnitude :=
  match m.numeric with
  | integer n => .ok (integer (-n))
  | ratio q => .ok (ratio (-q))
  | real x => .ok (real (-x))
  | unchecked x => .ok (unchecked (-x))
  | word n => .ok (word (-n))
  | complex z => .ok (complex z.neg)
  | uncheckedComplex z => .ok (uncheckedComplex z.neg)
  | vector xs => .ok (vector (xs.map (- ·)))
  | _ => .error .unsupported

/-- A number as it is; truth values become integers. -/
def pos (m : Magnitude) : Except NumberFault Magnitude :=
  match m.numeric with
  | mask _ => .error .unsupported
  | text _ => .error .unsupported
  | absent => .error .unsupported
  | n => .ok n

/-- The absolute value; that of a complex number is a floating-point number. -/
def abs (m : Magnitude) : Except NumberFault Magnitude :=
  match m.numeric with
  | integer n => .ok (integer n.natAbs)
  | ratio q => .ok (ratio (if q < 0 then -q else q))
  | real x => .ok (real x.abs)
  | unchecked x => .ok (unchecked x.abs)
  | word n => .ok (word (if n < 0 then -n else n))
  | complex z =>
    let r := z.abs
    if isInfinite r && !isInfinite z.re && !isInfinite z.im then .error .overflow
    else .ok (real r)
  | uncheckedComplex z => .ok (unchecked z.abs)
  | vector xs => .ok (vector (xs.map Float.abs))
  | mask bs => .ok (mask bs)
  | _ => .error .unsupported

/-- The complement `-n - 1` of an integer. -/
def complement (m : Magnitude) : Except NumberFault Magnitude :=
  match m.numeric with
  | integer n => .ok (integer (-n - 1))
  | word n => .ok (word (-n - 1))
  | mask bs => .ok (mask (bs.map (!·)))
  | _ => .error .unsupported

/-- The integer part of a floating-point number. -/
def integerPart (x : Float) : Except NumberFault Int :=
  match truncate? x with
  | some n => .ok n
  | none => .error (if x == x then .overflow else .outsideDomain)

/-- The integer part of a single number, or the integer that a text holds. -/
def toInteger (m : Magnitude) : Except NumberFault Int :=
  match m.numeric with
  | integer n => .ok n
  | ratio q => .ok (Int.tdiv q.num q.den)
  | real x => integerPart x
  | unchecked x => integerPart x
  | word n => .ok n.toInt
  | uncheckedComplex z => integerPart z.re
  | vector [x] => integerPart x
  | mask [b] => .ok (if b then 1 else 0)
  | text s =>
    match wholeInteger? s.toList with
    | some n => .ok n
    | none => .error .outsideDomain
  | _ => .error .unsupported

/-- Whether a value counts as true: a number that is not zero, a text that is not empty. -/
def truthy : Magnitude → Except NumberFault Bool
  | integer n => .ok (n != 0)
  | ratio q => .ok (q != 0)
  | real x => .ok (x != 0.0)
  | unchecked x => .ok (x != 0.0)
  | word n => .ok (n != 0)
  | complex z => .ok (!z.isZero)
  | uncheckedComplex z => .ok (!z.isZero)
  | vector [x] => .ok (x != 0.0)
  | mask [b] => .ok b
  | vector _ => .error .outsideDomain
  | mask _ => .error .outsideDomain
  | truth b => .ok b
  | text s => .ok (s != "")
  | absent => .ok false

end UnitCalculus.Magnitude
