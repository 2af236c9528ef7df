import UnitCalculus.Decimal.Literal
import UnitCalculus.Magnitude.Complex

/-! # Magnitudes

The value of a quantity is a number of one of several families, a vector of numbers, or, since
nothing is checked when a quantity is built, something that is no number at all.  The families
differ in what happens at the edge: integers and rationals are exact; *checked* floating-point
numbers refuse a division by zero and an overflowing power; *unchecked* ones go on with infinite and
undefined numbers; words are integers of 64 bits and wrap around. -/

namespace UnitCalculus

/-- The value of a quantity. -/
inductive Magnitude where
  | integer (n : Int)
  | ratio (q : Rat)
  /-- A checked floating-point number. -/
  | real (x : Float)
  /-- An unchecked floating-point number. -/
  | unchecked (x : Float)
  | word (n : Int64)
  | complex (z : Complex)
  | uncheckedComplex (z : Complex)
  | vector (xs : List Float)
  /-- The result of comparing a vector, entry by entry. -/
  | mask (bs : List Bool)
  | truth (b : Bool)
  | text (s : String)
  | absent
  deriving DecidableEq

instance : Inhabited Magnitude := ⟨.absent⟩

/-- Why an operation on magnitudes has no result. -/
inductive NumberFault where
  | divisionByZero
  | overflow
  /-- The operation is not defined for the families of its operands. -/
  | unsupported
  /-- The operation is defined, but not for these values. -/
  | outsideDomain
  /-- The value has no such part. -/
  | noSuchPart
  deriving DecidableEq, Repr

namespace Magnitude

/-- The name of the family of a magnitude, as messages give it. -/
def typeName : Magnitude → String
  | integer _ => "int"
  | ratio _ => "Fraction"
  | real _ => "float"
  | unchecked _ => "float64"
  | word _ => "int64"
  | complex _ => "complex"
  | uncheckedComplex _ => "complex128"
  | vector _ => "ndarray"
  | mask _ => "ndarray"
  | truth _ => "bool"
  | text _ => "str"
  | absent => "NoneType"

/-- Whether the magnitude is a number or a vector of numbers. -/
def isScalar : Magnitude → Bool
  | truth _ | text _ | absent => false
  | _ => true

/-- Truth values count as the integers zero and one in arithmetic. -/
def numeric : Magnitude → Magnitude
  | truth b => integer (if b then 1 else 0)
  | m => m

/-- The checked floating-point number nearest to an integer. -/
def floatOfInt (n : Int) : Except NumberFault Float :=
  match Decimal.ofInt? n with
  | some x => .ok x
  | none => .error .overflow

/-- The checked floating-point number nearest to a rational number. -/
def floatOfRat (q : Rat) : Except NumberFault Float :=
  match Decimal.ofRat? q with
  | some x => .ok x
  | none => .error .overflow

/-- A word as a floating-point number. -/
def floatOfWord (n : Int64) : Float :=
  (Decimal.ofInt? n.toInt).getD 0.0

/-- Whether an integer fits a word. -/
def fitsWord (n : Int) : Bool :=
  -(Decimal.powTwo 63) ≤ n && n < Decimal.powTwo 63

/-- An integer as a word, unless it does not fit. -/
def wordOfInt (n : Int) : Except NumberFault Int64 :=
  if fitsWord n then .ok (Int64.ofInt n) else .error .overflow

/-- The floating-point value of a single number. -/
def toFloat : Magnitude → Except NumberFault Float
  | integer n => floatOfInt n
  | ratio q => floatOfRat q
  | real x => .ok x
  | unchecked x => .ok x
  | word n => .ok (floatOfWord n)
  | truth b => .ok (if b then 1.0 else 0.0)
  | vector [x] => .ok x
  | mask [b] => .ok (if b then 1.0 else 0.0)
  | text s =>
    match Decimal.wholeFloat? s.toList with
    | some x => .ok x
    | none => .error .outsideDomain
  | _ => .error .unsupported

end Magnitude

end UnitCalculus
