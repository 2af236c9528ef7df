import UnitCalculus.Fault
import UnitCalculus.Magnitude.Elementary

/-! # Quantities

A quantity is a magnitude with a dimension that is carried along as data.  Sum, difference,
remainder and comparison ask for equal dimensions, with a bare number for none; product and quotient
combine the dimensions; a power multiplies them.  Every operation says which dimensions failed. -/

namespace UnitCalculus

/-! ### Binary operators -/

/-- The operators that take two operands of one sort. -/
inductive Operator where
  | add
  | sub
  | mul
  | div
  | mod
  deriving DecidableEq, Repr

namespace Operator

/-- The sign of the operator. -/
def symbol : Operator → String
  | add => "+"
  | sub => "-"
  | mul => "*"
  | div => "/"
  | mod => "%"

/-- The operator on magnitudes. -/
def compute : Operator → Magnitude → Magnitude → Except NumberFault Magnitude
  | add => Magnitude.add
  | sub => Magnitude.sub
  | mul => Magnitude.mul
  | div => Magnitude.div
  | mod => Magnitude.mod

/-- The operator on magnitudes, its fault as one of the library. -/
def evaluate (o : Operator) (a b : Magnitude) : Except Fault Magnitude :=
  liftNumber (o.compute a b)

end Operator

/-! ### Rational exponents of any magnitude -/

namespace Exponent

/-- The fault of an approximation as one of arithmetic. -/
def ApproximationFault.toNumber : ApproximationFault → NumberFault
  | tooLarge => .overflow
  | notANumber => .outsideDomain
  | noGrid => .unsupported

/-- The quotient of two integers. -/
def ofIntegers (num den : Int) : Except Fault Rat :=
  if den == 0 then .error (.zero (.denominator num)) else .ok (num / den)

/-- A floating-point number as an exponent, with a number of decimal places. -/
def ofFloat (places : Int) (x : Float) : Except Fault Rat :=
  match approximate x places with
  | .ok q => .ok q
  | .error f => .error (.number f.toNumber)

/-- A magnitude as an exponent: integers and rational numbers as they are, floating-point numbers
approximated, texts read. -/
def ofMagnitude (places : Int) : Magnitude → Except Fault Rat
  | .ratio q => .ok q
  | .truth _ => .error (.operand .truthExponent)
  | .integer n => .ok n
  | .real x => ofFloat places x
  | .unchecked x => ofFloat places x
  | .text s =>
    match ofText? s with
    | some q => .ok q
    | none => .error (.value (.invalidRational s))
  | m => .error (.operand (.notRational m.typeName))

end Exponent

/-! ### The type -/

/-- A magnitude with a dimension. -/
structure Quantity where
  magnitude : Magnitude
  dimension : Dimension
  deriving DecidableEq

namespace Quantity

/-- A bare number as a quantity. -/
def bare (m : Magnitude) : Quantity := ⟨m, .one⟩

/-- The number one. -/
def one : Quantity := bare (.integer 1)

/-- Whether the quantity is a bare number. -/
def isBare (q : Quantity) : Bool := q.dimension.isOne

/-- The dimension must be the given one. -/
def requireSame (q : Quantity) (d : Dimension) : Except Fault Unit :=
  if q.dimension.same d then .ok ()
  else .error (.dimension ⟨.incompatible, q.dimension, d⟩)

/-- The quantity must be a bare number. -/
def requireBare (q : Quantity) : Except Fault Unit :=
  if q.isBare then .ok () else .error (.dimension ⟨.notDimensionless, q.dimension, .one⟩)

/-- The value of a bare number. -/
def get (q : Quantity) : Except Fault Magnitude := do
  q.requireBare
  return q.magnitude

/-- The quantity as a multiple of another. -/
def inUnitsOf (q target : Quantity) : Except Fault Magnitude := do
  q.requireSame target.dimension
  Operator.div.evaluate q.magnitude target.magnitude

/-! ### Operators -/

/-- The operator on two quantities. -/
def withQuantity (o : Operator) (q r : Quantity) : Except Fault Quantity :=
  match o with
  | .mul => do return ⟨← o.evaluate q.magnitude r.magnitude, q.dimension.mul r.dimension⟩
  | .div => do return ⟨← o.evaluate q.magnitude r.magnitude, q.dimension.div r.dimension⟩
  | .add | .sub | .mod => do
    q.requireSame r.dimension
    return ⟨← o.evaluate q.magnitude r.magnitude, q.dimension⟩

/-- The operator on another quantity on the left and `q` on the right, where `q` checks. -/
def quantityWith (o : Operator) (other q : Quantity) : Except Fault Quantity :=
  match o with
  | .mul => do return ⟨← o.evaluate other.magnitude q.magnitude, other.dimension.mul q.dimension⟩
  | .div => do return ⟨← o.evaluate other.magnitude q.magnitude, other.dimension.div q.dimension⟩
  | .add | .sub | .mod => do
    q.requireSame other.dimension
    return ⟨← o.evaluate other.magnitude q.magnitude, q.dimension⟩

/-- The operator on a quantity and a number. -/
def withNumber (o : Operator) (q : Quantity) (m : Magnitude) : Except Fault Quantity :=
  match o with
  | .add | .sub => do
    q.requireBare
    return ⟨← o.evaluate q.magnitude m, q.dimension⟩
  | .mul | .div | .mod => do return ⟨← o.evaluate q.magnitude m, q.dimension⟩

/-- The operator on a number and a quantity. -/
def numberWith (o : Operator) (m : Magnitude) (q : Quantity) : Except Fault Quantity :=
  match o with
  | .add | .sub | .mod => do
    q.requireBare
    return ⟨← o.evaluate m q.magnitude, q.dimension⟩
  | .mul => do return ⟨← o.evaluate m q.magnitude, q.dimension⟩
  | .div => do return ⟨← o.evaluate m q.magnitude, q.dimension.inv⟩

def mul (q r : Quantity) : Except Fault Quantity := withQuantity .mul q r

def div (q r : Quantity) : Except Fault Quantity := withQuantity .div q r

/-- The power of a magnitude: exact for an integer exponent. -/
def powerOfMagnitude (m : Magnitude) (e : Rat) : Except NumberFault Magnitude :=
  if e.den == 1 then m.pow (.integer e.num)
  else do
    match Decimal.quotient? e.num e.den with
    | some y => m.pow (.real y)
    | none => .error .overflow

/-- A rational power of a quantity. -/
def pow (q : Quantity) (e : Rat) : Except Fault Quantity := do
  return ⟨← liftNumber (powerOfMagnitude q.magnitude e), q.dimension.pow e⟩

def neg (q : Quantity) : Except Fault Quantity := do
  return ⟨← liftNumber q.magnitude.neg, q.dimension⟩

def pos (q : Quantity) : Except Fault Quantity := do
  return ⟨← liftNumber q.magnitude.pos, q.dimension⟩

def abs (q : Quantity) : Except Fault Quantity := do
  return ⟨← liftNumber q.magnitude.abs, q.dimension⟩

/-! ### Comparison -/

/-- Whether the relation holds between two quantities. -/
def relate (r : Relation) (q p : Quantity) : Except Fault Magnitude := do
  q.requireSame p.dimension
  liftNumber (q.magnitude.relate r p.magnitude)

/-- Whether the relation holds between a quantity and a number. -/
def relateNumber (r : Relation) (q : Quantity) (m : Magnitude) : Except Fault Magnitude := do
  q.requireBare
  liftNumber (q.magnitude.relate r m)

/-! ### Text -/

/-- Magnitude and dimension. -/
def text (q : Quantity) : String :=
  q.magnitude.toText ++ " " ++ q.dimension.text

/-- The quantity as it is displayed among other values. -/
def display (q : Quantity) : String :=
  "DynamicQuantity(" ++ q.magnitude.display ++ ", " ++ Text.quoted q.dimension.text ++ ")"

/-- The magnitude in a field, and the dimension. -/
def inField (q : Quantity) (spec : String) : Except Fault String := do
  return (← liftDisplay (q.magnitude.inField spec)) ++ " " ++ q.dimension.text

end Quantity

end UnitCalculus
