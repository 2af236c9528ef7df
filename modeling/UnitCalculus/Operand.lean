import UnitCalculus.ElementaryFunction

/-! # Operands

What the operators take: magnitudes, quantities with and without a kind, dimensions and their
factors, and kinds.  A quantity on either side decides what an operator means; where both sides are
quantities and one of them is not kinded, the result is not kinded either.  Combinations without a
meaning are unsupported, except that anything can be tested for equality. -/

namespace UnitCalculus

/-- A value that an operator may be applied to. -/
inductive Operand where
  | magnitude (m : Magnitude)
  | quantity (q : Quantity)
  | kinded (k : Kinded)
  | dimension (d : Dimension)
  | factor (f : Factor)
  | kind (k : Kind)
  /-- A value of another type, with the name of the type. -/
  | foreign (typeName : String)

namespace Operand

/-- The name of the type of a value, as messages give it. -/
def typeName : Operand → String
  | magnitude m => m.typeName
  | quantity _ => "DynamicQuantity"
  | kinded k => k.kind.name
  | dimension _ => "DimensionVector"
  | factor _ => "Dim"
  | kind _ => "type"
  | foreign name => name

/-- Whether the value is a number or a vector of numbers. -/
def isScalar : Operand → Bool
  | magnitude m => m.isScalar
  | _ => false

/-- The quantity that a value is, its kind forgotten. -/
def quantity? : Operand → Option Quantity
  | quantity q => some q
  | kinded k => some k.toQuantity
  | _ => none

/-- The dimension of a value that has one. -/
def dimension? : Operand → Option Dimension
  | quantity q => some q.dimension
  | kinded k => some k.dimension
  | kind k => some k.dimension
  | _ => none

/-! ### Binary operators -/

/-- An operator on numbers, its result as an operand. -/
def onMagnitudes (o : Operator) (a b : Magnitude) : Except Fault Operand :=
  magnitude <$> o.evaluate a b

/-- A binary operator. -/
def combine (o : Operator) (a b : Operand) : Interning Operand :=
  match a, b with
  | magnitude m, magnitude n => .lift (onMagnitudes o m n)
  | quantity q, quantity r => .lift (quantity <$> q.withQuantity o r)
  | quantity q, kinded k => .lift (quantity <$> q.withQuantity o k.toQuantity)
  | kinded k, quantity q => .lift (quantity <$> Quantity.quantityWith o k.toQuantity q)
  | kinded k, kinded l => kinded <$> k.withKinded o l
  | quantity q, magnitude m =>
    if m.isScalar then .lift (quantity <$> q.withNumber o m) else throw .unsupported
  | magnitude m, quantity q =>
    if m.isScalar then .lift (quantity <$> q.numberWith o m) else throw .unsupported
  | kinded k, magnitude m =>
    if m.isScalar then kinded <$> k.withNumber o m else throw .unsupported
  | magnitude m, kinded k =>
    if m.isScalar then kinded <$> k.numberWith o m else throw .unsupported
  | dimension c, dimension d =>
    match o with
    | .mul => return dimension (c.mul d)
    | .div => return dimension (c.div d)
    | _ => throw .unsupported
  | _, _ => throw .unsupported

/-- The exponent of a quantity: an integer, a rational or a floating-point number. -/
def exponent (places : Int) : Magnitude → Except Fault Rat
  | .word n => .ok (n.toInt : Rat)
  | .integer n => Exponent.ofMagnitude places (.integer n)
  | .ratio q => Exponent.ofMagnitude places (.ratio q)
  | .real x => Exponent.ofMagnitude places (.real x)
  | .unchecked x => Exponent.ofMagnitude places (.unchecked x)
  | .truth b => Exponent.ofMagnitude places (.truth b)
  | _ => .error .unsupported

/-- The value as a rational exponent of a dimension. -/
def toRational (places : Int) : Operand → Except Fault Rat
  | magnitude m => Exponent.ofMagnitude places m
  | x => .error (.operand (.notRational x.typeName))

/-- The base of a power whose exponent is not a magnitude: a rational number becomes a floating-point
one. -/
def powerBase : Magnitude → Except Fault Magnitude
  | .ratio q => .real <$> liftNumber (Magnitude.floatOfRat q)
  | m => .ok m

/-- A power. -/
def power (places : Int) (a b : Operand) : Except Fault Operand :=
  match a, b with
  | magnitude m, magnitude n => magnitude <$> liftNumber (m.pow n)
  | quantity q, magnitude m => do return quantity (← q.pow (← exponent places m))
  | magnitude m, x => do
    let base ← powerBase m
    match x with
    | quantity q =>
      if m.isScalar then return magnitude (← liftNumber (base.pow (← q.get)))
      else throw .unsupported
    | _ => throw .unsupported
  | dimension d, x => do return dimension (d.pow (← x.toRational places))
  | _, _ => .error .unsupported

/-- A root of a dimension. -/
def dimensionRoot (places : Int) (a b : Operand) : Except Fault Operand :=
  match a with
  | dimension d => do
    return dimension (← ElementaryFunction.rootOfDimension d (← b.toRational places))
  | _ => .error .noSuchPart

/-! ### Unary operators -/

def neg : Operand → Except Fault Operand
  | magnitude m => magnitude <$> liftNumber m.neg
  | quantity q => quantity <$> q.neg
  | kinded k => kinded <$> k.neg
  | _ => .error .unsupported

def pos : Operand → Except Fault Operand
  | magnitude m => magnitude <$> liftNumber m.pos
  | quantity q => quantity <$> q.pos
  | kinded k => kinded <$> k.pos
  | _ => .error .unsupported

def abs : Operand → Except Fault Operand
  | magnitude m => magnitude <$> liftNumber m.abs
  | quantity q => quantity <$> q.abs
  | kinded k => kinded <$> k.abs
  | _ => .error .unsupported

/-- The complement of an integer, the reciprocal of a dimension. -/
def invert : Operand → Except Fault Operand
  | magnitude m => magnitude <$> liftNumber m.complement
  | dimension d => .ok (dimension d.inv)
  | _ => .error .unsupported

/-- An elementary function. -/
def apply (places : Int) (f : ElementaryFunction) (a : Operand) : Interning Operand :=
  if f.isZerothRoot then throw (.zero .root)
  else
    match a with
    | quantity q => .lift (quantity <$> f.onQuantity places q)
    | kinded k => kinded <$> f.onKinded places k
    | x => throw (.operand (.notAQuantity x.typeName))

/-! ### Comparison -/

/-- The answer for values that cannot be compared. -/
def incomparable (r : Relation) : Except Fault Magnitude :=
  liftNumber (Magnitude.incomparable r)

/-- The answer for values that can only be equal or different. -/
def equality (r : Relation) (same : Bool) : Except Fault Magnitude :=
  match r with
  | .eq => .ok (.truth same)
  | .ne => .ok (.truth !same)
  | _ => .error .unsupported

/-- Whether a relation holds. -/
def relate (r : Relation) (a b : Operand) : Except Fault Magnitude :=
  match a, b with
  | magnitude m, magnitude n => liftNumber (m.relate r n)
  | quantity q, quantity p => q.relate r p
  | quantity q, kinded k => q.relate r k.toQuantity
  | kinded k, quantity q => q.relate r.swap k.toQuantity
  | kinded k, kinded l => k.relate r l
  | quantity q, magnitude m => if m.isScalar then q.relateNumber r m else incomparable r
  | magnitude m, quantity q => if m.isScalar then q.relateNumber r.swap m else incomparable r
  | kinded k, magnitude m => if m.isScalar then k.relateNumber r m else incomparable r
  | magnitude m, kinded k => if m.isScalar then k.relateNumber r.swap m else incomparable r
  | dimension c, dimension d => equality r (c.same d)
  | factor f, factor g => equality r (f.key == g.key)
  | kind k, kind l => equality r (k == l)
  | _, _ => incomparable r

/-! ### Keys -/

/-- What values that hash alike have in common. -/
inductive Key where
  | magnitude (k : Magnitude.HashKey)
  | quantity (k : Magnitude.HashKey) (d : List (String × Rat))
  | dimension (d : List (String × Rat))
  | factor (f : String × Rat)
  | kind (k : Kind)
  | foreign (typeName : String)
  deriving DecidableEq, Repr

/-- The key of a value. -/
def key : Operand → Except Fault Key
  | magnitude m => .magnitude <$> liftNumber m.hashKey
  | quantity q => do return .quantity (← liftNumber q.magnitude.hashKey) q.dimension.key
  | kinded k => do return .quantity (← liftNumber k.magnitude.hashKey) k.dimension.key
  | dimension d => .ok (.dimension d.key)
  | factor f => .ok (.factor f.key)
  | kind k => .ok (.kind k)
  | foreign name => .ok (.foreign name)

/-- Whether values with these keys hash alike. -/
def Key.agrees : Key → Key → Bool
  | .magnitude k, .magnitude l => k.agrees l
  | .quantity k c, .quantity l d => k.agrees l && c == d
  | a, b => a == b

end Operand

end UnitCalculus
