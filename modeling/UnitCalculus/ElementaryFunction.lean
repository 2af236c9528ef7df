import UnitCalculus.Kinded

/-! # Elementary functions of quantities

Squares, cubes, powers, roots and absolute values.  Each function has a part for the magnitude and
one for the dimension, which it multiplies or divides by the degree.  For a quantity the magnitude is
computed first; for a kinded quantity the kind of the result comes first. -/

namespace UnitCalculus

/-- A function of one quantity. -/
inductive ElementaryFunction where
  | square
  | cubic
  | sqrt
  | cbrt
  | absolute
  | power (n : Magnitude)
  | nthRoot (n : Magnitude)

namespace ElementaryFunction

/-- The root of the degree `n` of a magnitude. -/
def rootOfMagnitude (n m : Magnitude) : Except Fault Magnitude := do
  let remainder ← liftNumber (n.mod (.integer 2))
  let odd ← liftNumber remainder.truthy
  let reciprocal ← liftNumber ((Magnitude.real 1.0).div n)
  let y ← liftNumber reciprocal.toFloat
  liftNumber (m.nthRoot odd y)

/-- The function on magnitudes. -/
def onMagnitude (f : ElementaryFunction) (m : Magnitude) : Except Fault Magnitude :=
  match f with
  | square => liftNumber m.square
  | cubic => liftNumber m.cubic
  | sqrt => liftNumber m.sqrt
  | cbrt => liftNumber m.cbrt
  | absolute => liftNumber m.absolute
  | power n => do liftNumber (m.floatPower (← liftNumber n.toFloat))
  | nthRoot n => rootOfMagnitude n m

/-- The `q`-th root of a dimension. -/
def rootOfDimension (d : Dimension) (q : Rat) : Except Fault Dimension :=
  match d.root? q with
  | some e => .ok e
  | none => .error (.zero .dimensionRoot)

/-- The function on dimensions. -/
def onDimension (places : Int) (f : ElementaryFunction) (d : Dimension) : Except Fault Dimension :=
  match f with
  | square => .ok (d.pow 2)
  | cubic => .ok (d.pow 3)
  | sqrt => rootOfDimension d 2
  | cbrt => rootOfDimension d 3
  | absolute => .ok d
  | power n => do return d.pow (← Exponent.ofMagnitude places n)
  | nthRoot n => do rootOfDimension d (← Exponent.ofMagnitude places n)

/-- Whether the function is the root of degree zero, which there is not. -/
def isZerothRoot : ElementaryFunction → Bool
  | nthRoot n =>
    match n.relate .eq (.integer 0) with
    | .ok (.truth b) => b
    | _ => false
  | _ => false

/-- The function of a quantity. -/
def onQuantity (places : Int) (f : ElementaryFunction) (q : Quantity) : Except Fault Quantity := do
  let m ← f.onMagnitude q.magnitude
  return ⟨m, ← f.onDimension places q.dimension⟩

/-- The function of a kinded quantity. -/
def onKinded (places : Int) (f : ElementaryFunction) (k : Kinded) : Interning Kinded := do
  let d ← Interning.lift (f.onDimension places k.dimension)
  Kinded.ofDimension d (f.onMagnitude k.magnitude)

end ElementaryFunction

end UnitCalculus
