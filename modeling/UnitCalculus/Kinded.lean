import UnitCalculus.Kind
import UnitCalculus.Quantity

/-! # Kinded quantities

A kinded quantity is a magnitude of a kind; the kind fixes the dimension.  Sum, difference,
remainder and comparison ask for one kind, with a bare number for the kind of bare numbers; product
and quotient have the kind of the combined dimension. -/

namespace UnitCalculus

/-- A magnitude of a kind. -/
structure Kinded where
  kind : Kind
  magnitude : Magnitude

namespace Kinded

/-- The dimension of the kind. -/
def dimension (k : Kinded) : Dimension := k.kind.dimension

/-- Magnitude and dimension as a quantity. -/
def toQuantity (k : Kinded) : Quantity := ⟨k.magnitude, k.dimension⟩

/-- Two dimensions that an operation does not combine. -/
def mismatch (op : String) (a b : Dimension) : Fault := .operand (.kindMismatch op a b)

/-- The kind must be that of the other operand. -/
def requireSame (op : String) (a b : Kinded) : Except Fault Unit :=
  if a.kind.same b.kind then .ok () else .error (mismatch op a.dimension b.dimension)

/-- The kind must be that of bare numbers. -/
def requireBare (op : String) (a : Kinded) : Except Fault Unit :=
  if a.dimension.isOne then .ok () else .error (mismatch op a.dimension .one)

/-! ### Operators -/

/-- A magnitude of the kind of a dimension; the kind exists even if there is no magnitude. -/
def ofDimension (d : Dimension) (m : Except Fault Magnitude) : Interning Kinded := do
  let k ← Interning.kind d none
  return ⟨k, ← Interning.lift m⟩

/-- The operator on two kinded quantities. -/
def withKinded (o : Operator) (a b : Kinded) : Interning Kinded :=
  match o with
  | .mul => ofDimension (a.dimension.mul b.dimension) (o.evaluate a.magnitude b.magnitude)
  | .div => ofDimension (a.dimension.div b.dimension) (o.evaluate a.magnitude b.magnitude)
  | .add | .sub | .mod => Interning.lift do
    requireSame o.symbol a b
    return ⟨a.kind, ← o.evaluate a.magnitude b.magnitude⟩

/-- The operator on a kinded quantity and a number. -/
def withNumber (o : Operator) (a : Kinded) (m : Magnitude) : Interning Kinded :=
  Interning.lift do
    match o with
    | .add | .sub => requireBare o.symbol a
    | .mul | .div | .mod => pure ()
    return ⟨a.kind, ← o.evaluate a.magnitude m⟩

/-- The operator on a number and a kinded quantity. -/
def numberWith (o : Operator) (m : Magnitude) (a : Kinded) : Interning Kinded :=
  match o with
  | .div => ofDimension a.dimension.inv (o.evaluate m a.magnitude)
  | .mul => Interning.lift do return ⟨a.kind, ← o.evaluate m a.magnitude⟩
  | .add | .sub | .mod => Interning.lift do
    requireBare o.symbol a
    return ⟨a.kind, ← o.evaluate m a.magnitude⟩

def neg (a : Kinded) : Except Fault Kinded := do
  return ⟨a.kind, ← liftNumber a.magnitude.neg⟩

def pos (a : Kinded) : Except Fault Kinded := do
  return ⟨a.kind, ← liftNumber a.magnitude.pos⟩

def abs (a : Kinded) : Except Fault Kinded := do
  return ⟨a.kind, ← liftNumber a.magnitude.abs⟩

/-! ### Comparison -/

/-- Whether the relation holds between two kinded quantities. -/
def relate (r : Relation) (a b : Kinded) : Except Fault Magnitude := do
  requireSame r.symbol a b
  liftNumber (a.magnitude.relate r b.magnitude)

/-- Whether the relation holds between a kinded quantity and a number. -/
def relateNumber (r : Relation) (a : Kinded) (m : Magnitude) : Except Fault Magnitude := do
  requireBare r.symbol a
  liftNumber (a.magnitude.relate r m)

/-! ### Conversion -/

/-- A base unit: the given magnitude of the kind of a base dimension. -/
def unit (symbol : String) (rank : Option Int) (m : Magnitude) : Interning Kinded :=
  ofDimension (.base symbol rank) (.ok m)

/-- A quantity as one of a kind, if it has the dimension of the kind. -/
def ofQuantity (k : Kind) (q : Quantity) : Except Fault Kinded :=
  if q.dimension.same k.dimension then .ok ⟨k, q.magnitude⟩
  else .error (.dimension ⟨.incompatible, k.dimension, q.dimension⟩)

/-- The kinded quantity as a multiple of another. -/
def inUnitsOf (a target : Kinded) : Except Fault Magnitude := do
  requireSame "value()" a target
  Operator.div.evaluate a.magnitude target.magnitude

/-- The kinded quantity as a multiple of a quantity. -/
def inUnitsOfQuantity (a : Kinded) (target : Quantity) : Except Fault Magnitude := do
  if !target.dimension.same a.dimension then
    throw (.dimension ⟨.incompatible, a.dimension, target.dimension⟩)
  Operator.div.evaluate a.magnitude target.magnitude

/-! ### Text -/

/-- Magnitude and dimension. -/
def text (a : Kinded) : String := a.toQuantity.text

/-- The name of the kind, and the magnitude. -/
def display (a : Kinded) : String :=
  a.kind.name ++ "(" ++ a.magnitude.display ++ ")"

end Kinded

end UnitCalculus
