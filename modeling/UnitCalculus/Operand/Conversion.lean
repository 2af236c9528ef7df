import UnitCalculus.Operand

/-! # Conversion of operands

Quantities from other values and back: building quantities and kinded quantities, reading their
magnitudes, expressing one in units of another, and their text. -/

namespace UnitCalculus.Operand

/-! ### Building quantities -/

/-- The value as a quantity of a kind; without a kind nothing can be built. -/
def construct (k : Option Kind) (a : Operand) : Except Fault Kinded :=
  match k with
  | none => .error (.operand .abstractKind)
  | some k =>
    match a with
    | kinded l =>
      if l.kind.same k then .ok ⟨k, l.magnitude⟩
      else .error (.operand (.wrongKind l.dimension k.dimension))
    | quantity q => Kinded.ofQuantity k q
    | magnitude m =>
      if !m.isScalar then .error (.operand (.notConvertible k.name m.typeName))
      else if k.dimension.isOne then .ok ⟨k, m⟩
      else .error (.operand (.bareNumber k.name))
    | x => .error (.operand (.notConvertible k.name x.typeName))

/-- A quantity from a magnitude and a dimension, or from another quantity alone. -/
def makeQuantity (value : Operand) (dimensions : Option Operand) : Except Fault Quantity :=
  match value.quantity?, dimensions with
  | some _, some _ => .error (.operand .dimensionGiven)
  | some q, none => .ok q
  | none, d =>
    match value, d with
    | magnitude m, none => .ok ⟨m, .one⟩
    | magnitude m, some (dimension d) => .ok ⟨m, d⟩
    | _, some (dimension _) => .error .unsupported
    | _, none => .error .unsupported
    | _, some _ => .error (.operand .dimensionExpected)

/-- A number or a quantity as a quantity without a kind. -/
def toQuantity (a : Operand) : Except Fault Quantity :=
  match a with
  | quantity q => .ok q
  | kinded k => .ok k.toQuantity
  | magnitude m =>
    if m.isScalar then .ok (.bare m) else .error (.operand (.noQuantity m.typeName))
  | x => .error (.operand (.noQuantity x.typeName))

/-- The kind of a value and its magnitude, as a quantity. -/
def forgetKind : Operand → Except Fault Quantity
  | kinded k => .ok k.toQuantity
  | _ => .error .noSuchPart

/-- Magnitude and dimension of any quantity. -/
def asQuantity (a : Operand) : Except Fault Quantity :=
  match a.quantity? with
  | some q => .ok q
  | none => .error .noSuchPart

/-! ### Reading magnitudes -/

/-- The value of a bare number that is a quantity without a kind. -/
def get : Operand → Except Fault Magnitude
  | quantity q => q.get
  | _ => .error .noSuchPart

/-- The magnitude of a quantity. -/
def rawMagnitude : Operand → Except Fault Magnitude
  | quantity q => .ok q.magnitude
  | kinded k => .ok k.magnitude
  | _ => .error .noSuchPart

/-- The dimension of a quantity or a kind. -/
def dimensionOf (a : Operand) : Except Fault Dimension :=
  match a.dimension? with
  | some d => .ok d
  | none => .error .noSuchPart

/-- Whether a quantity is a bare number, or a dimension that of bare numbers. -/
def isBare : Operand → Except Fault Bool
  | quantity q => .ok q.isBare
  | kinded k => .ok k.dimension.isOne
  | dimension d => .ok d.isOne
  | _ => .error .noSuchPart

/-- A quantity as a multiple of another. -/
def inUnitsOf (a target : Operand) : Except Fault Magnitude :=
  match a, target with
  | quantity q, t =>
    match t.quantity? with
    | some r => q.inUnitsOf r
    | none => .error .noSuchPart
  | kinded k, kinded l => k.inUnitsOf l
  | kinded k, quantity q => k.inUnitsOfQuantity q
  | _, _ => .error .noSuchPart

/-- Whether two quantities have the same dimension. -/
def isConsistentWith (a b : Operand) : Except Fault Bool :=
  match a.quantity?, b.dimension? with
  | some q, some d => .ok (q.dimension.same d)
  | _, _ => .error .noSuchPart

/-- The floating-point value of a bare number. -/
def toFloat : Operand → Except Fault Float
  | magnitude m => liftNumber m.toFloat
  | quantity q => do liftNumber (← q.get).toFloat
  | kinded k => do
    k.requireBare "float()"
    liftNumber k.magnitude.toFloat
  | _ => .error .unsupported

/-- The integer part of a bare number. -/
def toInteger : Operand → Except Fault Int
  | magnitude m => liftNumber m.toInteger
  | quantity q => do liftNumber (← q.get).toInteger
  | kinded k => do
    k.requireBare "int()"
    liftNumber k.magnitude.toInteger
  | _ => .error .unsupported

/-- Whether a value counts as true. -/
def truthy : Operand → Except Fault Bool
  | magnitude m => liftNumber m.truthy
  | dimension d => .ok !d.isOne
  | _ => .ok true

/-- How many parts a value has. -/
def size : Operand → Except Fault Nat
  | magnitude (.text s) => .ok s.length
  | magnitude (.vector xs) => .ok xs.length
  | magnitude (.mask bs) => .ok bs.length
  | dimension d => .ok d.factors.length
  | _ => .error .unsupported

/-! ### Text -/

/-- The magnitude of a value that has one. -/
def magnitude? : Operand → Option Magnitude
  | magnitude m => some m
  | quantity q => some q.magnitude
  | kinded k => some k.magnitude
  | _ => none

/-- The value, unless it holds an integer that cannot be written. -/
def written (a : Operand) : Except Fault Operand :=
  if a.magnitude?.all (·.isWritable) then .ok a else .error (.number .outsideDomain)

/-- A factor with all its parts. -/
def factorDisplay (f : Factor) : String :=
  "Dim(symbol=" ++ Text.quoted f.symbol ++ ", power=" ++ (Magnitude.ratio f.power).display
    ++ ", rank=" ++ toString (f.rank.getD Factor.unranked) ++ ")"

/-- A kind among other values. -/
def kindDisplay (k : Kind) : String := "<class 'dimquant.core.static." ++ k.name ++ "'>"

/-- The value as it stands in a text. -/
def text : Operand → String
  | magnitude m => m.toText
  | quantity q => q.text
  | kinded k => k.text
  | dimension d => d.text
  | factor f => f.text
  | kind k => kindDisplay k
  | foreign name => name

/-- The value as it is displayed among other values. -/
def display : Operand → String
  | magnitude m => m.display
  | quantity q => q.display
  | kinded k => k.display
  | dimension d => d.display
  | factor f => factorDisplay f
  | kind k => kindDisplay k
  | foreign name => name

/-- The value in a field; values that are not numbers take no specification. -/
def inField (a : Operand) (spec : String) : Except Fault String :=
  match a with
  | magnitude m => liftDisplay (m.inField spec)
  | quantity q => q.inField spec
  | kinded k => k.toQuantity.inField spec
  | x => if spec == "" then .ok x.text else .error (.display .noFields)

end UnitCalculus.Operand
