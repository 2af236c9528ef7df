import UnitCalculus.UnitTable

/-! # Canonical text

A quantity is written so that it can be read back: its magnitude, and either the unit of magnitude
one that has its dimension, or the product of powers of base units.  A dimension without such a base
unit is written by its own symbol.  Numbers and powers with too many digits have no text. -/

namespace UnitCalculus.Canonical

/-- The largest whole number that is written without an exponent. -/
def wholeBound : Float := 1e16

/-- A floating-point number; whole ones that are not too large are written as integers. -/
def floatText (x : Float) : String :=
  if Decimal.isInteger x && x.abs < wholeBound then
    toString ((Decimal.truncate? x).getD 0)
  else Decimal.floatText x

/-- The text of a magnitude. -/
def magnitudeText : Magnitude → String
  | .real x => floatText x
  | .unchecked x => floatText x
  | m => m.toText

/-- Whether a magnitude is the number one. -/
def isUnity (m : Magnitude) : Except Fault Bool := do
  liftNumber (← liftNumber (m.relate .eq (.integer 1))).truthy

/-- Whether a magnitude differs from the number one. -/
def isNotUnity (m : Magnitude) : Except Fault Bool := do
  liftNumber (← liftNumber (m.relate .ne (.integer 1))).truthy

/-- The symbol of the dimension that a unit is the base unit of. -/
def baseSymbol? (q : Quantity) : Except Fault (Option String) :=
  match q.dimension.factors with
  | [f] =>
    if f.power != 1 then .ok none
    else do
      if ← isNotUnity q.magnitude then return none
      return some f.symbol
  | _ => .ok none

/-- Enter a base unit unless there is one for its dimension. -/
def addBase (c : Catalog String) (dimension unit : String) : Catalog String :=
  if c.contains dimension then c else c.insert dimension unit

/-- The first base unit of every base dimension. -/
def baseUnits (t : UnitTable) : Except Fault (Catalog String) :=
  t.units.entries.foldlM (fun c (symbol, q) => do
    match ← baseSymbol? q with
    | some d => return addBase c d symbol
    | none => return c) .empty

/-- A power of a base unit. -/
def factorText (bases : Catalog String) (f : Factor) : String :=
  let name := (bases.find? f.symbol).getD f.symbol
  if f.power == 1 then name else name ++ "^" ++ Exponent.text f.power

/-- Whether all powers of a dimension can be written. -/
def isWritable (d : Dimension) : Bool :=
  d.factors.all fun f => Exponent.isWritable f.power

/-- A dimension as a product of powers of base units, unless a power cannot be written. -/
def unitText (t : UnitTable) (d : Dimension) : Except Fault String := do
  let bases ← baseUnits t
  if !isWritable d then throw (.number .outsideDomain)
  return " ".intercalate (d.factors.map (factorText bases))

/-- The first of some units that has magnitude one and the given dimension. -/
def named? (d : Dimension) : List (String × Quantity) → Except Fault (Option String)
  | [] => .ok none
  | (symbol, q) :: r => do
    if (← isUnity q.magnitude) && q.dimension.same d then return some symbol
    named? d r

/-- The canonical text of a quantity; `preferNamed` asks for a unit of its dimension. -/
def text (t : UnitTable) (preferNamed : Bool) (q : Quantity) : Except Fault String := do
  if !q.magnitude.isWritable then throw (.number .outsideDomain)
  let value := magnitudeText q.magnitude
  if q.isBare then return value
  let symbol? ← if preferNamed then named? q.dimension t.units.entries else pure none
  match symbol? with
  | some symbol => return value ++ " " ++ symbol
  | none => return value ++ " " ++ (← unitText t q.dimension)

end UnitCalculus.Canonical
