import UnitCalculus.SI

/-! # Temperature scales

Readings on the Celsius and Fahrenheit scales, whose zero is not that of the kelvin.  In a unit
expression the degree Celsius is a difference; absolute readings go through these functions. -/

namespace UnitCalculus.Temperature

/-- The kelvin. -/
def kelvin : Operand :=
  match SI.units.find? "kelvin" with
  | some k => .kinded k
  | none => .quantity .one

/-- The zero of the Celsius scale in kelvins. -/
def zeroCelsius : Operand := .magnitude (.real 273.15)

/-- A floating-point number as an operand. -/
def number (x : Float) : Operand := .magnitude (.real x)

/-- The temperature of a reading in degrees Celsius. -/
def fromCelsius (degrees : Operand) : Interning Operand := do
  Operand.combine .mul (← Operand.combine .add degrees zeroCelsius) kelvin

/-- The temperature of a reading in degrees Fahrenheit. -/
def fromFahrenheit (degrees : Operand) : Interning Operand := do
  let difference ← Operand.combine .sub degrees (number 32.0)
  let scaled ← Operand.combine .mul difference (number 5.0)
  fromCelsius (← Operand.combine .div scaled (number 9.0))

/-- A temperature in degrees Celsius. -/
def toCelsius (t : Operand) : Except Fault Magnitude := do
  Operator.sub.evaluate (← t.inUnitsOf kelvin) (.real 273.15)

/-- A temperature in degrees Fahrenheit. -/
def toFahrenheit (t : Operand) : Except Fault Magnitude := do
  let m ← Operator.mul.evaluate (← toCelsius t) (.real 9.0)
  let m ← Operator.div.evaluate m (.real 5.0)
  Operator.add.evaluate m (.real 32.0)

end UnitCalculus.Temperature
