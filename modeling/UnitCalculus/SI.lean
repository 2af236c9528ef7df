import UnitCalculus.Expression

/-! # The international system of units

Seven base dimensions, the kinds that have a name, the units with their symbols, and the factors
from `yotta` to `yocto`.  Units are computed from the base units as kinded quantities, so that
`SI.kinds` also holds the kinds that come up on the way; `SI.table` is the frozen table that
expressions are read against. -/

namespace UnitCalculus.SI

/-! ### Dimensions and kinds -/

/-- The symbols of the base dimensions; a base dimension ranks by its place. -/
def baseSymbols : List String := ["L", "M", "T", "I", "Θ", "N", "J"]

/-- A base dimension. -/
def base (symbol : String) : Dimension :=
  .base symbol ((baseSymbols.findIdx? (· == symbol)).map Int.ofNat)

def length : Dimension := base "L"
def mass : Dimension := base "M"
def time : Dimension := base "T"
def current : Dimension := base "I"
def amount : Dimension := base "N"
def force : Dimension := (mass.mul length).div (time.pow 2)
def energy : Dimension := force.mul length
def power : Dimension := energy.div time
def charge : Dimension := time.mul current
def voltage : Dimension := power.div current
def flux : Dimension := voltage.mul time

/-- The kinds with names of their own, in the order in which they are made. -/
def namedDimensions : List (String × Dimension) := [
  ("Dimensionless", .one),
  ("Length", length),
  ("Mass", mass),
  ("Time", time),
  ("ElectricCurrent", current),
  ("Temperature", base "Θ"),
  ("AmountOfSubstance", amount),
  ("LuminousIntensity", base "J"),
  ("Area", length.pow 2),
  ("Volume", length.pow 3),
  ("Frequency", time.inv),
  ("Speed", length.div time),
  ("Acceleration", length.div (time.pow 2)),
  ("Force", force),
  ("Pressure", force.div (length.pow 2)),
  ("Energy", energy),
  ("Power", power),
  ("Charge", charge),
  ("Voltage", voltage),
  ("Capacitance", charge.div voltage),
  ("Resistance", voltage.div current),
  ("Conductance", current.div voltage),
  ("MagneticFlux", flux),
  ("MagneticFluxDensity", flux.div (length.pow 2)),
  ("Inductance", flux.div current),
  ("Density", mass.div (length.pow 3)),
  ("Concentration", amount.div (length.pow 3)),
  ("MolarMass", mass.div amount)]

/-- The kinds with names of their own. -/
def namedKinds : Kinds :=
  namedDimensions.foldl (fun ks (name, d) => (ks.intern d (some name)).2) .empty

/-! ### Units -/

/-- A base unit: the number one of a base dimension. -/
def baseUnit (symbol : String) : Interning Kinded :=
  Kinded.ofDimension (base symbol) (.ok (.real 1.0))

/-- The product of two units. -/
def product (a b : Kinded) : Interning Kinded := a.withKinded .mul b

/-- The quotient of two units. -/
def quotient (a b : Kinded) : Interning Kinded := a.withKinded .div b

/-- A multiple of a unit. -/
def scaled (m : Magnitude) (a : Kinded) : Interning Kinded := Kinded.numberWith .mul m a

/-- A part of a unit. -/
def dividedBy (a : Kinded) (m : Magnitude) : Interning Kinded := a.withNumber .div m

/-- The reciprocal of a unit. -/
def per (a : Kinded) : Interning Kinded := Kinded.numberWith .div (.integer 1) a

/-- The square of a unit. -/
def squared (a : Kinded) : Interning Kinded :=
  ElementaryFunction.square.onKinded Exponent.defaultPlaces a

/-- The cube of a unit. -/
def cubed (a : Kinded) : Interning Kinded :=
  ElementaryFunction.cubic.onKinded Exponent.defaultPlaces a

/-- The units by their names. -/
def unitsByName : Interning (List (String × Kinded)) := do
  let meter ← baseUnit "L"
  let kilogram ← baseUnit "M"
  let second ← baseUnit "T"
  let ampere ← baseUnit "I"
  let kelvin ← baseUnit "Θ"
  let mole ← baseUnit "N"
  let candela ← baseUnit "J"
  let radian ← quotient meter meter
  let steradian ← quotient (← squared meter) (← squared meter)
  let hertz ← per second
  let newton ← quotient (← product kilogram meter) (← squared second)
  let pascal ← quotient newton (← squared meter)
  let joule ← product newton meter
  let watt ← quotient joule second
  let coulomb ← product second ampere
  let volt ← quotient watt ampere
  let farad ← quotient coulomb volt
  let ohm ← quotient volt ampere
  let siemens ← quotient ampere volt
  let weber ← product volt second
  let tesla ← quotient weber (← squared meter)
  let henry ← quotient weber ampere
  let lumen ← quotient candela steradian
  let lux ← quotient lumen (← squared meter)
  let becquerel ← per second
  let gray ← quotient joule kilogram
  let sievert ← quotient joule kilogram
  let katal ← quotient mole second
  let gram ← scaled (.real 1e-3) kilogram
  let minute ← scaled (.integer 60) second
  let hour ← scaled (.integer 60) minute
  let day ← scaled (.integer 24) hour
  let degree ← scaled (.real (3.141592653589793 / 180.0)) radian
  let arcMinute ← dividedBy degree (.integer 60)
  let arcSecond ← dividedBy arcMinute (.integer 60)
  let hectare ← scaled (.real 1e4) (← squared meter)
  let liter ← scaled (.real 1e-3) (← cubed meter)
  let ton ← scaled (.real 1e3) kilogram
  let electronVolt ← scaled (.real 1.60217653e-19) joule
  let dalton ← scaled (.real 1.66053886e-27) kilogram
  return [
    ("meter", meter), ("metre", meter), ("kilogram", kilogram), ("second", second),
    ("ampere", ampere), ("kelvin", kelvin), ("mole", mole), ("candela", candela),
    ("radian", radian), ("steradian", steradian), ("hertz", hertz), ("newton", newton),
    ("pascal", pascal), ("joule", joule), ("watt", watt), ("coulomb", coulomb), ("volt", volt),
    ("farad", farad), ("ohm", ohm), ("siemens", siemens), ("weber", weber), ("tesla", tesla),
    ("henry", henry), ("celsius", kelvin), ("lumen", lumen), ("lux", lux),
    ("becquerel", becquerel), ("gray", gray), ("sievert", sievert), ("katal", katal),
    ("gram", gram), ("minute", minute), ("hour", hour), ("day", day),
    ("degree_of_angle", degree), ("minute_of_angle", arcMinute), ("second_of_angle", arcSecond),
    ("hectare", hectare), ("liter", liter), ("litre", liter), ("ton", ton),
    ("electron_volt", electronVolt), ("dalton", dalton)]

/-- The units by their names, and the kinds that exist with them. -/
def built : Except Fault (List (String × Kinded)) × Kinds :=
  unitsByName.runWith namedKinds

/-- The kinds that the system makes. -/
def kinds : Kinds := built.2

/-- The units by their names. -/
def units : Catalog Kinded :=
  match built.1 with
  | .ok us => .ofList us
  | .error _ => .empty

/-- The unit of a name as a quantity; the number one for other names. -/
def unit (name : String) : Quantity :=
  match units.find? name with
  | some k => k.toQuantity
  | none => .one

/-- The kind that the system names so; the kind of bare numbers is not one of them. -/
def kind? (name : String) : Option Kind :=
  (namedKinds.all.drop 1).find? (·.name == name)

/-! ### Symbols -/

/-- The symbols of units, with the names of the units. -/
def unitSymbols : List (String × String) := [
  ("m", "meter"), ("kg", "kilogram"), ("s", "second"), ("A", "ampere"), ("K", "kelvin"),
  ("°C", "celsius"), ("mol", "mole"), ("cd", "candela"), ("rad", "radian"), ("sr", "steradian"),
  ("Hz", "hertz"), ("N", "newton"), ("Pa", "pascal"), ("J", "joule"), ("W", "watt"),
  ("C", "coulomb"), ("V", "volt"), ("F", "farad"), ("Ω", "ohm"), ("S", "siemens"),
  ("Wb", "weber"), ("T", "tesla"), ("H", "henry"), ("lm", "lumen"), ("lx", "lux"),
  ("Bq", "becquerel"), ("Gy", "gray"), ("Sv", "sievert"), ("kat", "katal"), ("g", "gram"),
  ("min", "minute"), ("h", "hour"), ("d", "day"), ("l", "liter"), ("L", "liter"), ("t", "ton"),
  ("eV", "electron_volt"), ("Da", "dalton")]

/-- A factor with its name and its symbol. -/
structure NamedFactor where
  name : String
  symbol : String
  value : Float

/-- The factors of the system. -/
def namedFactors : List NamedFactor := [
  ⟨"yotta", "Y", 1e24⟩, ⟨"zetta", "Z", 1e21⟩, ⟨"exa", "E", 1e18⟩, ⟨"peta", "P", 1e15⟩,
  ⟨"tera", "T", 1e12⟩, ⟨"giga", "G", 1e9⟩, ⟨"mega", "M", 1e6⟩, ⟨"kilo", "k", 1e3⟩,
  ⟨"hecto", "h", 1e2⟩, ⟨"deca", "da", 1e1⟩, ⟨"deci", "d", 1e-1⟩, ⟨"centi", "c", 1e-2⟩,
  ⟨"milli", "m", 1e-3⟩, ⟨"micro", "µ", 1e-6⟩, ⟨"nano", "n", 1e-9⟩, ⟨"pico", "p", 1e-12⟩,
  ⟨"femto", "f", 1e-15⟩, ⟨"atto", "a", 1e-18⟩, ⟨"zepto", "z", 1e-21⟩, ⟨"yocto", "y", 1e-24⟩]

/-- Two more symbols of the factor `micro`: the Greek letter and its ASCII form. -/
def otherFactors : List (String × Float) := [("μ", 1e-6), ("u", 1e-6)]

/-- A factor of the system by its name. -/
def factor? (name : String) : Option Magnitude :=
  (namedFactors.find? (·.name == name)).map (.real ·.value)

/-- The units of the system as a table that takes more definitions. -/
def openTable : UnitTable :=
  let t := unitSymbols.foldl (fun t (symbol, name) => t.insertUnit symbol (unit name)) .empty
  let t := namedFactors.foldl (fun t f => t.insertFactor f.symbol (.real f.value)) t
  otherFactors.foldl (fun t (symbol, x) => t.insertFactor symbol (.real x)) t

/-- The units of the system. -/
def table : UnitTable := openTable.freeze

/-- The quantity that a text stands for in the system. -/
def read (text : String) : Except Fault Quantity := Expression.read table .decimal text

end UnitCalculus.SI
