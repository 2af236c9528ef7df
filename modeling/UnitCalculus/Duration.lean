import UnitCalculus.SI

/-! # Durations

A duration is a whole number of microseconds, written as days, seconds and microseconds, and at most
a billion days long.  As a quantity it is a number of seconds; the way back rounds to the nearest
microsecond, a tie going to the even one. -/

namespace UnitCalculus

/-- A whole number of microseconds. -/
structure Duration where
  microseconds : Int
  deriving DecidableEq, Repr

namespace Duration

/-- The microseconds of a second. -/
def perSecond : Int := 1000000

/-- The microseconds of a day. -/
def perDay : Int := 86400 * perSecond

/-- The days that a duration may have, in either direction. -/
def maxDays : Int := 999999999

/-- Whole days. -/
def days (d : Duration) : Int := d.microseconds.fdiv perDay

/-- Whole seconds beyond the days. -/
def seconds (d : Duration) : Int := (d.microseconds.fmod perDay).fdiv perSecond

/-- Microseconds beyond the seconds. -/
def rest (d : Duration) : Int := d.microseconds.fmod perSecond

/-- A number of microseconds as a duration, unless it is too long. -/
def ofMicroseconds (n : Int) : Except Fault Duration :=
  let d : Duration := ⟨n⟩
  if -maxDays ≤ d.days && d.days ≤ maxDays then .ok d else .error (.number .overflow)

/-- Days, seconds and microseconds as a duration. -/
def ofParts (days seconds microseconds : Int) : Except Fault Duration :=
  ofMicroseconds (days * perDay + seconds * perSecond + microseconds)

/-- The second. -/
def second : Operand :=
  match SI.units.find? "second" with
  | some k => .kinded k
  | none => .quantity .one

/-- A duration as a quantity. -/
def toQuantity (d : Duration) : Interning Operand := do
  let total ← .lift (liftNumber ((Magnitude.integer d.microseconds).div (.integer perSecond)))
  Operand.combine .mul (.magnitude total) second

/-- The microseconds of a number of seconds: whole seconds are exact, the fraction is rounded. -/
def roundSeconds (x : Float) : Except Fault Int := do
  let whole ← liftNumber (Magnitude.integerPart x)
  let wholeFloat ← liftNumber (Magnitude.floatOfInt whole)
  let fraction := (x - wholeFloat) * 1000000.0
  let part ← liftNumber (Magnitude.integerPart fraction)
  let partFloat ← liftNumber (Magnitude.floatOfInt part)
  let left := fraction - partFloat
  let n := whole * perSecond + part
  let away := if left < 0.0 then -1 else 1
  let up := left.abs > 0.5 || (left.abs == 0.5 && n % 2 != 0)
  return if up then n + away else n

/-- A quantity as a duration. -/
def ofQuantity (a : Operand) : Except Fault Duration := do
  let m ← a.inUnitsOf second
  ofMicroseconds (← roundSeconds (← liftNumber m.toFloat))

end Duration

end UnitCalculus
