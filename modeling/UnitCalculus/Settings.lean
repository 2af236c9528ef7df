import UnitCalculus.Decimal.Literal
import UnitCalculus.LogRecord
import UnitCalculus.Text.Quoted
import UnitCalculus.Text.Upper

/-! # Settings

The settings come from variables of the environment.  A number of decimal places that is no integer,
or is negative, is ignored with a warning; blank values count as missing. -/

namespace UnitCalculus

open UnitCalculus.Text

/-- The variables of the environment. -/
abbrev Environment := List (String × String)

/-- The value of a variable. -/
def Environment.get? (env : Environment) (name : String) : Option String :=
  (List.find? (·.1 == name) env).map (·.2)

/-- What the environment decides. -/
structure Settings where
  logLevel : String
  /-- The decimal places of floating-point exponents. -/
  places : Nat
  unitsFile : Option String
  deriving DecidableEq, Repr

namespace Settings

/-- The variables that are read. -/
def logLevelVariable : String := "DIMQUANT_LOG_LEVEL"
def placesVariable : String := "DIMQUANT_FLOAT_PRECISION"
def unitsFileVariable : String := "DIMQUANT_UNITS_FILE"

/-- The log level when none is set. -/
def defaultLogLevel : String := "WARNING"

/-- The decimal places when none are set. -/
def defaultPlaces : Nat := 6

/-- Why a number of places is ignored. -/
inductive PlacesFault where
  | notAnInteger
  | negative
  deriving DecidableEq, Repr

/-- The reason in words. -/
def PlacesFault.text : PlacesFault → String
  | notAnInteger => "not an integer"
  | negative => "must not be negative"

/-- The record of an ignored number of places. -/
def PlacesFault.record (f : PlacesFault) (raw : String) : LogRecord :=
  ⟨.warning, .settings, "Ignoring " ++ placesVariable ++ "=" ++ quoted raw ++ ": " ++ f.text
    ++ ", using " ++ toString defaultPlaces⟩

/-- The number of places that a text holds. -/
def readPlaces (raw : String) : Except PlacesFault Nat :=
  match Decimal.wholeInteger? raw.toList with
  | none => .error .notAnInteger
  | some (.ofNat n) => .ok n
  | some (.negSucc _) => .error .negative

/-- The number of places, and what there is to say about it. -/
def places? (raw : Option String) : Nat × List LogRecord :=
  match raw with
  | none => (defaultPlaces, [])
  | some raw =>
    if raw.toList.all isBlank then (defaultPlaces, [])
    else
      match readPlaces raw with
      | .ok n => (n, [])
      | .error f => (defaultPlaces, [f.record raw])

/-! ### Paths -/

/-- The parts of a path between the slashes, without those that name the same directory. -/
def pathParts (cs : List Char) : List (List Char) :=
  (cs.splitOn '/').filter fun p => !p.isEmpty && p != ['.']

/-- The slashes that start an absolute path: two stay two, more are one. -/
def pathRoot (cs : List Char) : List Char :=
  match cs with
  | '/' :: '/' :: '/' :: _ => ['/']
  | '/' :: '/' :: _ => ['/', '/']
  | '/' :: _ => ['/']
  | _ => []

/-- A path in its normal form: single slashes, no `.` parts, and no slash at the end. -/
def normalPath (path : String) : String :=
  let cs := path.toList
  let body := pathRoot cs ++ ['/'].intercalate (pathParts cs)
  if body.isEmpty then "." else String.ofList body

/-! ### Reading the environment -/

/-- The value of a variable unless it is empty. -/
def nonEmpty? (value : Option String) : Option String :=
  value.filter (· != "")

/-- The settings of an environment, and what there is to say about them. -/
def load (env : Environment) : Settings × List LogRecord :=
  let (places, records) := places? (env.get? placesVariable)
  ({ logLevel := upper ((nonEmpty? (env.get? logLevelVariable)).getD defaultLogLevel)
     places
     unitsFile := (nonEmpty? (env.get? unitsFileVariable)).map normalPath }, records)

/-! ### Thresholds -/

/-- The threshold of a named level; unknown names warn. -/
def threshold (level : String) : Int :=
  match upper level with
  | "CRITICAL" => 50
  | "FATAL" => 50
  | "ERROR" => 40
  | "WARN" => 30
  | "WARNING" => 30
  | "INFO" => 20
  | "DEBUG" => 10
  | "NOTSET" => 0
  | _ => 30

end Settings

end UnitCalculus
