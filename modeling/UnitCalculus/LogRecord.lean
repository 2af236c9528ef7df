/-! # Log records

What the library has to say about its work, with a level and the part of the library that says it. -/

namespace UnitCalculus

/-- How serious a record is. -/
inductive LogLevel where
  | debug
  | info
  | warning
  | error
  deriving DecidableEq, Repr

namespace LogLevel

/-- The name of the level. -/
def name : LogLevel → String
  | debug => "DEBUG"
  | info => "INFO"
  | warning => "WARNING"
  | error => "ERROR"

/-- The number of the level, with which thresholds are compared. -/
def number : LogLevel → Int
  | debug => 10
  | info => 20
  | warning => 30
  | error => 40

end LogLevel

/-- The parts of the library that keep a log. -/
inductive LogSource where
  | settings
  | table
  | expressions
  | definitions
  | service
  deriving DecidableEq, Repr

/-- The name of the log that a part of the library keeps. -/
def LogSource.name : LogSource → String
  | settings => "dimquant.config"
  | table => "dimquant.units.symbols"
  | expressions => "dimquant.units.parser"
  | definitions => "dimquant.units.loader"
  | service => "dimquant.api.app"

/-- One entry of a log. -/
structure LogRecord where
  level : LogLevel
  source : LogSource
  message : String
  deriving DecidableEq, Repr

namespace LogRecord

/-- The record in one line: level, log and message. -/
def summary (r : LogRecord) : String :=
  r.level.name ++ " " ++ r.source.name ++ ": " ++ r.message

/-- The record as it is written to the error stream. -/
def line (r : LogRecord) : String :=
  "[" ++ r.level.name ++ "] " ++ r.source.name ++ ": " ++ r.message

/-- Whether the record is at least as serious as a threshold. -/
def reaches (threshold : Int) (r : LogRecord) : Bool :=
  threshold ≤ r.level.number

end LogRecord

end UnitCalculus
