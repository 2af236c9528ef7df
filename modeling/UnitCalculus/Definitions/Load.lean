import UnitCalculus.Definitions
import UnitCalculus.Diagnostic
import UnitCalculus.Expression.Trace

/-! # Loading definitions into a table

The factors come first, then the units in their order, so that a unit may refer to those before it.
A unit whose expression cannot be read is left out with a diagnostic; any other fault ends the load,
and what was defined until then stays. -/

namespace UnitCalculus

/-- What a load defined and what it rejected. -/
structure LoadReport where
  units : List String
  factors : List String
  warnings : List Definitions.Warning
  diagnostics : List Diagnostic

namespace LoadReport

/-- Whether nothing was rejected. -/
def ok (r : LoadReport) : Bool := r.warnings.isEmpty && r.diagnostics.isEmpty

end LoadReport

/-- A load on its way: the table so far, the report so far, and the log. -/
structure Loading where
  table : UnitTable
  report : LoadReport
  log : List LogRecord

/-- How a load ends: the loading as far as it came, and the fault that ended it early. -/
structure LoadOutcome where
  loading : Loading
  fault : Option Fault

namespace LoadOutcome

/-- The report of a load that came to its end. -/
def report (o : LoadOutcome) : Except Fault LoadReport :=
  match o.fault with
  | none => .ok o.loading.report
  | some f => .error f

/-- Go on with a load unless it ended early. -/
def andThen (o : LoadOutcome) (next : Loading → LoadOutcome) : LoadOutcome :=
  match o.fault with
  | none => next o.loading
  | some _ => o

end LoadOutcome

namespace Loading

/-- The loading with more records in its log. -/
def logged (l : Loading) (records : List LogRecord) : Loading :=
  { l with log := l.log ++ records }

/-- A record of a load. -/
def record (level : LogLevel) (message : String) : LogRecord := ⟨level, .definitions, message⟩

/-- A load of some definitions before anything is defined. -/
def start (table : UnitTable) (d : Definitions) : Loading :=
  ⟨table, ⟨[], [], d.warnings, []⟩,
    d.warnings.map fun w => record .warning ("Ignoring definition line: " ++ w.text)⟩

/-- The loading with the changed table and report, or as it was with the fault. -/
def advance (l : Loading) (table : Except Fault UnitTable) (report : LoadReport) : LoadOutcome :=
  match table with
  | .ok table => ⟨{ l with table, report }, none⟩
  | .error f => ⟨l, some f⟩

/-- Define a factor. -/
def addFactor (l : Loading) (symbol : String) (value : Float) : LoadOutcome :=
  l.advance (l.table.addFactor symbol (.magnitude (.real value)))
    { l.report with factors := l.report.factors ++ [symbol] }

/-- Leave a unit out, with a diagnostic and a record. -/
def reject (l : Loading) (symbol definition : String) (f : ExpressionFault) : Loading :=
  { l.logged [record .warning ("Cannot define unit " ++ Text.quoted symbol ++ " from "
      ++ Text.quoted definition ++ ": " ++ f.message)] with
    report := { l.report with
      diagnostics := l.report.diagnostics ++ [⟨symbol, .undefinable f⟩] } }

/-- Define a unit by an expression, which is read against the table so far. -/
def addUnit (l : Loading) (symbol definition : String) : LoadOutcome :=
  let l := l.logged (Expression.trace .decimal definition)
  match Expression.read l.table .decimal definition with
  | .error (.expression f) => ⟨l.reject symbol definition f, none⟩
  | .error f => ⟨l, some f⟩
  | .ok q =>
    l.advance (l.table.addUnit symbol (.quantity q))
      { l.report with units := l.report.units ++ [symbol] }

/-- Take a step for each entry until one fails. -/
def runSteps {α : Type} (step : Loading → α → LoadOutcome) (l : Loading) : List α → LoadOutcome
  | [] => ⟨l, none⟩
  | a :: r => (step l a).andThen fun l => runSteps step l r

/-- The load with its last record. -/
def finish (l : Loading) : Loading :=
  l.logged [record .debug ("Loaded " ++ toString l.report.units.length ++ " units and "
    ++ toString l.report.factors.length ++ " prefixes")]

end Loading

namespace Definitions

/-- Load definitions into a table. -/
def loadInto (d : Definitions) (table : UnitTable) : LoadOutcome :=
  let o := Loading.runSteps (fun l e => l.addFactor e.1 e.2) (.start table d) d.factors.entries
  let o := o.andThen fun l => Loading.runSteps (fun l e => l.addUnit e.1 e.2) l d.units.entries
  o.andThen fun l => ⟨l.finish, none⟩

end Definitions

namespace UnitTable

/-- The table with the definitions of a text loaded into it; no text defines nothing. -/
def load (t : UnitTable) (text : Option String) : LoadOutcome :=
  (Definitions.ofText (text.getD "")).loadInto t

end UnitTable

end UnitCalculus
