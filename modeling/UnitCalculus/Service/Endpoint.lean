import UnitCalculus.Analysis
import UnitCalculus.Definitions.Load
import UnitCalculus.Json
import UnitCalculus.Template

/-! # Endpoints

The four questions that the service answers about a table: what a text stands for, which expressions
of a batch can be read, what a quantity is in another unit, and what a definition text defines.  An
endpoint answers, refuses with a reason, or lets a fault of arithmetic escape. -/

namespace UnitCalculus.Service

/-- Why a request is refused. -/
inductive Refusal where
  | expression (f : ExpressionFault)
  | dimension (f : DimensionFault)
  | value (message : String)
  deriving DecidableEq, Repr

/-- The reason as a document. -/
def Refusal.detail : Refusal → Json
  | expression f =>
    .object [("message", .text f.message), ("text", .text f.text),
      ("position", .integer f.position)]
  | dimension f =>
    .object [("message", .text f.reason.text), ("this_dim", .text f.this.text),
      ("other_dim", .text f.other.text)]
  | value message => .object [("message", .text message)]

/-- How an endpoint fails. -/
inductive EndpointFault where
  | refused (r : Refusal)
  | escaped (f : Fault)
  deriving DecidableEq, Repr

/-- The sentence of a fault that lies in a value the caller gave. -/
def valueMessage? : Fault → Option String
  | .value f => some f.message
  | .template f => some f.message
  | .display (.field f) => some f.message
  | _ => none

/-! ### Reading a quantity -/

/-- A quantity as the service shows it. -/
structure QuantityAnswer where
  value : Float
  dimensions : List (String × String)
  dimensionsText : String
  canonical : String

namespace QuantityAnswer

/-- The powers of the base dimensions. -/
def powers (d : Dimension) : List (String × String) :=
  d.factors.map fun f => (f.symbol, Exponent.text f.power)

/-- Whether all powers of the base dimensions can be written. -/
def isWritable (d : Dimension) : Bool := Canonical.isWritable d

/-- A quantity as the service shows it. -/
def ofQuantity (t : UnitTable) (q : Quantity) : Except Fault QuantityAnswer := do
  let value ← liftNumber q.magnitude.toFloat
  if !isWritable q.dimension then throw (.number .outsideDomain)
  return ⟨value, powers q.dimension, q.dimension.text, ← Canonical.text t true q⟩

def toJson (a : QuantityAnswer) : Json :=
  .object [("value", .real a.value), ("dimensions", .textMembers a.dimensions),
    ("dimensions_text", .text a.dimensionsText), ("canonical", .text a.canonical)]

end QuantityAnswer

/-- The quantity that a text stands for. -/
def parse (t : UnitTable) (text : String) : Except EndpointFault QuantityAnswer :=
  match Expression.read t .decimal text with
  | .error (.expression f) => .error (.refused (.expression f))
  | .error f => .error (.escaped f)
  | .ok q =>
    match QuantityAnswer.ofQuantity t q with
    | .ok a => .ok a
    | .error f => .error (.escaped f)

/-! ### Validating expressions -/

/-- A diagnostic as a document. -/
def diagnosticJson (d : Diagnostic) : Json :=
  .object [("name", .text d.name), ("code", .text d.code), ("message", .text d.message),
    ("hint", .text d.hint)]

/-- A batch of expressions as the service shows it. -/
structure ValidationAnswer where
  canonical : List (String × String)
  diagnostics : List Diagnostic

namespace ValidationAnswer

/-- Whether every expression can be read. -/
def ok (a : ValidationAnswer) : Bool := a.diagnostics.isEmpty

def toJson (a : ValidationAnswer) : Json :=
  .object [("ok", .bool a.ok), ("canonical", .textMembers a.canonical),
    ("diagnostics", .list (a.diagnostics.map diagnosticJson))]

end ValidationAnswer

/-- Which expressions of a batch can be read. -/
def validate (t : UnitTable) (es : NamedExpressions) : Except EndpointFault ValidationAnswer :=
  match Analysis.ofExpressions t es with
  | .ok a => .ok ⟨a.canonical, a.diagnostics⟩
  | .error f => .error (.escaped f)

/-! ### Converting a quantity -/

/-- A converted quantity as the service shows it. -/
structure ConversionAnswer where
  value : Float
  target : String
  formatted : String

namespace ConversionAnswer

def toJson (a : ConversionAnswer) : Json :=
  .object [("value", .real a.value), ("target", .text a.target),
    ("formatted", .text a.formatted)]

end ConversionAnswer

/-- The template that shows a value in a field, followed by its unit. -/
def conversionTemplate (spec target : String) : String :=
  "\x7b:" ++ spec ++ "\x7d " ++ target

/-- A text in the unit that a target names: the value, and the value in a field before the unit. -/
def convertText (t : UnitTable) (text target spec : String) : Except Fault (Magnitude × String) := do
  let q ← Expression.read t .decimal text
  let unit ← Expression.readUnit t target
  let m ← q.inUnitsOf unit
  return (m, ← Template.showIn t (conversionTemplate spec target) q.inUnitsOf)

/-- A fault of dimensions names both; if their powers cannot be written, that is the fault. -/
def namedFault : Fault → Fault
  | .dimension f =>
    if QuantityAnswer.isWritable f.this && QuantityAnswer.isWritable f.other then .dimension f
    else .display (.field .digitLimit)
  | f => f

/-- The fault of a conversion as one of the endpoint. -/
def conversionFault (f : Fault) : EndpointFault :=
  match namedFault f with
  | .expression f => .refused (.expression f)
  | .dimension f => .refused (.dimension f)
  | f =>
    match valueMessage? f with
    | some message => .refused (.value message)
    | none => .escaped f

/-- What a quantity is in another unit. -/
def convert (t : UnitTable) (text target : String) (spec : Option String) :
    Except EndpointFault ConversionAnswer :=
  match convertText t text target (spec.getD "") with
  | .error f => .error (conversionFault f)
  | .ok (m, formatted) =>
    match m.toFloat with
    | .ok value => .ok ⟨value, target, formatted⟩
    | .error f => .error (.escaped (.number f))

/-! ### Checking definitions -/

/-- The definitions of a text as the service shows them. -/
structure DefinitionsAnswer where
  ok : Bool
  units : List (String × String)
  factors : List (String × Float)
  warnings : List String
  diagnostics : List Diagnostic

namespace DefinitionsAnswer

def toJson (a : DefinitionsAnswer) : Json :=
  .object [("ok", .bool a.ok), ("units", .textMembers a.units),
    ("prefixes", .object (a.factors.map fun f => (f.1, .real f.2))),
    ("warnings", .texts a.warnings),
    ("diagnostics", .list (a.diagnostics.map diagnosticJson))]

end DefinitionsAnswer

/-- The spelled-out text of a unit of a table. -/
def spelledUnit (t : UnitTable) (symbol : String) : Except Fault String :=
  match t.units.find? symbol with
  | some q => Canonical.text t false q
  | none => .error .unknownName

/-- The answer about definitions that were loaded. -/
def definitionsAnswer (d : Definitions) (t : UnitTable) (r : LoadReport) :
    Except Fault DefinitionsAnswer := do
  let units ← r.units.mapM fun s => do return (s, ← spelledUnit t s)
  return ⟨r.ok, units, d.factors.entries, r.warnings.map (·.text), r.diagnostics⟩

/-- What a definition text defines in a copy of the table, and the log of loading it. -/
def definitions (t : UnitTable) (text : String) :
    Except EndpointFault DefinitionsAnswer × List LogRecord :=
  let d := Definitions.ofText text
  let o := d.loadInto t.copy
  let answer := do definitionsAnswer d o.loading.table (← o.report)
  match answer with
  | .ok a => (.ok a, o.loading.log)
  | .error f => (.error (.escaped f), o.loading.log)

end UnitCalculus.Service
