import UnitCalculus.RunScope
import UnitCalculus.Service.Endpoint
import UnitCalculus.Service.Request
import UnitCalculus.TableFile

/-! # The service

The endpoints behind their paths.  The table is built when the service starts or, if it was not
started, for the first request that needs it; no request changes it.  Every response carries the
identifier of its run: the one that the request gives, or a new one. -/

namespace UnitCalculus.Service

/-! ### State -/

/-- Where the service runs. -/
structure Deployment where
  environment : Environment
  files : Files

/-- What the service keeps between requests. -/
structure State where
  table : Option UnitTable
  /-- Records below this threshold are dropped. -/
  threshold : Int

/-- The state before anything was asked. -/
def State.initial : State := ⟨none, LogLevel.warning.number⟩

/-- A fault that the service does not answer. -/
inductive ServiceFault where
  | file (f : FileFault)
  | fault (f : Fault)

/-- The fault of a table as one of the service. -/
def ServiceFault.ofTable : TableFault → ServiceFault
  | .file f => .file f
  | .definitions f => .fault f

/-- A step of the service, which changes the state and leaves records. -/
abbrev Step (α : Type) := ExceptT ServiceFault (StateM (State × List LogRecord)) α

/-- Leave records, those below the threshold excepted. -/
def leave (records : List LogRecord) : Step Unit :=
  modify fun (s, log) => (s, log ++ records.filter (·.reaches s.threshold))

/-- Keep a table. -/
def keep (t : UnitTable) : Step Unit :=
  modify fun (s, log) => ({ s with table := some t }, log)

/-- The table, built when it is needed first. -/
def table (d : Deployment) : Step UnitTable := do
  match (← get).1.table with
  | some t => return t
  | none =>
    let (settings, records) := Settings.load d.environment
    leave records
    let built := TableFile.build d.files settings.unitsFile
    leave built.log
    match built.table with
    | .ok t =>
      keep t
      return t
    | .error f => throw (.ofTable f)

/-- The record of a file of units that cannot be read. -/
def unreadableFile (path : Option String) : LogRecord :=
  ⟨.error, .service, "Cannot read units file " ++ path.getD "None" ++ "; serving SI units only"⟩

/-- Start the service: take the threshold from the settings and build the table; a file that cannot
be read is left out. -/
def start (d : Deployment) : Step Unit := do
  let (settings, records) := Settings.load d.environment
  leave records
  modify fun (s, log) => ({ s with threshold := Settings.threshold settings.logLevel }, log)
  let built := TableFile.build d.files settings.unitsFile
  leave built.log
  match built.table with
  | .ok t => keep t
  | .error (.file _) =>
    leave [unreadableFile settings.unitsFile]
    keep SI.table
  | .error f => throw (.ofTable f)

/-! ### Responses -/

/-- A status with a document. -/
structure Answer where
  status : Nat
  body : Json

/-- A response. -/
structure Response where
  answer : Answer
  run : RunName
  /-- Whether the response may be read from any origin, which is said if an origin is given. -/
  anyOrigin : Bool

namespace Answer

/-- A successful answer; numbers without a value are null. -/
def success (j : Json) : Answer := ⟨200, j.finite⟩

/-- A refusal. -/
def refusal (detail : Json) : Answer := ⟨422, .object [("detail", detail)]⟩

def notFound : Answer := ⟨404, .object [("detail", .text "Not Found")]⟩

def methodNotAllowed : Answer := ⟨405, .object [("detail", .text "Method Not Allowed")]⟩

/-- The answer of an endpoint. -/
def ofEndpoint {α : Type} (toJson : α → Json) : Except EndpointFault α → Step Answer
  | .ok a => return success (toJson a)
  | .error (.refused r) => return refusal r.detail
  | .error (.escaped f) => throw (.fault f)

end Answer

/-! ### Routes -/

/-- What a path stands for. -/
inductive Route where
  | health
  | parse
  | validate
  | convert
  | definitions
  deriving DecidableEq, Repr

namespace Route

/-- The route of a path. -/
def ofPath? : String → Option Route
  | "/health" => some health
  | "/v1/units/parse" => some parse
  | "/v1/units/validate" => some validate
  | "/v1/units/convert" => some convert
  | "/v1/units/definitions" => some definitions
  | _ => none

/-- The route of a path, which may end in slashes. -/
def find? (path : String) : Option Route :=
  match ofPath? path with
  | some r => some r
  | none =>
    let cs := path.toList
    if cs.getLast? == some '/' then
      ofPath? (String.ofList (cs.reverse.dropWhile (· == '/')).reverse)
    else none

/-- The method that a route takes. -/
def method : Route → String
  | health => "GET"
  | _ => "POST"

end Route

/-- The version of the library. -/
def version : String := "0.1.0"

/-- The answer about the state of the service. -/
def healthAnswer (d : Deployment) (t : UnitTable) : Answer :=
  .success (.object [("ok", .bool true), ("status", .text "ok"), ("version", .text version),
    ("git_sha", match d.environment.get? "GIT_COMMIT" with
      | some s => .text s
      | none => .null),
    ("units", .integer t.units.size), ("prefixes", .integer t.factors.size)])

/-- The issues with a body as an answer. -/
def issuesAnswer (is : List Issue) : Answer := .refusal (.list (is.map Issue.toJson))

/-- Named texts as a batch of expressions. -/
def batch (es : List (String × String)) : NamedExpressions :=
  .ofList (es.map fun e => (e.1, some e.2))

/-- The answer of an endpoint to the members of a body. -/
def answerMembers (t : UnitTable) (route : Route) (ms : List (String × Json)) : Step Answer :=
  match route with
  | .health => return .notFound
  | .parse =>
    match Body.text ms "text" with
    | .ok text => Answer.ofEndpoint QuantityAnswer.toJson (parse t text)
    | .error is => return issuesAnswer is
  | .validate =>
    match Body.texts ms "expressions" with
    | .ok es => Answer.ofEndpoint ValidationAnswer.toJson (validate t (batch es))
    | .error is => return issuesAnswer is
  | .convert =>
    match Body.both (Body.text ms "text")
        (Body.both (Body.text ms "target") (Body.text? ms "format")) with
    | .ok (text, target, spec) =>
      Answer.ofEndpoint ConversionAnswer.toJson (convert t text target spec)
    | .error is => return issuesAnswer is
  | .definitions =>
    match Body.textOr ms "text" "" with
    | .ok text => do
      let (answer, log) := definitions t text
      leave log
      Answer.ofEndpoint DefinitionsAnswer.toJson answer
    | .error is => return issuesAnswer is

/-- The answer of a route. -/
def answerRoute (d : Deployment) (r : Request) (route : Route) : Step Answer := do
  if r.method != route.method then return .methodNotAllowed
  let t ← table d
  match route with
  | .health => return healthAnswer d t
  | _ =>
    match Body.members r.body with
    | .ok ms => answerMembers t route ms
    | .error is => return issuesAnswer is

/-- The answer to a request. -/
def answer (d : Deployment) (r : Request) : Step Answer :=
  match Route.find? r.route with
  | some route => answerRoute d r route
  | none => return .notFound

/-- The run that a request belongs to. -/
def runOf (r : Request) : RunName :=
  match r.header? "X-Run-ID" with
  | some name => if name == "" then .generated else .given name
  | none => .generated

/-- The response to a request. -/
def respond (d : Deployment) (r : Request) : Step Response := do
  return ⟨← answer d r, runOf r, (r.header? "Origin").isSome⟩

/-! ### Runs of the service -/

/-- Requests one after the other: the response or the fault of each. -/
def respondAll (d : Deployment) (s : State × List LogRecord) :
    List Request → List (Except ServiceFault Response) × (State × List LogRecord)
  | [] => ([], s)
  | r :: rs =>
    let (result, s) := (respond d r).run s
    let (results, s) := respondAll d s rs
    (result :: results, s)

/-- What a run of the service gives: its responses and its log, or the fault that kept it from
starting. -/
def serve (d : Deployment) (started : Bool) (rs : List Request) :
    Except ServiceFault (List (Except ServiceFault Response) × List LogRecord) :=
  let (begun, s) := if started then (start d).run (.initial, []) else (.ok (), (.initial, []))
  match begun with
  | .error f => .error f
  | .ok () =>
    let (results, s) := respondAll d s rs
    .ok (results, s.2)

end UnitCalculus.Service
