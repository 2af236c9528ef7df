import UnitCalculus.CommandLine.Command
import UnitCalculus.Service.Endpoint
import UnitCalculus.TableFile

/-! # The command line

The program as a function from its arguments, the environment and the files to what it writes and
how it ends.  It ends with 0 after success, with 2 after a wrong use and with 1 after any other
failure; a fault that the program does not explain is part of the outcome. -/

namespace UnitCalculus.CommandLine

/-- What the program is run with. -/
structure Invocation where
  arguments : List String
  environment : Environment
  files : Files

/-- What the program writes and how it ends. -/
structure Outcome where
  status : Nat
  output : String
  errors : String
  /-- The fault that the program does not explain. -/
  fault : Option Fault

/-! ### Writing -/

/-- How a command ends early. -/
inductive Ending where
  /-- A help text was written. -/
  | finished
  | wrongUse
  | failed
  | escaped (f : Fault)

/-- What was written, and the threshold of the log. -/
structure Console where
  output : String
  errors : String
  threshold : Int

/-- A step of the program. -/
abbrev Step (α : Type) := ExceptT Ending (StateM Console) α

/-- Write to the output. -/
def write (s : String) : Step Unit :=
  modify fun c => { c with output := c.output ++ s }

/-- Write to the error stream. -/
def writeError (s : String) : Step Unit :=
  modify fun c => { c with errors := c.errors ++ s }

/-- Write a line to the output. -/
def writeLine (s : String) : Step Unit := write (s ++ "\n")

/-- Write the records that reach the threshold. -/
def writeLog (records : List LogRecord) : Step Unit :=
  modify fun c =>
    let lines := (records.filter (·.reaches c.threshold)).map fun r => r.line ++ "\n"
    { c with errors := c.errors ++ String.join lines }

/-- End with an explanation. -/
def fail {α : Type} (message : String) : Step α := do
  writeError ("Error: " ++ message ++ "\n")
  throw .failed

/-- End because the command was used in a wrong way. -/
def failUse {α : Type} (c : Command) (message : String) : Step α := do
  writeError (c.usageError message)
  throw .wrongUse

/-! ### Arguments -/

/-- The arguments of a command; a call for help ends it. -/
def arguments (c : Command) (args : List String) : Step Arguments := do
  match Arguments.split c.allOptions c.commands.isEmpty args with
  | .error f => failUse c f.message
  | .ok a =>
    if a.has helpOption.name then
      write c.help
      throw .finished
    return a

/-- The positional arguments, one for each name. -/
def positional (c : Command) : List String → List String → Step (List String)
  | [], _ => return []
  | name :: _, [] => failUse c ("Missing argument '" ++ name ++ "'.")
  | _ :: names, arg :: args => do return arg :: (← positional c names args)

/-- There must be no more arguments than names. -/
def noMore (c : Command) (args : List String) : Step Unit :=
  match args.drop c.arguments.length with
  | [] => return ()
  | [arg] => failUse c ("Got unexpected extra argument (" ++ arg ++ ")")
  | more => failUse c ("Got unexpected extra arguments (" ++ " ".intercalate more ++ ")")

/-- A path that must not be a directory and, if asked for, must exist. -/
def filePath (c : Command) (fs : Files) (mustExist : Bool) (name path : String) : Step String := do
  let wrong := fun reason =>
    failUse c ("Invalid value for '" ++ name ++ "': File " ++ Text.quoted path ++ reason)
  match fs.entry path with
  | .directory => wrong " is a directory."
  | .file _ => return Settings.normalPath path
  | _ => if mustExist then wrong " does not exist." else return Settings.normalPath path

/-! ### Commands -/

/-- A result, or the end of the program by a fault that it does not explain. -/
def orEscape {α : Type} : Except Fault α → Step α
  | .ok a => return a
  | .error f => throw (.escaped f)

/-- The table that a command works with. -/
def table (fs : Files) (path : Option String) : Step UnitTable := do
  let built := TableFile.build fs path
  writeLog built.log
  match built.table with
  | .ok t => return t
  | .error (.file f) => fail ("Cannot read units file: " ++ f.message)
  | .error (.definitions f) => throw (.escaped f)

/-- A quantity as a document, with the text that it was read from. -/
def quantityDocument (text canonical : String) (value : Float) (d : Dimension) : Json :=
  .object [("text", .text text), ("value", .real value),
    ("dimensions", .textMembers (Service.QuantityAnswer.powers d)),
    ("canonical", .text canonical)]

/-- Read a quantity and write its canonical text and its dimension. -/
def runParse (fs : Files) (unitsFile : Option String) (args : List String) : Step Unit := do
  let c := parseCommand
  let a ← arguments c args
  let ps ← positional c c.arguments a.positional
  noMore c a.positional
  let text := ps.headD ""
  let t ← table fs unitsFile
  writeLog (Expression.trace .decimal text)
  match Expression.read t .decimal text with
  | .error (.expression f) => fail f.report
  | .error f => throw (.escaped f)
  | .ok q =>
    if !Service.QuantityAnswer.isWritable q.dimension then throw (.escaped (.number .outsideDomain))
    let canonical ← orEscape (Canonical.text t true q)
    if a.has jsonOption.name then
      let value ← orEscape (liftNumber q.magnitude.toFloat)
      writeLine (quantityDocument text canonical value q.dimension).pretty
    else writeLine (canonical ++ " " ++ q.dimension.text)

/-- A text in the unit that a target names, in a field. -/
def convertedText (t : UnitTable) (text target spec : String) : Except Fault String := do
  let q ← Expression.read t .decimal text
  Template.showIn t (Service.conversionTemplate spec target) q.inUnitsOf

/-- End with what is wrong with a conversion. -/
def failConversion (f : Fault) : Step Unit :=
  match Service.namedFault f with
  | .expression f => fail f.report
  | .dimension f => fail f.message
  | f =>
    match Service.valueMessage? f with
    | some message => fail ("Invalid format: " ++ message)
    | none => throw (.escaped f)

/-- Convert a quantity and write it. -/
def runConvert (fs : Files) (unitsFile : Option String) (args : List String) : Step Unit := do
  let c := convertCommand
  let a ← arguments c args
  let ps ← positional c c.arguments a.positional
  noMore c a.positional
  let text := ps.headD ""
  let t ← table fs unitsFile
  writeLog (Expression.trace .decimal text)
  let spec := (a.value? formatOption.name).getD ""
  match convertedText t text ((ps.drop 1).headD "") spec with
  | .ok s => writeLine s
  | .error f => failConversion f

/-- Write what a definitions file defines. -/
def writeDefinitions (t : UnitTable) (r : LoadReport) : Step Unit := do
  for s in r.factors do
    writeLine ("prefix " ++ s ++ " = " ++ ((t.factors.find? s).getD .absent).toText)
  for s in r.units do
    let unit ← orEscape (Service.spelledUnit t s)
    writeLine ("unit " ++ s ++ " = " ++ unit)
  for w in r.warnings do
    writeError ("warning: " ++ w.text ++ "\n")
  for d in r.diagnostics do
    writeError ("error: " ++ d.name ++ ": " ++ d.message ++ "\n")

/-- Check a definitions file. -/
def runCheck (fs : Files) (args : List String) : Step Unit := do
  let c := checkCommand
  let a ← arguments c args
  let ps ← positional c c.arguments a.positional
  let path ← filePath c fs true "PATH" (ps.headD "")
  noMore c a.positional
  match fs.read path with
  | .error (.file f) => fail f.message
  | .error .undecodable => throw (.escaped .undecodable)
  | .ok text =>
    let o := SI.openTable.load (some text)
    writeLog o.loading.log
    let r ← orEscape o.report
    writeDefinitions o.loading.table r
    if !r.ok then
      fail (path ++ " has " ++ toString (r.warnings.length + r.diagnostics.length)
        ++ " problem(s)")

/-! ### The program -/

/-- The commands by their names. -/
def command? (fs : Files) (unitsFile : Option String) :
    String → Option (List String → Step Unit)
  | "parse" => some (runParse fs unitsFile)
  | "convert" => some (runConvert fs unitsFile)
  | "check" => some (runCheck fs)
  | _ => none

/-- Records that are written before the log is set up show their message alone. -/
def writeEarly (records : List LogRecord) : Step Unit :=
  writeError (String.join (records.map fun r => r.message ++ "\n"))

/-- Run a command with the options of the program. -/
def runCommand (i : Invocation) (a : Arguments) (name : String) (args : List String) :
    Step Unit := do
  let file? ← match a.value? unitsFileOption.name with
    | some path => some <$> filePath mainCommand i.files false "--units-file" path
    | none => pure none
  if (command? i.files none name).isNone then
    failUse mainCommand ("No such command " ++ Text.quoted name ++ ".")
  let (settings, records) := Settings.load i.environment
  writeEarly records
  let level := (Settings.nonEmpty? (a.value? logLevelOption.name)).getD settings.logLevel
  modify fun c => { c with threshold := Settings.threshold level }
  match command? i.files (file?.or settings.unitsFile) name with
  | some run => run args
  | none => return ()

/-- Run the program. -/
def runMain (i : Invocation) : Step Unit := do
  if i.arguments.isEmpty then
    writeError mainCommand.help
    throw .wrongUse
  let a ← arguments mainCommand i.arguments
  match a.positional with
  | [] => failUse mainCommand "Missing command."
  | name :: args => runCommand i a name args

/-- What the program writes and how it ends. -/
def run (i : Invocation) : Outcome :=
  let (ending, c) := (runMain i).run ⟨"", "", LogLevel.warning.number⟩
  match ending with
  | .ok () => ⟨0, c.output, c.errors, none⟩
  | .error .finished => ⟨0, c.output, c.errors, none⟩
  | .error .wrongUse => ⟨2, c.output, c.errors, none⟩
  | .error .failed => ⟨1, c.output, c.errors, none⟩
  | .error (.escaped f) => ⟨1, c.output, c.errors, some f⟩

end UnitCalculus.CommandLine
