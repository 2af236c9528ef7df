import UnitCalculus.CommandLine.Arguments
import UnitCalculus.Text.Quoted

/-! # Commands

The commands of the program with their options and arguments, their usage lines and help texts, and
what there is to say when they are used in a wrong way. -/

namespace UnitCalculus.CommandLine

/-- A command. -/
structure Command where
  /-- The words that call it. -/
  path : String
  summary : String
  options : List OptionSpec
  /-- The names of its positional arguments. -/
  arguments : List String
  /-- The commands below it, with their summaries. -/
  commands : List (String × String)
  deriving DecidableEq, Repr

/-- The option that asks for the help text. -/
def helpOption : OptionSpec := ⟨"--help", none, "Show this message and exit."⟩

namespace Command

/-- Text filled up with blanks to a width. -/
def padded (width : Nat) (s : String) : String :=
  s ++ String.ofList (List.replicate (width - s.length) ' ')

/-- A list of terms with explanations beside them. -/
def definitionList (rows : List (String × String)) : String :=
  let width := rows.foldl (fun w r => max w r.1.length) 0 + 2
  String.join (rows.map fun r => "  " ++ padded width r.1 ++ r.2 ++ "\n")

/-- All options of a command. -/
def allOptions (c : Command) : List OptionSpec := c.options ++ [helpOption]

/-- The pattern of the arguments. -/
def usagePattern (c : Command) : String :=
  let rest := if c.commands.isEmpty then c.arguments else ["COMMAND", "[ARGS]..."]
  " ".intercalate (c.path :: "[OPTIONS]" :: rest)

/-- The usage line. -/
def usage (c : Command) : String := "Usage: " ++ c.usagePattern ++ "\n"

/-- An option with its value, and its explanation. -/
def optionRow (o : OptionSpec) : String × String :=
  match o.value with
  | some v => (o.name ++ " " ++ v, o.help)
  | none => (o.name, o.help)

/-- The help text. -/
def help (c : Command) : String :=
  c.usage ++ "\n  " ++ c.summary ++ "\n\nOptions:\n"
    ++ definitionList (c.allOptions.map optionRow)
    ++ (if c.commands.isEmpty then "" else "\nCommands:\n" ++ definitionList c.commands)

/-- The message about a wrong use. -/
def usageError (c : Command) (message : String) : String :=
  c.usage ++ "Try '" ++ c.path ++ " --help' for help.\n\nError: " ++ message ++ "\n"

end Command

/-! ### The commands of the program -/

def unitsFileOption : OptionSpec :=
  ⟨"--units-file", some "FILE", "Definitions file loaded on top of the SI units."⟩

def logLevelOption : OptionSpec := ⟨"--log-level", some "TEXT", "Logging level, e.g. DEBUG."⟩

def jsonOption : OptionSpec := ⟨"--json", none, "Emit structured JSON."⟩

def formatOption : OptionSpec :=
  ⟨"--format", some "TEXT", "Format spec for the value, e.g. .2f  [default: \"\"]"⟩

/-- The command that reads a quantity. -/
def parseCommand : Command :=
  ⟨"dimquant parse", "Parse TEXT and print its canonical form and dimensions.", [jsonOption],
    ["TEXT"], []⟩

/-- The command that converts a quantity. -/
def convertCommand : Command :=
  ⟨"dimquant convert", "Express TEXT in the unit TARGET.", [formatOption], ["TEXT", "TARGET"], []⟩

/-- The command that checks a definitions file. -/
def checkCommand : Command :=
  ⟨"dimquant check", "Check a definitions file against the SI units.", [], ["PATH"], []⟩

/-- The program. -/
def mainCommand : Command :=
  ⟨"dimquant", "Parse, convert and check unit expressions.", [unitsFileOption, logLevelOption], [],
    [("check", checkCommand.summary), ("convert", convertCommand.summary),
      ("parse", parseCommand.summary)]⟩

end UnitCalculus.CommandLine
