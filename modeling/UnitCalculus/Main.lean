import UnitCalculus.CommandLine

/-! # The program

The outer layer of the command line: it looks at the files that the arguments and the environment
name, runs the command, writes what the command writes and ends as it ends. -/

namespace UnitCalculus.CommandLine

/-- The variables of the environment that are set. -/
def readEnvironment : IO Environment := do
  let names :=
    [Settings.logLevelVariable, Settings.placesVariable, Settings.unitsFileVariable]
  names.filterMapM fun name => do return (← IO.getEnv name).map fun value => (name, value)

/-- The path and the directories on the way to it. -/
def pathPrefixes (path : String) : List String :=
  let cs := path.toList
  let ends := (List.range cs.length).filter fun i => cs[i]? == some '/'
  ends.map (fun i => String.ofList (cs.take i)) ++ [path]

/-- What is at a path: a file, or a directory, which is shown by an entry of it. -/
def probe (path : String) : IO Files := do
  try
    return [(path, ← IO.FS.readBinFile path)]
  catch e =>
    match e with
    | .inappropriateType none .. => return [(path ++ "/.directory", .empty)]
    | _ => return []

/-- The files that may be needed: those that an argument or the environment names. -/
def readFiles (args : List String) (env : Environment) : IO Files := do
  let named := args ++ args.filterMap (fun a => (Arguments.splitValue a).2) ++ env.map (·.2)
  let paths := ((named.flatMap pathPrefixes).filter (· != "")).eraseDups
  return (← paths.mapM probe).flatten

/-- Run a command with what is around it. -/
def runMainProgram (args : List String) : IO UInt32 := do
  let environment ← readEnvironment
  let files ← readFiles args environment
  let outcome := run ⟨args, environment, files⟩
  IO.print outcome.output
  IO.eprint outcome.errors
  match outcome.fault with
  | none => pure ()
  | some f => IO.eprintln ("Error: " ++ f.message?.getD "there is no result")
  return UInt32.ofNat outcome.status

end UnitCalculus.CommandLine

def main (args : List String) : IO UInt32 :=
  UnitCalculus.CommandLine.runMainProgram args
