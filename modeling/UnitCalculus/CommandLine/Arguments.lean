/-! # Arguments

Splitting the arguments of a command into options and positional arguments.  An option starts with a
dash; its value follows it, or stands after an equals sign in the same argument.  Two dashes alone
end the options. -/

namespace UnitCalculus.CommandLine

/-- An option that a command takes. -/
structure OptionSpec where
  name : String
  /-- The name of its value in help texts; none for an option without a value. -/
  value : Option String
  help : String
  deriving DecidableEq, Repr

/-- Why the arguments cannot be split. -/
inductive ArgumentFault where
  | noSuchOption (name : String)
  | needsValue (name : String)
  | takesNoValue (name : String)
  deriving DecidableEq, Repr

/-- The reason in words. -/
def ArgumentFault.message : ArgumentFault → String
  | noSuchOption name => "No such option '" ++ name ++ "'."
  | needsValue name => "Option '" ++ name ++ "' requires an argument."
  | takesNoValue name => "Option '" ++ name ++ "' does not take a value."

/-- Options in the order in which they were given, and the other arguments. -/
structure Arguments where
  options : List (String × String)
  positional : List String
  deriving DecidableEq, Repr

namespace Arguments

/-- The last value of an option. -/
def value? (a : Arguments) (name : String) : Option String :=
  (a.options.reverse.find? (·.1 == name)).map (·.2)

/-- Whether an option was given. -/
def has (a : Arguments) (name : String) : Bool :=
  a.options.any (·.1 == name)

/-- The arguments with one more option in front. -/
def withOption (a : Arguments) (name value : String) : Arguments :=
  { a with options := (name, value) :: a.options }

/-- Whether an argument is an option: a dash with something after it. -/
def isOption (arg : String) : Bool :=
  arg.toList.head? == some '-' && 1 < arg.length

/-- The name of an option and the value after the equals sign. -/
def splitValue (arg : String) : String × Option String :=
  let cs := arg.toList
  let name := cs.takeWhile (· != '=')
  match cs.drop name.length with
  | [] => (arg, none)
  | _ :: v => (String.ofList name, some (String.ofList v))

/-- The name under which an unknown option is reported: of a single dash, only the first letter. -/
def reportedName (arg : String) : String :=
  match arg.toList with
  | '-' :: '-' :: _ => (splitValue arg).1
  | cs => String.ofList (cs.take 2)

/-- Split arguments into options and others; `interspersed` tells whether options may follow other
arguments. -/
def split (specs : List OptionSpec) (interspersed : Bool) :
    List String → Except ArgumentFault Arguments
  | [] => .ok ⟨[], []⟩
  | arg :: rest =>
    if arg == "--" then .ok ⟨[], rest⟩
    else if isOption arg then
      let (name, value) := splitValue arg
      match specs.find? (·.name == name) with
      | none => .error (.noSuchOption (reportedName arg))
      | some spec =>
        match spec.value, value, rest with
        | none, some _, _ => .error (.takesNoValue name)
        | none, none, rest => (·.withOption name "") <$> split specs interspersed rest
        | some _, some v, rest => (·.withOption name v) <$> split specs interspersed rest
        | some _, none, v :: rest => (·.withOption name v) <$> split specs interspersed rest
        | some _, none, [] => .error (.needsValue name)
    else if interspersed then do
      let a ← split specs interspersed rest
      return { a with positional := arg :: a.positional }
    else .ok ⟨[], arg :: rest⟩

end Arguments

end UnitCalculus.CommandLine
