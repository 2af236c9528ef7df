import UnitCalculus.Decimal.Literal
import UnitCalculus.Text.Quoted

/-! # Lines of definition texts

A line `symbol: expression` defines a unit, a line `symbol-: number` a factor.  Blank lines and lines
that start with `#` are skipped; a `#` after the colon starts a comment; commas and semicolons at the
end do not count.  `Line.ofChars` tells what one line says. -/

namespace UnitCalculus.Definitions

open UnitCalculus.Text

/-- Why a line is rejected. -/
inductive LineFault where
  | missingColon (line : String)
  | emptySymbol
  | blankInSymbol (symbol : String)
  | emptyDefinition (symbol : String)
  | notANumber (symbol definition : String)
  deriving DecidableEq, Repr

/-- The reason in words. -/
def LineFault.text : LineFault → String
  | missingColon line => "missing ':', ignored: " ++ quoted line
  | emptySymbol => "empty symbol."
  | blankInSymbol s => "symbol " ++ quoted s ++ " contains whitespace."
  | emptyDefinition s => "empty definition for " ++ quoted s ++ "."
  | notANumber s d => "prefix " ++ quoted s ++ " needs a number, got " ++ quoted d ++ "."

/-- What a line says. -/
inductive Line where
  | skipped
  | unit (symbol definition : String)
  | factor (symbol : String) (value : Float)
  | rejected (fault : LineFault)

namespace Line

/-- The text before the first `#`. -/
def withoutComment (cs : List Char) : List Char :=
  cs.takeWhile (· != '#')

/-- Whether a character does not count at the end of a definition. -/
def isTrailing (c : Char) : Bool :=
  isBlank c || c == ',' || c == ';'

/-- The text without the characters at its end that do not count. -/
def withoutTrailing (cs : List Char) : List Char :=
  (cs.reverse.dropWhile isTrailing).reverse

/-- The definition after the colon. -/
def definitionPart (cs : List Char) : List Char :=
  withoutTrailing (trimBlank (withoutComment cs))

/-- The symbol before the colon, and whether it stands for a factor. -/
def symbolPart (cs : List Char) : List Char × Bool :=
  let name := trimBlank cs
  match name.reverse with
  | '-' :: r => (trimRight r.reverse, true)
  | _ => (name, false)

/-- What a symbol with its definition says. -/
def ofParts (symbol : List Char) (isFactor : Bool) (definition : List Char) : Line :=
  let name := String.ofList symbol
  if symbol.isEmpty then rejected .emptySymbol
  else if symbol.any isBlank then rejected (.blankInSymbol name)
  else if definition.isEmpty then rejected (.emptyDefinition name)
  else if isFactor then
    match Decimal.wholeFloat? definition with
    | some x => factor name x
    | none => rejected (.notANumber name (String.ofList definition))
  else unit name (String.ofList definition)

/-- What a line says. -/
def ofChars (cs : List Char) : Line :=
  let stripped := trimBlank cs
  if stripped.isEmpty || stripped.head? == some '#' then skipped
  else
    match stripped.dropWhile (· != ':') with
    | [] => rejected (.missingColon (String.ofList stripped))
    | _ :: definition =>
      let (symbol, isFactor) := symbolPart (stripped.takeWhile (· != ':'))
      ofParts symbol isFactor (definitionPart definition)

end Line

end UnitCalculus.Definitions
