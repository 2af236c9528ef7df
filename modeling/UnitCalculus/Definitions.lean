import UnitCalculus.Catalog
import UnitCalculus.Definitions.Line

/-! # Definition texts

A text of several lines that defines units and factors.  Lines are counted as they come, those
without any character left out; a later definition of a symbol replaces an earlier one and keeps its
place.  `Definitions.ofText` collects what the lines say, with a warning for every rejected line. -/

namespace UnitCalculus

namespace Definitions

/-- A rejected line with its number. -/
structure Warning where
  number : Nat
  fault : LineFault
  deriving DecidableEq, Repr

/-- The warning in words. -/
def Warning.text (w : Warning) : String :=
  "Line " ++ toString w.number ++ ": " ++ w.fault.text

/-- Whether a character ends a line. -/
def isBreak (c : Char) : Bool := c == '\r' || c == '\n'

/-- The lines of a text that hold a character. -/
def lines (cs : List Char) : List (List Char) :=
  (cs.splitOnP isBreak).filter (!·.isEmpty)

end Definitions

/-- What the lines of a text define. -/
structure Definitions where
  units : Catalog String
  factors : Catalog Float
  warnings : List Definitions.Warning

namespace Definitions

/-- No definitions. -/
def empty : Definitions := ⟨.empty, .empty, []⟩

/-- The definitions with those of one more line. -/
def addLine (d : Definitions) (number : Nat) : Line → Definitions
  | .skipped => d
  | .unit symbol definition => { d with units := d.units.insert symbol definition }
  | .factor symbol value => { d with factors := d.factors.insert symbol value }
  | .rejected fault => { d with warnings := d.warnings ++ [⟨number, fault⟩] }

/-- The definitions with those of the lines that follow, counted from `number`. -/
def addLines (d : Definitions) (number : Nat) : List (List Char) → Definitions
  | [] => d
  | l :: ls => (d.addLine number (Line.ofChars l)).addLines (number + 1) ls

/-- What a text defines. -/
def ofText (text : String) : Definitions :=
  empty.addLines 1 (lines text.toList)

end Definitions

end UnitCalculus
