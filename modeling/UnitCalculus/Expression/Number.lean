import UnitCalculus.Decimal.Literal
import UnitCalculus.Fault

/-! # The number in front of a unit expression

A quantity may start with a number.  `NumberReader.read` takes the longest number that the text
starts with, blanks before it included, and returns its value with the rest of the text.  Blanks may
be of any sort, but a number is only readable after those that count as padding. -/

namespace UnitCalculus

open UnitCalculus.Text UnitCalculus.Decimal

/-- What is taken for a number. -/
inductive NumberReader where
  /-- Decimal numbers, with floating-point values. -/
  | decimal
  | integer
  /-- Nothing is a number. -/
  | nothing
  deriving DecidableEq, Repr

namespace NumberReader

/-- The characters that were read: the text without its rest. -/
def consumed (cs rest : List Char) : List Char :=
  cs.take (cs.length - rest.length)

/-- Whether the blanks that a text starts with are all padding. -/
def isPadded (cs : List Char) : Bool :=
  (cs.takeWhile isBlank).all isPadding

/-- A leading decimal number and the rest of the text. -/
def readDecimal (cs : List Char) : Except Fault (Option (Magnitude × List Char)) :=
  let (negative, r) := leadingSign (trimLeft cs)
  match leadingUnsigned plainDigits negative r with
  | none => .ok none
  | some (l, rest) =>
    if isPadded cs then .ok (some (.real l.toFloat, rest))
    else .error (.value (.unreadableNumber
      (String.ofList ((consumed cs rest).filter (· != '_')))))

/-- A leading integer and the rest of the text. -/
def readInteger (cs : List Char) : Except Fault (Option (Magnitude × List Char)) :=
  let (negative, r) := leadingSign (trimLeft cs)
  match groupedDigits r with
  | ([], _) => .ok none
  | (ds, rest) =>
    match isPadded cs, signedValue negative ds with
    | true, some n => .ok (some (.integer n, rest))
    | _, _ => .error (.value (.unreadableInteger
        (String.ofList ((consumed cs rest).filter (· != '_')))))

/-- The leading number and the rest of the text, if it starts with one. -/
def read (reader : NumberReader) (text : String) : Except Fault (Option (Magnitude × String)) := do
  let found ← match reader with
    | decimal => readDecimal text.toList
    | integer => readInteger text.toList
    | nothing => .ok none
  return found.map fun (m, rest) => (m, String.ofList rest)

end NumberReader

end UnitCalculus
