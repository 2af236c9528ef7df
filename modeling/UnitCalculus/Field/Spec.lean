import UnitCalculus.Field.Fault
import UnitCalculus.Text.Digit

/-! # Field specifications

A field specification says how a value fills a field: fill character and alignment, sign, zero
handling, width, digit grouping, precision and the code of a notation, each optional and in this
order.  `FieldSpec.parse` reads one; which codes a value allows is decided where the value is
shown. -/

namespace UnitCalculus

open UnitCalculus.Text

/-- Where the fill characters of a field go. -/
inductive Alignment where
  | left
  | right
  | center
  /-- Between the sign and the digits. -/
  | inside
  deriving DecidableEq, Repr

/-- The character between groups of digits. -/
inductive Grouping where
  | none
  | comma
  | underscore
  deriving DecidableEq, Repr

/-- How a value fills a field. -/
structure FieldSpec where
  fill : Char
  align : Alignment
  /-- The sign option: plus, minus or space. -/
  sign : Option Char
  /-- Whether a value that rounds to zero loses its minus sign. -/
  plainZero : Bool
  /-- Whether the alternate form is asked for. -/
  alternate : Bool
  width : Option Nat
  grouping : Grouping
  precision : Option Nat
  code : Option Char
  deriving DecidableEq, Repr

namespace FieldSpec

/-- The alignment that a character stands for. -/
def alignment? : Char → Option Alignment
  | '<' => some .left
  | '>' => some .right
  | '^' => some .center
  | '=' => some .inside
  | _ => none

/-- The character that stands for a grouping. -/
def separator : Grouping → Option Char
  | .none => none
  | .comma => some ','
  | .underscore => some '_'

/-- The largest number that a specification may hold. -/
def maxNumber : Nat := 9223372036854775807

/-- The decimal digits that a text starts with, as a number, unless it is too large. -/
def number (cs : List Char) : Except FieldFault (Option Nat × List Char) :=
  let ds := (cs.takeWhile isDecimalDigit).filterMap digitValue?
  let rest := cs.dropWhile isDecimalDigit
  if ds.isEmpty then .ok (none, rest)
  else if maxNumber < ofDigits ds then .error .tooManyDigits
  else .ok (some (ofDigits ds), rest)

/-- The option `c`, if the text starts with it. -/
def flag (c : Char) : List Char → Bool × List Char
  | d :: r => if d == c then (true, r) else (false, d :: r)
  | [] => (false, [])

/-- Fill character and alignment, if the text starts with them. -/
def fillAlign (cs : List Char) : Option Char × Option Alignment × List Char :=
  match cs with
  | f :: a :: r =>
    match alignment? a with
    | some al => (some f, some al, r)
    | none =>
      match alignment? f with
      | some al => (none, some al, a :: r)
      | none => (none, none, cs)
  | [f] =>
    match alignment? f with
    | some al => (none, some al, [])
    | none => (none, none, cs)
  | [] => (none, none, [])

/-- The grouping that a text starts with; two different ones exclude each other. -/
def groupingPart (cs : List Char) : Except FieldFault (Grouping × List Char) :=
  let (comma, r) := flag ',' cs
  let (underscore, r) := flag '_' r
  if comma && underscore then .error .commaAndUnderscore
  else if comma then .ok (.comma, r)
  else if underscore then
    if r.head? == some ',' then .error .commaAndUnderscore else .ok (.underscore, r)
  else .ok (.none, r)

/-- The precision that a text starts with. -/
def precisionPart (cs : List Char) : Except FieldFault (Option Nat × List Char) :=
  match cs with
  | '.' :: r =>
    match number r with
    | .error f => .error f
    | .ok (none, _) => .error .missingPrecision
    | .ok (some n, rest) => .ok (some n, rest)
  | _ => .ok (none, cs)

/-- Whether digits may be grouped by `g` in the notation with this code. -/
def groupingAllowed (g : Grouping) (code : Option Char) : Bool :=
  match g, code with
  | .none, _ => true
  | _, none => true
  | g, some c => "deEfFgG%".contains c || (g == .underscore && "boxX".contains c)

/-- The specification that a text holds, for a value of the named type.  Values that are not
aligned otherwise go to the side `side`. -/
def parse (typeName : String) (side : Alignment) (defaultCode : Option Char) (text : String) :
    Except FieldFault FieldSpec := do
  let (fill, align, cs) := fillAlign text.toList
  let (sign, cs) := match cs with
    | c :: r => if c == '+' || c == '-' || c == ' ' then (some c, r) else (none, cs)
    | [] => (none, cs)
  let (plainZero, cs) := flag 'z' cs
  let (alternate, cs) := flag '#' cs
  let (zero, cs) := if fill.isNone then flag '0' cs else (false, cs)
  let (width, cs) ← number cs
  let (grouping, cs) ← groupingPart cs
  let (precision, cs) ← precisionPart cs
  let code ← match cs with
    | [] => pure defaultCode
    | [c] => pure (some c)
    | _ => throw (.malformed text typeName)
  if !groupingAllowed grouping code then
    throw (.separatorWithCode ((separator grouping).getD ',') (code.getD 's'))
  let aligned := align.getD (if zero && side == .right then .inside else side)
  pure {
    fill := if zero then '0' else fill.getD ' '
    align := aligned
    sign := sign
    plainZero := plainZero
    alternate := alternate
    width := width
    grouping := grouping
    precision := precision
    code := code }

end FieldSpec

end UnitCalculus
