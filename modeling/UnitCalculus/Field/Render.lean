import UnitCalculus.Decimal.Layout
import UnitCalculus.Decimal.Literal
import UnitCalculus.Field.Spec

/-! # Values in fields

How text, integers, floating-point numbers and complex numbers fill a field.  A number is a sign, a
mark of its base, digits that may be grouped and filled up with zeros, and the rest: point,
fraction and exponent.  `grouped` puts the separators, `NumberParts.assemble` the padding. -/

namespace UnitCalculus

open UnitCalculus.Decimal

namespace FieldSpec

/-- `n` fill characters around a text, on the side that the alignment leaves free. -/
def pad (s : FieldSpec) (cs : List Char) : List Char :=
  let n := s.width.getD 0 - cs.length
  match s.align with
  | .left => cs ++ List.replicate n s.fill
  | .center => List.replicate (n / 2) s.fill ++ cs ++ List.replicate (n - n / 2) s.fill
  | .right | .inside => List.replicate n s.fill ++ cs

/-- Digits, last one first, in groups of `size` with separators between the groups. -/
def groupReversed (size : Nat) (separator : Char) : Nat → List Char → List Char
  | _, [] => []
  | 0, c :: r => separator :: c :: groupReversed size separator (size - 1) r
  | k + 1, c :: r => c :: groupReversed size separator k r

/-- Digits in groups of `size`, filled up with zeros until they and their separators are at least
`width` characters; a text never starts with a separator. -/
def grouped (size : Nat) (separator : Char) (width : Nat) (ds : List Char) : List Char :=
  let digitsFor := fun w => w - w / (size + 1)
  let count := max ds.length (digitsFor width + (if width % (size + 1) == 0 && 0 < width then 1 else 0))
  let filled := List.replicate (count - ds.length) '0' ++ ds
  (groupReversed size separator size filled.reverse).reverse

/-- A number in parts: sign, mark of the base, whole digits and the rest. -/
structure NumberParts where
  negative : Bool
  base : List Char
  digits : List Char
  rest : List Char

/-- The sign that is written. -/
def signText (s : FieldSpec) (negative : Bool) : List Char :=
  if negative then ['-']
  else
    match s.sign with
    | some '+' => ['+']
    | some ' ' => [' ']
    | _ => []

/-- A number in its field. -/
def NumberParts.assemble (s : FieldSpec) (groupSize : Nat) (p : NumberParts) : List Char :=
  let sign := signText s p.negative
  let others := sign.length + p.base.length + p.rest.length
  let zeroWidth :=
    if s.fill == '0' && s.align == .inside then s.width.getD 0 - others else 0
  let digits :=
    if p.digits.isEmpty then []
    else
      match separator s.grouping with
      | some c => grouped groupSize c zeroWidth p.digits
      | none => List.replicate (zeroWidth - p.digits.length) '0' ++ p.digits
  let n := s.width.getD 0 - (others + digits.length)
  match s.align with
  | .inside => sign ++ p.base ++ List.replicate n s.fill ++ digits ++ p.rest
  | _ => s.pad (sign ++ p.base ++ digits ++ p.rest)

/-- Whole digits and the rest of an unsigned number text. -/
def splitDigits (cs : List Char) : List Char × List Char :=
  (cs.takeWhile Char.isDigit, cs.dropWhile Char.isDigit)

/-! ### Floating-point numbers -/

/-- The notations of a floating-point number. -/
inductive Notation where
  /-- The shortest digits that read back. -/
  | plain
  | scientific
  | positional
  /-- Significant digits, with an exponent when the number is very large or small. -/
  | general
  deriving DecidableEq, Repr

/-- The unsigned text of a finite number in a notation with a precision. -/
def finiteText (n : Notation) (pointZero alternate : Bool) (precision : Nat) (mark : Char)
    (e : Expansion) : List Char :=
  match n with
  | .plain => { Layout.plain with pointZero, keepPoint := alternate, mark }.write (shortestNumeral e)
  | .scientific => Decimal.scientific alternate mark (significantNumeral e (precision + 1))
  | .positional => Decimal.positional alternate (fixedNumeral e precision)
  | .general =>
    let p := max precision 1
    let m := significantNumeral e p
    let bound : Int := if pointZero then p - 1 else p
    let layout : Layout := ⟨-4, bound, pointZero, alternate, mark⟩
    layout.write (if alternate then m else m.trimZeros)

/-- Whether a text shows zero: it holds no other digit before its exponent. -/
def showsZero (cs : List Char) : Bool :=
  (cs.takeWhile fun c => c != 'e' && c != 'E').all fun c => !c.isDigit || c == '0'

/-- The sign and the unsigned text of a floating-point number. -/
def floatParts (n : Notation) (pointZero alternate plainZero : Bool) (precision : Nat) (upper : Bool)
    (x : Float) : Bool × List Char :=
  let mark := if upper then 'E' else 'e'
  match expand x with
  | .finite e =>
    let cs := finiteText n pointZero alternate precision mark e
    (e.negative && !(plainZero && showsZero cs), cs)
  | .infinite negative => (negative, if upper then ['I', 'N', 'F'] else ['i', 'n', 'f'])
  | .undefined => (false, if upper then ['N', 'A', 'N'] else ['n', 'a', 'n'])

/-- The largest precision of a floating-point number. -/
def maxPrecision : Nat := 2147483647

/-- The notation, the default precision and the letter case of a code. -/
def codeStyle? : Option Char → Option (Notation × Nat × Bool)
  | none => some (.plain, 0, false)
  | some 'e' => some (.scientific, 6, false)
  | some 'E' => some (.scientific, 6, true)
  | some 'f' => some (.positional, 6, false)
  | some 'F' => some (.positional, 6, true)
  | some 'g' => some (.general, 6, false)
  | some 'n' => some (.general, 6, false)
  | some 'G' => some (.general, 6, true)
  | _ => none

/-- The notation and the precision that the specification asks for: with a precision, a number
without a code is general. -/
def chooseNotation (s : FieldSpec) (n : Notation) (standard : Nat) : Notation × Nat :=
  match s.precision with
  | none => (n, standard)
  | some p => (if n == .plain then .general else n, p)

/-- A floating-point number in its field. -/
def renderFloat (s : FieldSpec) (typeName : String) (x : Float) : Except FieldFault String := do
  if maxPrecision < s.precision.getD 0 then throw .precisionTooBig
  let percent := s.code == some '%'
  let (n, standard, upper) ← match codeStyle? (if percent then some 'f' else s.code) with
    | some t => pure t
    | none => throw (.unknownCode (s.code.getD 's') typeName)
  let (m, precision) := s.chooseNotation n standard
  let x := if percent then x * 100.0 else x
  let (negative, cs) := floatParts m (n == .plain) s.alternate s.plainZero precision upper x
  let (digits, rest) := splitDigits cs
  let rest := if percent then rest ++ ['%'] else rest
  pure (String.ofList (NumberParts.assemble s 3 ⟨negative, [], digits, rest⟩))

/-- A floating-point number in the field that the text specifies. -/
def formatFloat (spec : String) (x : Float) : Except FieldFault String := do
  let s ← parse "float" .right none spec
  if s.code != none && s.code != some '%' && (codeStyle? s.code).isNone then
    throw (.unknownCode (s.code.getD 's') "float")
  renderFloat s "float" x

/-! ### Integers -/

/-- The digits of `n` in a base, in lower case. -/
def baseDigits (base n : Nat) : List Char := Nat.toDigits base n

/-- The base that a code of integers stands for. -/
def base? : Option Char → Option Nat
  | none => some 10
  | some 'd' => some 10
  | some 'n' => some 10
  | some 'b' => some 2
  | some 'o' => some 8
  | some 'x' => some 16
  | some 'X' => some 16
  | _ => none

/-- Why an integer cannot be shown. -/
inductive IntegerFault where
  | field (f : FieldFault)
  /-- There is no such character, or no such floating-point number. -/
  | tooLarge
  deriving DecidableEq, Repr

/-- An integer as one character. -/
def renderCharacter (s : FieldSpec) (n : Int) : Except IntegerFault String := do
  if s.sign.isSome then throw (.field .characterSign)
  if s.alternate then throw (.field .characterAlternate)
  if n < 0 || 0x10ffff < n then throw .tooLarge
  let sized := { s with sign := none, grouping := .none }
  pure (String.ofList (NumberParts.assemble sized 3 ⟨false, [], [], [Char.ofNat n.toNat]⟩))

/-- An integer in the field that the text specifies. -/
def formatInteger (typeName spec : String) (n : Int) : Except IntegerFault String := do
  let s ← match parse typeName .right (some 'd') spec with
    | .ok s => pure s
    | .error f => throw (.field f)
  match s.code with
  | some 'c' =>
    if s.precision.isSome then throw (.field .integerPrecision)
    if s.plainZero then throw (.field .integerZero)
    renderCharacter s n
  | code =>
    match base? code with
    | some base =>
      if s.precision.isSome then throw (.field .integerPrecision)
      if s.plainZero then throw (.field .integerZero)
      let ds := baseDigits base n.natAbs
      if base == 10 && maxDigits < ds.length then throw (.field .digitLimit)
      let upper := code == some 'X'
      let mark := match base, s.alternate with
        | 2, true => ['0', 'b']
        | 8, true => ['0', 'o']
        | 16, true => if upper then ['0', 'X'] else ['0', 'x']
        | _, _ => []
      let ds := if upper then ds.map Char.toUpper else ds
      let size := if base == 10 then 3 else 4
      pure (String.ofList (NumberParts.assemble s size ⟨n < 0, mark, ds, []⟩))
    | none =>
      if (codeStyle? code).isSome || code == some '%' then
        match Decimal.ofInt? n with
        | none => throw .tooLarge
        | some x =>
          match renderFloat s typeName x with
          | .ok t => pure t
          | .error f => throw (.field f)
      else throw (.field (.unknownCode (code.getD 's') typeName))

/-! ### Complex numbers -/

/-- The text of one part of a complex number, without padding. -/
def partText (s : FieldSpec) (n : Notation) (precision : Nat) (upper : Bool) (x : Float) :
    List Char :=
  let (negative, cs) := floatParts n false s.alternate s.plainZero precision upper x
  let (digits, rest) := splitDigits cs
  NumberParts.assemble { s with fill := ' ', align := .left, width := none } 3
    ⟨negative, [], digits, rest⟩

/-- A complex number in the field that the text specifies. -/
def formatComplex (spec : String) (re im : Float) : Except FieldFault String := do
  let s ← parse "complex" .right none spec
  let (n, standard, upper) ← match codeStyle? s.code with
    | some t => pure t
    | none => throw (.unknownCode (s.code.getD 's') "complex")
  if s.fill == '0' then throw .complexPadding
  if s.align == .inside then throw .complexAlignment
  if maxPrecision < s.precision.getD 0 then throw .precisionTooBig
  let imaginaryOnly := n == .plain && re == 0.0 && !signBit re
  let parens := n == .plain && !imaginaryOnly
  let (m, precision) := s.chooseNotation n standard
  let real := if imaginaryOnly then [] else partText s m precision upper re
  let signed := if imaginaryOnly then s else { s with sign := some '+' }
  let imaginary := partText signed m precision upper im ++ ['j']
  let body := real ++ imaginary
  pure (String.ofList (s.pad (if parens then '(' :: (body ++ [')']) else body)))

/-! ### Text -/

/-- A text in the field that the specification describes. -/
def formatText (spec text : String) : Except FieldFault String := do
  let s ← parse "str" .left (some 's') spec
  if s.code != some 's' then throw (.unknownCode (s.code.getD 's') "str")
  match s.sign with
  | some ' ' => throw .textSpace
  | some _ => throw .textSign
  | none => pure ()
  if s.plainZero then throw .textZero
  if s.alternate then throw .textAlternate
  if s.align == .inside then throw .textAlignment
  let cs := match s.precision with
    | some p => text.toList.take p
    | none => text.toList
  pure (String.ofList (s.pad cs))

end FieldSpec

end UnitCalculus
