import UnitCalculus.Decimal.Row
import UnitCalculus.Exponent
import UnitCalculus.Field.Render
import UnitCalculus.Magnitude.Arithmetic
import UnitCalculus.Text.Quoted

/-! # Text of magnitudes

`toText` is how a magnitude is written beside its dimension, `display` also tells its family, and
`inField` fills the field that a specification describes. -/

namespace UnitCalculus.Magnitude

open UnitCalculus.Decimal

/-- A complex number; its real part is left out when it is zero. -/
def complexText (z : Complex) : String :=
  match FieldSpec.formatComplex "" z.re z.im with
  | .ok t => t
  | .error _ => ""

/-- A truth value as a word. -/
def truthText (b : Bool) : String :=
  if b then "True" else "False"

/-- A row of truth values between brackets. -/
def maskText (separator : List Char) (lead close : Nat) (bs : List Bool) : List Char :=
  let width := if bs.all id then 4 else 5
  bracketed separator lead close
    (bs.map fun b =>
      let cs := (truthText b).toList
      List.replicate (width - cs.length) ' ' ++ cs)

/-- The magnitude as it stands in a text. -/
def toText : Magnitude → String
  | integer n => toString n
  | ratio q => Exponent.text q
  | real x => floatText x
  | unchecked x => floatText x
  | word n => toString n.toInt
  | complex z => complexText z
  | uncheckedComplex z => complexText z
  | vector xs => String.ofList (rowText [' '] 0 0 xs)
  | mask bs => String.ofList (maskText [' '] 0 0 bs)
  | truth b => truthText b
  | .text s => s
  | absent => "None"

/-- Whether every integer in the magnitude can be written. -/
def isWritable : Magnitude → Bool
  | integer n => Decimal.isWritable n
  | ratio q => Exponent.isWritable q
  | _ => true

/-- The magnitude with the name of its family where the text alone does not tell it. -/
def display : Magnitude → String
  | ratio q => "Fraction(" ++ toString q.num ++ ", " ++ toString q.den ++ ")"
  | unchecked x => "np.float64(" ++ floatText x ++ ")"
  | word n => "np.int64(" ++ toString n.toInt ++ ")"
  | uncheckedComplex z => "np.complex128(" ++ complexText z ++ ")"
  | vector [] => "array([], dtype=float64)"
  | vector xs => "array(" ++ String.ofList (rowText [',', ' '] 6 1 xs) ++ ")"
  | mask [] => "array([], dtype=bool)"
  | mask bs => "array(" ++ String.ofList (maskText [',', ' '] 6 1 bs) ++ ")"
  | .text s => Text.quoted s
  | m => m.toText

/-- Why a magnitude does not fit a field. -/
inductive DisplayFault where
  | field (f : FieldFault)
  /-- There is no such character, or no such floating-point number. -/
  | tooLarge
  /-- The family of the magnitude has no fields. -/
  | noFields
  deriving DecidableEq, Repr

/-- An integer in a field. -/
def integerInField (typeName spec : String) (n : Int) : Except DisplayFault String :=
  match FieldSpec.formatInteger typeName spec n with
  | .ok t => .ok t
  | .error (.field f) => .error (.field f)
  | .error .tooLarge => .error .tooLarge

/-- The fault of a field specification as one of a magnitude. -/
def liftField {α : Type} : Except FieldFault α → Except DisplayFault α
  | .ok a => .ok a
  | .error f => .error (.field f)

/-- The magnitude in the field that the text specifies; no specification asks for the plain text. -/
def inField (m : Magnitude) (spec : String) : Except DisplayFault String :=
  if spec == "" then if m.isWritable then .ok m.toText else .error (.field .digitLimit)
  else
    match m with
    | integer n => integerInField "int" spec n
    | word n => integerInField "int" spec n.toInt
    | truth b => integerInField "bool" spec (if b then 1 else 0)
    | real x => liftField (FieldSpec.formatFloat spec x)
    | unchecked x => liftField (FieldSpec.formatFloat spec x)
    | complex z => liftField (FieldSpec.formatComplex spec z.re z.im)
    | uncheckedComplex z => liftField (FieldSpec.formatComplex spec z.re z.im)
    | .text s => liftField (FieldSpec.formatText spec s)
    | _ => .error .noFields

end UnitCalculus.Magnitude
