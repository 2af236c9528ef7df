import UnitCalculus.Text.Quoted

/-! # Faults of field specifications

Why a value cannot be shown in a field, and the sentence that says so. -/

namespace UnitCalculus

/-- Why a field specification is refused. -/
inductive FieldFault where
  | tooManyDigits
  | commaAndUnderscore
  | missingPrecision
  | malformed (spec typeName : String)
  | separatorWithCode (separator code : Char)
  | unknownCode (code : Char) (typeName : String)
  | precisionTooBig
  | integerPrecision
  | integerZero
  | characterSign
  | characterAlternate
  | textSign
  | textSpace
  | textZero
  | textAlternate
  | textAlignment
  | complexPadding
  | complexAlignment
  | digitLimit
  deriving DecidableEq, Repr

namespace FieldFault

/-- A format code as it appears in a sentence: visible ASCII as it is, the others by number. -/
def codeText (upper : Nat) (c : Char) : String :=
  if 32 < c.toNat && c.toNat < upper then String.singleton c
  else "\\x" ++ String.ofList (Nat.toDigits 16 c.toNat)

/-- The sentence that says why the specification is refused. -/
def message : FieldFault → String
  | tooManyDigits => "Too many decimal digits in format string"
  | commaAndUnderscore => "Cannot specify both ',' and '_'."
  | missingPrecision => "Format specifier missing precision"
  | malformed spec typeName =>
    "Invalid format specifier '" ++ spec ++ "' for object of type '" ++ typeName ++ "'"
  | separatorWithCode s c =>
    "Cannot specify '" ++ String.singleton s ++ "' with '" ++ codeText 128 c ++ "'."
  | unknownCode c typeName =>
    "Unknown format code '" ++ codeText 128 c ++ "' for object of type '" ++ typeName ++ "'"
  | precisionTooBig => "precision too big"
  | integerPrecision => "Precision not allowed in integer format specifier"
  | integerZero => "Negative zero coercion (z) not allowed in integer format specifier"
  | characterSign => "Sign not allowed with integer format specifier 'c'"
  | characterAlternate => "Alternate form (#) not allowed with integer format specifier 'c'"
  | textSign => "Sign not allowed in string format specifier"
  | textSpace => "Space not allowed in string format specifier"
  | textZero => "Negative zero coercion (z) not allowed in string format specifier"
  | textAlternate => "Alternate form (#) not allowed in string format specifier"
  | textAlignment => "'=' alignment not allowed in string format specifier"
  | complexPadding => "Zero padding is not allowed in complex format specifier"
  | complexAlignment => "'=' alignment flag is not allowed in complex format specifier"
  | digitLimit => "Exceeds the limit (4300 digits) for integer string conversion"

end FieldFault

end UnitCalculus
