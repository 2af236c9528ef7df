import UnitCalculus.Magnitude.Text

/-! # Faults of templates

Why a template cannot be filled. -/

namespace UnitCalculus

/-- Why a template is malformed. -/
inductive TemplateFault where
  | singleClose
  | singleOpen
  | openInName
  | endOfName
  | endOfSpec
  | endOfConversion
  | afterConversion
  | unknownConversion (c : Char)
  | manualToAutomatic
  | automaticToManual
  | tooManyDigits
  | emptyAttribute
  | missingBracket
  | afterBracket
  | nestedTooDeep
  /-- The template holds no field at all. -/
  | noField (template : String)
  deriving DecidableEq, Repr

/-- The sentence that says what is wrong. -/
def TemplateFault.message : TemplateFault → String
  | singleClose => "Single '\x7d' encountered in format string"
  | singleOpen => "Single '\x7b' encountered in format string"
  | openInName => "unexpected '\x7b' in field name"
  | endOfName => "expected '\x7d' before end of string"
  | endOfSpec => "unmatched '\x7b' in format spec"
  | endOfConversion => "end of string while looking for conversion specifier"
  | afterConversion => "expected ':' after conversion specifier"
  | unknownConversion c =>
    if 32 < c.toNat && c.toNat < 127 then
      "Unknown conversion specifier " ++ String.singleton c
    else "Unknown conversion specifier \\x" ++ String.ofList (Nat.toDigits 16 c.toNat)
  | manualToAutomatic =>
    "cannot switch from manual field specification to automatic field numbering"
  | automaticToManual =>
    "cannot switch from automatic field numbering to manual field specification"
  | tooManyDigits => "Too many decimal digits in format string"
  | emptyAttribute => "Empty attribute in format string"
  | missingBracket => "Missing ']' in format string"
  | afterBracket => "Only '.' or '[' may follow ']' in format field specifier"
  | nestedTooDeep => "Max string recursion exceeded"
  | noField template => "Format string " ++ Text.quoted template ++ " has no replacement field"

end UnitCalculus
