import UnitCalculus.Dimension
import UnitCalculus.Expression.Fault
import UnitCalculus.Template.Fault

/-! # Faults

Every way in which an operation of the library can fail, one constructor each, and the sentences for
those that have one.  Faults of arithmetic, of fields and of the bytes of a file are told by their
constructor alone. -/

namespace UnitCalculus

/-- What two dimensions failed. -/
inductive DimensionReason where
  | incompatible
  | notDimensionless
  /-- A reason in the words of the caller. -/
  | stated (text : String)
  deriving DecidableEq, Repr

/-- The reason in words. -/
def DimensionReason.text : DimensionReason → String
  | incompatible => "Incompatible dimensions"
  | notDimensionless => "Not dimensionless"
  | stated text => text

/-- Two dimensions that had to agree; `other` is empty when none was required. -/
structure DimensionFault where
  reason : DimensionReason
  this : Dimension
  other : Dimension
  deriving DecidableEq, Repr

/-- The reason and both dimensions. -/
def DimensionFault.message (f : DimensionFault) : String :=
  f.reason.text ++ ": " ++ f.this.text ++ " vs " ++ f.other.text

/-- An operand of a type that the operation does not take. -/
inductive OperandFault where
  | truthExponent
  | notRational (typeName : String)
  | kindMismatch (op : String) (left right : Dimension)
  | abstractKind
  | wrongKind (given expected : Dimension)
  | bareNumber (kind : String)
  | notConvertible (kind typeName : String)
  | notAQuantity (typeName : String)
  | noQuantity (typeName : String)
  | dimensionGiven
  | dimensionExpected
  | unitNotAQuantity (symbol typeName : String)
  | factorNotANumber (symbol : String)
  deriving DecidableEq, Repr

/-- The sentence that names the operand. -/
def OperandFault.message : OperandFault → String
  | truthExponent => "Booleans are not valid exponents"
  | notRational t => "Cannot convert " ++ t ++ " to a rational"
  | kindMismatch op l r =>
    "Dimension error: unsupported operand dimensions for " ++ op ++ ": " ++ l.text ++ " and "
      ++ r.text
  | abstractKind =>
    "StaticQuantity is abstract; use quantity_type() to get a concrete type"
  | wrongKind given expected =>
    "Dimension error: " ++ given.text ++ " is not consistent with " ++ expected.text
  | bareNumber kind => "Dimension error: cannot build " ++ kind ++ " from a bare number"
  | notConvertible kind t => "Cannot build " ++ kind ++ " from " ++ t
  | notAQuantity t => "Expected a quantity, got " ++ t
  | noQuantity t => "Cannot build a quantity from " ++ t
  | dimensionGiven => "Dimensions cannot be given when copying a quantity"
  | dimensionExpected => "Dimensions must be a DimensionVector instance"
  | unitNotAQuantity s t => "Unit " ++ Text.quoted s ++ " must be a quantity, got " ++ t
  | factorNotANumber s => "Prefix " ++ Text.quoted s ++ " factor must be a number"

/-- A value that the operation does not take. -/
inductive ValueFault where
  | emptyUnitSymbol
  | emptyFactorSymbol
  | invalidRational (literal : String)
  /-- Blanks in front of a number that are no padding. -/
  | unreadableNumber (text : String)
  | unreadableInteger (text : String)
  deriving DecidableEq, Repr

/-- The sentence that says what is wrong with the value. -/
def ValueFault.message : ValueFault → String
  | emptyUnitSymbol => "Unit symbol must be a non-empty string"
  | emptyFactorSymbol => "Prefix symbol must be a non-empty string"
  | invalidRational literal => "Invalid rational literal " ++ Text.quoted literal
  | unreadableNumber text => "could not convert string to float: " ++ Text.quoted text
  | unreadableInteger text => "invalid literal for int() with base 10: " ++ Text.quoted text

/-- A zero where it has no meaning. -/
inductive ZeroFault where
  | denominator (num : Int)
  | dimensionRoot
  | root
  deriving DecidableEq, Repr

/-- The sentence that says where the zero was found. -/
def ZeroFault.message : ZeroFault → String
  | denominator num => "Denominator is zero in rational(" ++ toString num ++ ", 0)"
  | dimensionRoot => "Cannot take the 0-th root of dimensions"
  | root => "The 0-th root is undefined"

/-- Why an operation of the library fails. -/
inductive Fault where
  | number (f : NumberFault)
  | display (f : Magnitude.DisplayFault)
  | expression (f : ExpressionFault)
  | dimension (f : DimensionFault)
  | operand (f : OperandFault)
  | value (f : ValueFault)
  | zero (f : ZeroFault)
  /-- The table takes no more definitions. -/
  | frozen
  /-- The bytes of a file are no text. -/
  | undecodable
  | template (f : TemplateFault)
  /-- A template asks for a name that it is not given. -/
  | unknownName
  /-- A template asks for a position that it is not given. -/
  | unknownPosition
  deriving DecidableEq, Repr

namespace Fault

/-- Why a frozen table takes no definition. -/
def frozenMessage : String := "Symbol table is frozen; use copy() to extend it"

/-- The sentence of the library, for the faults that have one. -/
def message? : Fault → Option String
  | expression f => some f.message
  | dimension f => some f.message
  | operand f => some f.message
  | value f => some f.message
  | zero f => some f.message
  | frozen => some frozenMessage
  | template f => some f.message
  | display (.field f) => some f.message
  | _ => none

/-- The operation is not defined for the operands. -/
def unsupported : Fault := .number .unsupported

/-- The value has no such part. -/
def noSuchPart : Fault := .number .noSuchPart

end Fault

/-- The result of an arithmetic operation, its fault as one of the library. -/
def liftNumber {α : Type} : Except NumberFault α → Except Fault α
  | .ok a => .ok a
  | .error f => .error (.number f)

/-- The text of a magnitude, its fault as one of the library. -/
def liftDisplay {α : Type} : Except Magnitude.DisplayFault α → Except Fault α
  | .ok a => .ok a
  | .error f => .error (.display f)

end UnitCalculus
