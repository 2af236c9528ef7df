import UnitCalculus.Expression.Token

/-! # Faults of unit expressions

Why a text is no unit expression, where in the text that shows, and the sentence that says so. -/

namespace UnitCalculus

/-- Why a text is no unit expression. -/
inductive ExpressionCause where
  /-- A run of digits and signs is no integer. -/
  | malformedInteger (run : String)
  | endOfInput
  | unexpected (found : String) (wanted : List TokenKind)
  /-- A token that should be an integer has no value. -/
  | missingInteger (found : String)
  | zeroDenominator
  /-- A factor symbol stands alone. -/
  | unitMissing (factor : String)
  | unknownSymbol (symbol : String)
  deriving DecidableEq, Repr

/-- The sentence that says what is wrong. -/
def ExpressionCause.message : ExpressionCause → String
  | malformedInteger run => "Unexpected integer format: " ++ run
  | endOfInput => "Unexpected end of input"
  | unexpected found wanted =>
    "Found '" ++ found ++ "' while expecting " ++ " or ".intercalate (wanted.map TokenKind.name)
  | missingInteger found => "Expecting an integer, found '" ++ found ++ "'"
  | zeroDenominator => "Zero denominator in exponent"
  | unitMissing factor => "Expecting a unit after the prefix " ++ factor
  | unknownSymbol symbol => "Unknown unit symbol: '" ++ symbol ++ "'"

/-- What is wrong with a text, and at which of its characters. -/
structure ExpressionFault where
  cause : ExpressionCause
  text : String
  position : Nat
  deriving DecidableEq, Repr

namespace ExpressionFault

/-- The sentence that says what is wrong. -/
def message (f : ExpressionFault) : String :=
  f.cause.message

/-- The sentence, followed by the text and a mark below the position. -/
def report (f : ExpressionFault) : String :=
  if f.text != "" && f.position ≤ f.text.length then
    f.message ++ "\n" ++ f.text ++ "\n" ++ String.ofList (List.replicate f.position ' ') ++ "^"
  else f.message

end ExpressionFault

end UnitCalculus
