import UnitCalculus.Expression
import UnitCalculus.LogRecord

/-! # The log of reading quantities

Reading a quantity leaves one record, as soon as its unit expression is cut into tokens. -/

namespace UnitCalculus.Expression

/-- The record of a text that was cut into tokens. -/
def tokensRecord (text : String) (count : Nat) : LogRecord :=
  ⟨.debug, .expressions, "Parsing " ++ Text.quoted text ++ " into " ++ toString count ++ " tokens"⟩

/-- What reading a text leaves in the log. -/
def trace (reader : NumberReader) (text : String) : List LogRecord :=
  match reader.read text with
  | .error _ => []
  | .ok found =>
    let rest := (found.map (·.2)).getD text
    if rest == "" then []
    else
      match tokens rest with
      | .ok ts => [tokensRecord text ts.length]
      | .error _ => []

end UnitCalculus.Expression
