import UnitCalculus.Expression.Grammar
import UnitCalculus.Expression.Number
import UnitCalculus.Operand.Conversion

/-! # Reading quantities

`readUnit` reads a unit expression such as `kg/(m.s²)`, `read` a quantity such as `25 mmol/L`: a
number, one if there is none, times a unit expression. -/

namespace UnitCalculus.Expression

/-- The tokens of a text. -/
def tokens (text : String) : Except Fault (List Token) :=
  match Token.lex text with
  | .ok ts => .ok ts
  | .error f => .error (.expression f)

/-- The quantity that a unit expression stands for. -/
def readUnit (table : UnitTable) (text : String) : Except Fault Quantity := do
  ofTokens ⟨table, text⟩ (← tokens text)

/-- The quantity that a text stands for. -/
def read (table : UnitTable) (reader : NumberReader) (text : String) : Except Fault Quantity := do
  let (m, rest) := (← reader.read text).getD (.integer 1, text)
  if rest == "" then return .bare m
  else (← readUnit table rest).numberWith .mul m

/-- The quantity that a text stands for, as one of a kind. -/
def readKinded (table : UnitTable) (reader : NumberReader) (kind : Kind) (text : String) :
    Except Fault Kinded := do
  Operand.construct (some kind) (.quantity (← read table reader text))

end UnitCalculus.Expression
