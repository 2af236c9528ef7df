import UnitCalculus.Expression.Lexer
import UnitCalculus.UnitTable

/-! # The grammar of unit expressions

Factors follow each other, with or without a sign between them, and are multiplied or divided from
left to right; a factor is a symbol or a group in parentheses, with an optional integer or fraction
as its exponent.  Nothing at all is the number one.  Each function reads tokens from the front of a
list and returns a quantity with the tokens that are left; groups are read by the function one level
further in, so that the recursion follows the depth of the parentheses. -/

namespace UnitCalculus.Expression

/-- What an expression is read against: the units, and the text for the faults. -/
structure Scope where
  table : UnitTable
  text : String

/-- A reader of tokens. -/
abbrev Reader (α : Type) := List Token → Except Fault (α × List Token)

namespace Scope

/-- A fault at a position of the text. -/
def fault (s : Scope) (cause : ExpressionCause) (position : Nat) : Fault :=
  .expression ⟨cause, s.text, position⟩

/-- A fault after the last token. -/
def endFault (s : Scope) : Fault :=
  s.fault .endOfInput s.text.length

/-- A token of another kind than the wanted ones. -/
def unexpected (s : Scope) (t : Token) (wanted : List TokenKind) : Fault :=
  s.fault (.unexpected t.text wanted) t.position

end Scope

/-! ### Exponents -/

/-- An integer, in ordinary or superscript characters. -/
def integer (s : Scope) : Reader (Int × Token)
  | [] => .error s.endFault
  | t :: ts =>
    if t.kind == .integer || t.kind == .supinteger then
      match t.value with
      | some n => .ok ((n, t), ts)
      | none => .error (s.fault (.missingInteger t.text) t.position)
    else .error (s.unexpected t [.integer, .supinteger])

/-- The denominator of an exponent, if a division sign and an ordinary integer come next. -/
def denominator (s : Scope) : Reader (Option Int)
  | slash :: d :: ts =>
    if slash.kind == .div && d.kind == .integer then do
      let ((n, t), rest) ← integer s (d :: ts)
      if n == 0 then throw (s.fault .zeroDenominator t.position)
      return (some n, rest)
    else .ok (none, slash :: d :: ts)
  | ts => .ok (none, ts)

/-- An integer or a fraction. -/
def rational (s : Scope) : Reader Rat := fun ts => do
  let ((n, _), ts) ← integer s ts
  let (d, ts) ← denominator s ts
  return ((n : Rat) / ((d.getD 1 : Int) : Rat), ts)

/-- The exponent of a factor, if one comes next. -/
def exponent? (s : Scope) : Reader (Option Rat)
  | [] => .ok (none, [])
  | t :: ts =>
    match t.kind with
    | .exp =>
      match ts with
      | [] => .error s.endFault
      | n :: _ =>
        if n.kind == .integer then do
          let (q, rest) ← rational s ts
          return (some q, rest)
        else .error (s.unexpected n [.integer])
    | .supinteger => do
      let (q, rest) ← rational s (t :: ts)
      return (some q, rest)
    | _ => .ok (none, t :: ts)

/-! ### Factors -/

/-- The quantity of a symbol; a fault is reported at its place in the text. -/
def resolve (s : Scope) (t : Token) : Except Fault Quantity :=
  match s.table.lookup t.text with
  | .ok q => .ok q
  | .error (.expression f) => .error (s.fault f.cause t.position)
  | .error f => .error f

/-- The closing parenthesis of a group. -/
def close (s : Scope) : Reader Unit
  | [] => .error s.endFault
  | t :: ts => if t.kind == .rparen then .ok ((), ts) else .error (s.unexpected t [.rparen])

/-- A symbol, a group, or nothing at the end. -/
def unit (s : Scope) (group : Reader Quantity) : Reader Quantity
  | [] => .ok (.one, [])
  | t :: ts =>
    match t.kind with
    | .lparen => do
      let (q, ts) ← group ts
      let (_, ts) ← close s ts
      return (q, ts)
    | .symbol => do return (← resolve s t, ts)
    | _ => .error (s.unexpected t [.symbol])

/-- A unit with its exponent. -/
def factor (s : Scope) (group : Reader Quantity) : Reader Quantity := fun ts => do
  let (q, ts) ← unit s group ts
  let (e, ts) ← exponent? s ts
  match e with
  | none => return (q, ts)
  | some e => return (← q.pow e, ts)

/-! ### Products -/

/-- Whether nothing more belongs to the product: the tokens end, or the group does. -/
def ends (grouped : Bool) : List Token → Bool
  | [] => true
  | t :: _ => grouped && t.kind == .rparen

/-- The operator before the next factor; without a sign it is a product. -/
def operator (s : Scope) : Reader Operator
  | [] => .error s.endFault
  | t :: ts =>
    match t.kind, ts with
    | .mul, [] => .error s.endFault
    | .div, [] => .error s.endFault
    | .mul, _ => .ok (.mul, ts)
    | .div, _ => .ok (.div, ts)
    | _, _ => .ok (.mul, t :: ts)

/-- The factors after the first one, taken into the product `q`; each takes at least one token, so
that the number of tokens bounds the rounds. -/
def moreFactors (s : Scope) (group : Reader Quantity) (grouped : Bool) :
    Nat → Quantity → Reader Quantity
  | 0, q, ts => .ok (q, ts)
  | rounds + 1, q, ts =>
    if ends grouped ts then .ok (q, ts)
    else do
      let (o, ts) ← operator s ts
      let (r, ts) ← factor s group ts
      moreFactors s group grouped rounds (← q.withQuantity o r) ts

/-- A product of factors, with groups nested at most as deep as given. -/
def product (s : Scope) : Nat → Bool → Reader Quantity
  | 0, _, ts => .ok (.one, ts)
  | depth + 1, grouped, ts => do
    let (q, ts) ← factor s (product s depth true) ts
    moreFactors s (product s depth true) grouped ts.length q ts

/-- The quantity of a list of tokens; no more groups can be nested than there are tokens. -/
def ofTokens (s : Scope) (ts : List Token) : Except Fault Quantity := do
  let (q, _) ← product s (ts.length + 1) false ts
  return q

end UnitCalculus.Expression
