import UnitCalculus.Exponent
import UnitCalculus.Text.Quoted

/-! # Dimensions

The dimension of a quantity is a formal product of rational powers of base dimensions, such as
`[L M T^-2]`.  A `Dimension` lists its factors in the order of their ranks, then of their symbols,
each symbol once and never with power zero; the list is kept in this form by inserting one factor
at a time.  Two dimensions are the same when their symbols and powers are, whatever the ranks
(`Dimension.same`); `powerOf` reads the power of one symbol. -/

namespace UnitCalculus

/-- A power of one base dimension; no rank stands for the rank `Factor.unranked`. -/
structure Factor where
  symbol : String
  power : Rat
  rank : Option Int
  deriving DecidableEq, Repr

namespace Factor

/-- The rank of factors that were given none, after all ranks in use. -/
def unranked : Int := 9223372036854775807

/-- Whether rank `a` comes before rank `b`. -/
def rankLt : Option Int → Option Int → Bool
  | some a, some b => a < b
  | some a, none => a ≤ unranked
  | none, some b => unranked < b
  | none, none => false

/-- Whether `a` comes before `b` in a dimension: by rank, then by symbol. -/
def precedes (a b : Factor) : Bool :=
  rankLt a.rank b.rank || (a.rank == b.rank && decide (a.symbol < b.symbol))

/-- Symbol and power, without the rank. -/
def key (f : Factor) : String × Rat :=
  (f.symbol, f.power)

/-- The factor with its power mapped. -/
def mapPower (g : Rat → Rat) (f : Factor) : Factor :=
  { f with power := g f.power }

/-- The symbol, with its power unless that is one. -/
def text (f : Factor) : String :=
  if f.power == 0 then ""
  else if f.power == 1 then f.symbol
  else f.symbol ++ "^" ++ Exponent.text f.power

end Factor

/-- A formal product of powers of base dimensions. -/
structure Dimension where
  factors : List Factor
  deriving DecidableEq, Repr

namespace Dimension

/-! ### Insertion -/

/-- Raise the power of `f`'s symbol by that of `f`; a factor whose power becomes zero is dropped. -/
def raise (f : Factor) : List Factor → List Factor
  | [] => []
  | e :: es =>
    if e.symbol == f.symbol then
      if e.power + f.power == 0 then es else { e with power := e.power + f.power } :: es
    else e :: raise f es

/-- Put `f` in front of the first factor that comes after it. -/
def place (f : Factor) : List Factor → List Factor
  | [] => [f]
  | e :: es => if f.precedes e then f :: e :: es else e :: place f es

/-- Multiply a list of factors by `f`. -/
def insert (f : Factor) (es : List Factor) : List Factor :=
  if es.any (·.symbol == f.symbol) then raise f es
  else if f.power == 0 then es
  else place f es

/-- Multiply a list of factors by each factor of another, first to last. -/
def insertAll (fs es : List Factor) : List Factor :=
  fs.foldl (fun acc f => insert f acc) es

/-! ### The algebra -/

/-- The dimension of bare numbers. -/
def one : Dimension := ⟨[]⟩

/-- The product of arbitrary factors. -/
def ofFactors (fs : List Factor) : Dimension :=
  ⟨insertAll fs []⟩

/-- A base dimension; the empty symbol stands for no dimension. -/
def base (symbol : String) (rank : Option Int) : Dimension :=
  if symbol == "" then one else ofFactors [⟨symbol, 1, rank⟩]

/-- The factors with their powers mapped, zero powers dropped. -/
def mapPowers (g : Rat → Rat) (d : Dimension) : Dimension :=
  ⟨(d.factors.map (Factor.mapPower g)).filter (·.power != 0)⟩

/-- The product of two dimensions. -/
def mul (a b : Dimension) : Dimension :=
  ⟨insertAll b.factors a.factors⟩

/-- The reciprocal of a dimension. -/
def inv (d : Dimension) : Dimension :=
  d.mapPowers (- ·)

/-- The quotient of two dimensions. -/
def div (a b : Dimension) : Dimension :=
  a.mul b.inv

/-- A rational power of a dimension. -/
def pow (d : Dimension) (q : Rat) : Dimension :=
  if q == 0 then one else d.mapPowers (· * q)

/-- The `q`-th root of a dimension; there is no zeroth root. -/
def root? (d : Dimension) (q : Rat) : Option Dimension :=
  if q == 0 then none else some (d.mapPowers (· / q))

/-! ### Queries -/

/-- The power of a symbol, zero when it does not occur. -/
def powerOf (d : Dimension) (symbol : String) : Rat :=
  match d.factors.find? (·.symbol == symbol) with
  | some f => f.power
  | none => 0

/-- Whether the dimension is that of bare numbers. -/
def isOne (d : Dimension) : Bool :=
  d.factors.isEmpty

/-- Symbols and powers in order, without the ranks. -/
def key (d : Dimension) : List (String × Rat) :=
  d.factors.map Factor.key

/-- Whether two dimensions have the same symbols and powers. -/
def same (a b : Dimension) : Bool :=
  a.key == b.key

/-- The symbols in order. -/
def symbols (d : Dimension) : List String :=
  d.factors.map (·.symbol)

/-- The factors in brackets. -/
def text (d : Dimension) : String :=
  "[" ++ " ".intercalate (d.factors.map Factor.text) ++ "]"

/-- The dimension as it is displayed among other values. -/
def display (d : Dimension) : String :=
  "DimensionVector(" ++ Text.quoted d.text ++ ")"

end Dimension

end UnitCalculus
