import UnitCalculus.Catalog
import UnitCalculus.Operand

/-! # Unit tables

A table of unit symbols and of factor symbols such as the `k` of `km`.  `UnitTable.lookup` finds the
quantity of a symbol: a unit of that name wins; otherwise the longest factor that starts the symbol
and leaves a known unit.  A frozen table takes no more definitions; a copy of it does. -/

namespace UnitCalculus

/-- Units and factors by their symbols. -/
structure UnitTable where
  units : Catalog Quantity
  factors : Catalog Magnitude
  /-- The length of the longest factor symbol. -/
  longestFactor : Nat
  frozen : Bool

namespace UnitTable

/-- The table without definitions. -/
def empty : UnitTable := ⟨.empty, .empty, 0, false⟩

/-! ### Definitions -/

/-- The table must not be frozen. -/
def requireMutable (t : UnitTable) : Except Fault Unit :=
  if t.frozen then .error .frozen else .ok ()

/-- The table with a unit, which replaces one of the same symbol. -/
def insertUnit (t : UnitTable) (symbol : String) (q : Quantity) : UnitTable :=
  { t with units := t.units.insert symbol q }

/-- The table with a factor, which replaces one of the same symbol. -/
def insertFactor (t : UnitTable) (symbol : String) (m : Magnitude) : UnitTable :=
  { t with
    factors := t.factors.insert symbol m
    longestFactor := max t.longestFactor symbol.length }

/-- Define a unit by any quantity. -/
def addUnit (t : UnitTable) (symbol : String) (value : Operand) : Except Fault UnitTable := do
  if symbol == "" then throw (.value .emptyUnitSymbol)
  match value.quantity? with
  | none => throw (.operand (.unitNotAQuantity symbol value.typeName))
  | some q =>
    t.requireMutable
    return t.insertUnit symbol q

/-- Define a factor by a number. -/
def addFactor (t : UnitTable) (symbol : String) (value : Operand) : Except Fault UnitTable := do
  if symbol == "" then throw (.value .emptyFactorSymbol)
  match value with
  | .magnitude m =>
    if !m.isScalar then throw (.operand (.factorNotANumber symbol))
    t.requireMutable
    return t.insertFactor symbol m
  | _ => throw (.operand (.factorNotANumber symbol))

/-- The table without further definitions. -/
def freeze (t : UnitTable) : UnitTable := { t with frozen := true }

/-- A table with the same definitions that takes more. -/
def copy (t : UnitTable) : UnitTable := { t with frozen := false }

/-! ### Lookup -/

/-- A factor symbol and the rest of a symbol. -/
def splitAt (symbol : String) (length : Nat) : String × String :=
  (String.ofList (symbol.toList.take length), String.ofList (symbol.toList.drop length))

/-- The unit that a symbol splits into with a factor symbol of at most the given length; longer
factors are tried first. -/
def lookupSplit (t : UnitTable) (symbol : String) : Nat → Except Fault Quantity
  | 0 => .error (.expression ⟨.unknownSymbol symbol, symbol, 0⟩)
  | length + 1 =>
    let (head, rest) := splitAt symbol (length + 1)
    match t.factors.find? head with
    | none => t.lookupSplit symbol length
    | some m =>
      if rest == "" then .error (.expression ⟨.unitMissing head, symbol, length + 1⟩)
      else
        match t.units.find? rest with
        | some q => q.numberWith .mul m
        | none => t.lookupSplit symbol length

/-- The quantity of a symbol. -/
def lookup (t : UnitTable) (symbol : String) : Except Fault Quantity :=
  match t.units.find? symbol with
  | some q => .ok q
  | none => t.lookupSplit symbol (min t.longestFactor symbol.length)

/-! ### Text -/

/-- The size and the state of the table. -/
def display (t : UnitTable) : String :=
  "<SymbolTable " ++ toString t.units.size ++ " units, " ++ toString t.factors.size
    ++ " prefixes, " ++ (if t.frozen then "frozen" else "mutable") ++ ">"

end UnitTable

end UnitCalculus
