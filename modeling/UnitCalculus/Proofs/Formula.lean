import UnitCalculus.Operand

/-! # Formulas

A formula combines values by the operators of `Operand`.  `Formula.eval` applies them from the
leaves to the root, left operands first, and stops at the first fault; `Formula.relate` compares two
formulas at the root. -/

namespace UnitCalculus

/-- The operators that take one operand. -/
inductive UnaryOperator where
  | neg
  | pos
  | abs
  deriving DecidableEq, Repr

/-- The operator on a value. -/
def UnaryOperator.apply : UnaryOperator → Operand → Except Fault Operand
  | neg => Operand.neg
  | pos => Operand.pos
  | abs => Operand.abs

/-- A tree of operators over values. -/
inductive Formula where
  | leaf (x : Operand)
  | binary (o : Operator) (l r : Formula)
  | unary (u : UnaryOperator) (e : Formula)
  | power (e : Formula) (n : Magnitude)

namespace Formula

/-- The value of a formula. -/
def eval (places : Int) : Formula → Interning Operand
  | leaf x => return x
  | binary o l r => do
    let a ← l.eval places
    let b ← r.eval places
    Operand.combine o a b
  | unary u e => do
    let a ← e.eval places
    .lift (u.apply a)
  | power e n => do
    let a ← e.eval places
    .lift (Operand.power places a (.magnitude n))

/-- Whether a relation holds between the values of two formulas. -/
def relate (places : Int) (r : Relation) (l e : Formula) : Interning Magnitude := do
  let a ← l.eval places
  let b ← e.eval places
  .lift (Operand.relate r a b)

/-- Whether the formula has a quantity among its leaves, so that its value is one. -/
def isQuantity : Formula → Bool
  | leaf x => x.quantity?.isSome
  | binary _ l r => l.isQuantity || r.isQuantity
  | unary _ e => e.isQuantity
  | power e _ => e.isQuantity

end Formula

end UnitCalculus
