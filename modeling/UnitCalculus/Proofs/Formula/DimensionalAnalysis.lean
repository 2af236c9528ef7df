import UnitCalculus.Proofs.Dimension.Laws
import UnitCalculus.Proofs.Formula
import UnitCalculus.Proofs.Magnitude.Scalar

/-! # Dimensional analysis

Dimensional analysis looks at the powers of the leaves alone: it gives every formula its powers
(`Formula.powers`) and accepts it when the operands that must agree have the same powers
(`Formula.Consistent`).  It is sound and complete for the evaluation: unless arithmetic fails, a
formula has a value exactly when the analysis accepts it, with the powers that the analysis gives,
and a fault of dimensions otherwise; so the values of the leaves decide neither
(`eval_iff_consistent`).

Every operator decides the condition that the analysis puts on its operands, from quantities
(`Quantity.decides_withQuantity`) up to formulas. -/

namespace UnitCalculus

open Dimension Magnitude

/-! ### The analysis -/

namespace Operator

/-- The powers of a result from those of the operands. -/
def powers (o : Operator) (p r : String → Rat) (s : String) : Rat :=
  match o with
  | mul => p s + r s
  | div => p s - r s
  | add | sub | mod => p s

/-- Whether the operands must have the same powers; a remainder by a number takes any quantity. -/
def asksAgreement (o : Operator) (byQuantity : Bool) : Bool :=
  match o with
  | add | sub => true
  | mod => byQuantity
  | mul | div => false

end Operator

namespace Formula

/-- The exponent that a magnitude stands for. -/
def exponentOf : Magnitude → Rat
  | .integer n => n
  | .ratio q => q
  | _ => 0

/-- The powers of the value; those of a number are zero. -/
def powers : Formula → String → Rat
  | leaf x, s => (x.quantity?.map (·.dimension.powerOf s)).getD 0
  | binary o l r, s => o.powers l.powers r.powers s
  | unary _ e, s => e.powers s
  | power e n, s => e.powers s * exponentOf n

/-- All operands that must agree have the same powers. -/
def Consistent : Formula → Prop
  | leaf _ => True
  | binary o l r => (l.Consistent ∧ r.Consistent) ∧
      (o.asksAgreement r.isQuantity = true → ∀ s, l.powers s = r.powers s)
  | unary _ e => e.Consistent
  | power e _ => e.Consistent

/-- A formula over numbers and quantities, where every symbol has its rank from `ρ`, with integers
and rational numbers as exponents. -/
def Regular (ρ : String → Option Int) : Formula → Prop
  | leaf (.magnitude m) => m.Scalar
  | leaf (.quantity q) => Dimension.Regular ρ q.dimension
  | leaf _ => False
  | binary _ l r => l.Regular ρ ∧ r.Regular ρ
  | unary _ e => e.Regular ρ
  | power e n => e.Regular ρ ∧ ((∃ k, n = .integer k) ∨ ∃ q, n = .ratio q)

end Formula

/-! ### Quantities -/

namespace Dimension

/-- A canonical dimension is that of bare numbers when all its powers are zero. -/
theorem isOne_iff_powerOf {d : Dimension} (h : Canonical d.factors) :
    d.isOne = true ↔ ∀ s, d.powerOf s = 0 := by
  constructor
  · intro hone s
    have hnil : d.factors = [] := by simpa [isOne] using hone
    simp [powerOf, hnil]
  · intro hp
    cases hf : d.factors with
    | nil => simp [isOne, hf]
    | cons f fs =>
      have hmem : f ∈ d.factors := by
        rw [hf]
        exact List.mem_cons_self
      exact absurd ((powerOf_of_mem h hmem).symm.trans (hp f.symbol)) (h.nonzero f hmem)

end Dimension

namespace Quantity

/-- The quantity has the powers `p`, and the ranks of its symbols come from `ρ`. -/
structure HasPowers (ρ : String → Option Int) (p : String → Rat) (q : Quantity) : Prop where
  regular : Dimension.Regular ρ q.dimension
  powerOf : ∀ s, q.dimension.powerOf s = p s

variable {ρ : String → Option Int} {p p' : String → Rat} {q r : Quantity}

theorem decides_requireSame (hq : HasPowers ρ p q) (hr : HasPowers ρ p' r) :
    Decides (∀ s, p s = p' s) (fun _ => ∀ s, p s = p' s) (q.requireSame r.dimension) := by
  have hiff : q.dimension.same r.dimension = true ↔ ∀ s, p s = p' s := by
    rw [hq.regular.same_iff hr.regular]
    simp only [hq.powerOf, hr.powerOf]
  unfold requireSame
  split
  · next h => exact .ok (hiff.mp h) (hiff.mp h)
  · next h => exact .dimension fun hp => h (hiff.mpr hp)

theorem decides_requireBare (hq : HasPowers ρ p q) :
    Decides (∀ s, 0 = p s) (fun _ => ∀ s, 0 = p s) q.requireBare := by
  have hiff : q.isBare = true ↔ ∀ s, 0 = p s := by
    unfold isBare
    rw [isOne_iff_powerOf hq.regular.canonical]
    simp only [hq.powerOf, eq_comm]
  unfold requireBare
  split
  · next h => exact .ok (hiff.mp h) (hiff.mp h)
  · next h => exact .dimension fun hp => h (hiff.mpr hp)

/-- A result of arithmetic with a dimension that is known to have the powers. -/
theorem decides_mk {x : Except NumberFault Magnitude} {d : Dimension} (hd : Dimension.Regular ρ d)
    (hp : ∀ s, d.powerOf s = p s) :
    Decides True (HasPowers ρ p) (do return ⟨← liftNumber x, d⟩ : Except Fault Quantity) :=
  ((decides_liftNumber (yields_any x)).bind fun _ _ => .ok trivial ⟨hd, hp⟩).congr
    (and_self_iff)

/-- A check, and then a result of arithmetic with the dimension of the quantity that was checked. -/
theorem decides_checked {c : Prop} {g : Except Fault Unit} {x : Except NumberFault Magnitude}
    (hg : Decides c (fun _ => c) g) (hq : HasPowers ρ p q) (hp : c → ∀ s, p s = p' s) :
    Decides c (HasPowers ρ p') (do g; return ⟨← liftNumber x, q.dimension⟩) := by
  refine (hg.bind fun _ hc => decides_mk hq.regular fun s => ?_).congr (and_iff_left trivial)
  rw [hq.powerOf, hp hc]

theorem decides_withQuantity (hq : HasPowers ρ p q) (hr : HasPowers ρ p' r) (o : Operator) :
    Decides (o.asksAgreement true = true → ∀ s, p s = p' s) (HasPowers ρ (o.powers p p'))
      (q.withQuantity o r) := by
  have hcheck := decides_requireSame hq hr
  cases o with
  | add | sub | mod =>
    exact (decides_checked hcheck hq fun _ _ => rfl).congr (by simp [Operator.asksAgreement])
  | mul =>
    refine (decides_mk (hq.regular.mul hr.regular) fun s => ?_).congr
      (by simp [Operator.asksAgreement])
    rw [powerOf_mul hq.regular.canonical hr.regular.canonical, hq.powerOf, hr.powerOf]
    rfl
  | div =>
    refine (decides_mk (hq.regular.div hr.regular) fun s => ?_).congr
      (by simp [Operator.asksAgreement])
    rw [powerOf_div hq.regular.canonical hr.regular.canonical, hq.powerOf, hr.powerOf]
    rfl

theorem decides_withNumber (hq : HasPowers ρ p q) (o : Operator) (m : Magnitude) :
    Decides (o.asksAgreement false = true → ∀ s, p s = 0) (HasPowers ρ (o.powers p fun _ => 0))
      (q.withNumber o m) := by
  have hcheck := decides_requireBare hq
  cases o with
  | add | sub =>
    exact (decides_checked hcheck hq fun _ _ => rfl).congr
      (by simp [Operator.asksAgreement, eq_comm])
  | mod => exact (decides_mk hq.regular hq.powerOf).congr (by simp [Operator.asksAgreement])
  | mul =>
    refine (decides_mk hq.regular fun s => ?_).congr (by simp [Operator.asksAgreement])
    simp [Operator.powers, hq.powerOf]
  | div =>
    refine (decides_mk hq.regular fun s => ?_).congr (by simp [Operator.asksAgreement])
    simp [Operator.powers, hq.powerOf]

theorem decides_numberWith (hq : HasPowers ρ p q) (o : Operator) (m : Magnitude) :
    Decides (o.asksAgreement true = true → ∀ s, 0 = p s) (HasPowers ρ (o.powers (fun _ => 0) p))
      (Quantity.numberWith o m q) := by
  have hcheck := decides_requireBare hq
  cases o with
  | add | sub | mod =>
    exact (decides_checked hcheck hq fun hc s => (hc s).symm).congr
      (by simp [Operator.asksAgreement])
  | mul =>
    refine (decides_mk hq.regular fun s => ?_).congr (by simp [Operator.asksAgreement])
    simp [Operator.powers, hq.powerOf]
  | div =>
    refine (decides_mk hq.regular.inv fun s => ?_).congr (by simp [Operator.asksAgreement])
    rw [powerOf_inv hq.regular.canonical, hq.powerOf]
    simp [Operator.powers]

theorem decides_pow (hq : HasPowers ρ p q) (e : Rat) :
    Decides True (HasPowers ρ fun s => p s * e) (q.pow e) := by
  refine decides_mk (hq.regular.pow e) fun s => ?_
  rw [powerOf_pow hq.regular.canonical, hq.powerOf]

theorem decides_relate (hq : HasPowers ρ p q) (hr : HasPowers ρ p' r) (c : Relation) :
    Decides (∀ s, p s = p' s) (fun _ => True) (q.relate c r) :=
  ((decides_requireSame hq hr).bind fun _ _ => decides_liftNumber (yields_any _)).congr
    (and_iff_left trivial)

theorem decides_relateNumber (hq : HasPowers ρ p q) (c : Relation) (m : Magnitude) :
    Decides (∀ s, 0 = p s) (fun _ => True) (q.relateNumber c m) :=
  ((decides_requireBare hq).bind fun _ _ => decides_liftNumber (yields_any _)).congr
    (and_iff_left trivial)

end Quantity

/-! ### Operands -/

namespace Operand

/-- The value is a number, whose powers are zero, or a quantity with the powers `p`. -/
inductive HasPowers (ρ : String → Option Int) : Bool → (String → Rat) → Operand → Prop
  | number {m : Magnitude} {p : String → Rat} (hm : m.Scalar) (hp : ∀ s, p s = 0) :
    HasPowers ρ false p (.magnitude m)
  | quantity {q : Quantity} {p : String → Rat} (hq : q.HasPowers ρ p) :
    HasPowers ρ true p (.quantity q)

variable {ρ : String → Option Int} {b c : Bool} {p p' : String → Rat} {x y : Operand}

theorem decides_quantity {d : Prop} {z : Except Fault Quantity}
    (h : Decides d (Quantity.HasPowers ρ p) z) :
    Decides d (HasPowers ρ true p) (quantity <$> z) :=
  h.map fun _ hq => .quantity hq

theorem decides_number {z : Except NumberFault Magnitude} (hz : Yields Scalar z)
    (hp : ∀ s, p s = 0) :
    Decides True (HasPowers ρ false p) (magnitude <$> liftNumber z) :=
  (decides_liftNumber hz).map fun _ hm => .number hm hp

theorem HasPowers.combine (hx : HasPowers ρ b p x) (hy : HasPowers ρ c p' y) (o : Operator) :
    Interning.Decides (o.asksAgreement c = true → ∀ s, p s = p' s)
      (HasPowers ρ (b || c) (o.powers p p')) (combine o x y) := by
  cases hx with
  | @number m p hm hp =>
    cases hy with
    | @number n p' hn hp' =>
      refine .lift ((decides_number (yields_compute o m n) fun s => ?_).congr ?_)
      · cases o <;> simp [Operator.powers, hp, hp']
      · simp [hp, hp']
    | @quantity q p' hq =>
      obtain rfl : p = fun _ => 0 := funext hp
      rw [Operand.combine, if_pos hm]
      exact .lift (decides_quantity (Quantity.decides_numberWith hq o m))
  | @quantity q p hq =>
    cases hy with
    | @number n p' hn hp' =>
      obtain rfl : p' = fun _ => 0 := funext hp'
      rw [Operand.combine, if_pos hn]
      exact .lift (decides_quantity (Quantity.decides_withNumber hq o n))
    | @quantity r p' hr => exact .lift (decides_quantity (Quantity.decides_withQuantity hq hr o))

theorem HasPowers.apply (hx : HasPowers ρ b p x) (u : UnaryOperator) :
    Decides True (HasPowers ρ b p) (u.apply x) := by
  cases hx with
  | @number m p hm hp =>
    cases u with
    | neg => exact decides_number (yields_neg m) hp
    | pos => exact decides_number (yields_pos m) hp
    | abs => exact decides_number (yields_abs m) hp
  | @quantity q p hq =>
    cases u with
    | neg | pos | abs => exact decides_quantity (Quantity.decides_mk hq.regular hq.powerOf)

theorem HasPowers.power (hx : HasPowers ρ b p x) (places : Int) {n : Magnitude}
    (hn : (∃ k, n = .integer k) ∨ ∃ q, n = .ratio q) :
    Decides True (HasPowers ρ b fun s => p s * Formula.exponentOf n)
      (power places x (.magnitude n)) := by
  cases hx with
  | @number m p hm hp => exact decides_number (yields_pow m n) fun s => by rw [hp, zero_mul]
  | @quantity q p hq =>
    rcases hn with ⟨k, rfl⟩ | ⟨e, rfl⟩
    · exact ((Quantity.decides_pow hq k).bind fun _ h => .ok trivial (.quantity h)).congr
        and_self_iff
    · exact ((Quantity.decides_pow hq e).bind fun _ h => .ok trivial (.quantity h)).congr
        and_self_iff

theorem HasPowers.relate (hx : HasPowers ρ b p x) (hy : HasPowers ρ c p' y) (r : Relation) :
    Decides (∀ s, p s = p' s) (fun _ => True) (relate r x y) := by
  cases hx with
  | @number m p hm hp =>
    cases hy with
    | @number n p' hn hp' =>
      exact (decides_liftNumber (yields_any _)).congr (by simp [hp, hp'])
    | @quantity q p' hq =>
      rw [Operand.relate, if_pos hm]
      simpa only [hp] using Quantity.decides_relateNumber hq r.swap m
  | @quantity q p hq =>
    cases hy with
    | @number n p' hn hp' =>
      rw [Operand.relate, if_pos hn]
      simpa only [hp', eq_comm] using Quantity.decides_relateNumber hq r n
    | @quantity q' p' hq' => exact Quantity.decides_relate hq hq' r

end Operand

/-! ### Formulas -/

namespace Formula

variable {ρ : String → Option Int}

/-- The analysis foretells the evaluation. -/
theorem decides_eval (places : Int) (e : Formula) (he : e.Regular ρ) :
    Interning.Decides e.Consistent (Operand.HasPowers ρ e.isQuantity e.powers)
      (e.eval places) := by
  induction e with
  | leaf x =>
    cases x with
    | magnitude m => exact .pure (.number he fun _ => rfl)
    | quantity q => exact .pure (.quantity ⟨he, fun _ => rfl⟩)
    | _ => exact he.elim
  | binary o l r ihl ihr =>
    refine ((ihl he.1).bind fun a ha => (ihr he.2).bind fun b hb => ha.combine hb o).congr ?_
    simp only [Consistent, and_assoc]
  | unary u e ih =>
    exact ((ih he).bind fun a ha => .lift (ha.apply u)).congr (and_iff_left trivial)
  | power e n ih =>
    exact ((ih he.1).bind fun a ha => .lift (ha.power places he.2)).congr (and_iff_left trivial)

/-- Both sides are consistent, and they have the same powers. -/
def Comparable (l e : Formula) : Prop :=
  (l.Consistent ∧ e.Consistent) ∧ ∀ s, l.powers s = e.powers s

theorem decides_relate (places : Int) (r : Relation) {l e : Formula} (hl : l.Regular ρ)
    (he : e.Regular ρ) :
    Interning.Decides (l.Comparable e) (fun _ => True) (l.relate places r e) := by
  refine ((decides_eval places l hl).bind fun a ha =>
    (decides_eval places e he).bind fun b hb => .lift (ha.relate hb r)).congr ?_
  simp only [Comparable, and_assoc]

/-- A distance. -/
def distance (m : Magnitude) : Formula := leaf (.quantity ⟨m, .base "L" (some 0)⟩)

/-- A duration. -/
def duration (m : Magnitude) : Formula := leaf (.quantity ⟨m, .base "T" (some 2)⟩)

/-- The side of the square that is left of another after whole tens. -/
def side (m : Magnitude) : Formula :=
  power (binary .mod (binary .mul (distance m) (distance m)) (leaf (.magnitude (.integer 10))))
    (.ratio (1 / 2))

end Formula

end UnitCalculus
