import UnitCalculus.Proofs.Dimension.Scale
import UnitCalculus.Proofs.Formula
import UnitCalculus.Proofs.Magnitude.Ratio
import UnitCalculus.Proofs.Outcome

/-! # The choice of units

A formula over exact quantities means the same in all units.  When the unit of every symbol is
replaced by one that is `scale` times smaller, the values of the leaves are multiplied by the scales
of their dimensions, and so is the value of the formula; its dimension, its faults and the outcome
of a comparison stay as they are (`eval_rescale`).  Every operator keeps the relation
`Operand.Rescaled` between a value and the same value in other units, from magnitudes (`Times`) and
quantities up to formulas. -/

namespace UnitCalculus

open Dimension Magnitude

/-! ### Magnitudes -/

/-- The second number is the first one times `c`. -/
def Times (c : Rat) (a b : Magnitude) : Prop := ∃ v, a = ratio v ∧ b = ratio (v * c)

/-- The faults that a change of units could bring about: of dimensions, and of division. -/
def OfUnits (f : Fault) : Prop := (∃ d, f = .dimension d) ∨ f = .number .divisionByZero

/-- Both magnitudes are the same truth value. -/
def SameTruth (a b : Magnitude) : Prop := ∃ t, a = .truth t ∧ b = .truth t

theorem times_one (v : Rat) : Times 1 (ratio v) (ratio v) := ⟨v, rfl, by rw [mul_one]⟩

section times

variable {c d : Rat} {a a' b b' : Magnitude}

theorem Times.evaluate_mul (ha : Times c a a') (hb : Times d b b') :
    Lockstep (Shared OfUnits) (Times (c * d)) (Operator.mul.evaluate a b)
      (Operator.mul.evaluate a' b') := by
  obtain ⟨v, rfl, rfl⟩ := ha
  obtain ⟨w, rfl, rfl⟩ := hb
  rw [evaluate_mul_ratio, evaluate_mul_ratio]
  exact .ok ⟨v * w, rfl, by rw [mul_mul_mul_comm]⟩

theorem Times.evaluate_div (hd : d ≠ 0) (ha : Times c a a') (hb : Times d b b') :
    Lockstep (Shared OfUnits) (Times (c / d)) (Operator.div.evaluate a b)
      (Operator.div.evaluate a' b') := by
  obtain ⟨v, rfl, rfl⟩ := ha
  obtain ⟨w, rfl, rfl⟩ := hb
  rw [evaluate_div_ratio, evaluate_div_ratio]
  by_cases hw : w = 0
  · rw [if_pos hw, if_pos (by rw [hw, zero_mul])]
    exact .error ⟨Or.inr rfl⟩
  · rw [if_neg hw, if_neg (mul_ne_zero hw hd)]
    exact .ok ⟨v / w, rfl, by rw [div_mul_div_comm]⟩

/-- Sum, difference and remainder of numbers that scale alike. -/
theorem Times.evaluate_alike {o : Operator} (ho : o = .add ∨ o = .sub ∨ o = .mod) (hc : c ≠ 0)
    (ha : Times c a a') (hb : Times c b b') :
    Lockstep (Shared OfUnits) (Times c) (o.evaluate a b) (o.evaluate a' b') := by
  obtain ⟨v, rfl, rfl⟩ := ha
  obtain ⟨w, rfl, rfl⟩ := hb
  rcases ho with rfl | rfl | rfl
  · rw [evaluate_add_ratio, evaluate_add_ratio]
    exact .ok ⟨v + w, rfl, by rw [add_mul]⟩
  · rw [evaluate_sub_ratio, evaluate_sub_ratio]
    exact .ok ⟨v - w, rfl, by rw [sub_mul]⟩
  · rw [evaluate_mod_ratio, evaluate_mod_ratio]
    by_cases hw : w = 0
    · rw [if_pos hw, if_pos (by rw [hw, zero_mul])]
      exact .error ⟨Or.inr rfl⟩
    · rw [if_neg hw, if_neg (mul_ne_zero hw hc)]
      exact .ok ⟨ratioMod v w, rfl, by rw [ratioMod_mul_right hc]⟩

theorem Times.neg (ha : Times c a a') :
    Lockstep (Shared OfUnits) (Times c) (liftNumber a.neg) (liftNumber a'.neg) := by
  obtain ⟨v, rfl, rfl⟩ := ha
  exact .ok ⟨-v, rfl, by rw [neg_mul]⟩

theorem Times.pos (ha : Times c a a') :
    Lockstep (Shared OfUnits) (Times c) (liftNumber a.pos) (liftNumber a'.pos) := by
  obtain ⟨v, rfl, rfl⟩ := ha
  exact .ok ⟨v, rfl, rfl⟩

theorem Times.abs (hc : 0 < c) (ha : Times c a a') :
    Lockstep (Shared OfUnits) (Times c) (liftNumber a.abs) (liftNumber a'.abs) := by
  obtain ⟨v, rfl, rfl⟩ := ha
  rw [abs_ratio, abs_ratio]
  exact .ok ⟨|v|, rfl, by rw [abs_mul, abs_of_pos hc]⟩

theorem Times.pow (hc : c ≠ 0) (ha : Times c a a') (n : Int) :
    Lockstep (Shared OfUnits) (Times (c ^ n)) (liftNumber (a.pow (.integer n)))
      (liftNumber (a'.pow (.integer n))) := by
  obtain ⟨v, rfl, rfl⟩ := ha
  have hzero : (n < 0 ∧ v * c = 0) ↔ n < 0 ∧ v = 0 := by
    rw [mul_eq_zero, or_iff_left hc]
  rw [pow_ratio, pow_ratio]
  by_cases h : n < 0 ∧ v = 0
  · rw [if_pos h, if_pos (hzero.mpr h)]
    exact .error ⟨Or.inr rfl⟩
  · rw [if_neg h, if_neg (mt hzero.mp h)]
    exact .ok ⟨v ^ n, rfl, by rw [mul_zpow]⟩

theorem Times.relate (hc : 0 < c) (r : Relation) (ha : Times c a a') (hb : Times c b b') :
    Lockstep (Shared OfUnits) SameTruth (liftNumber (a.relate r b))
      (liftNumber (a'.relate r b')) := by
  obtain ⟨v, rfl, rfl⟩ := ha
  obtain ⟨w, rfl, rfl⟩ := hb
  rw [relate_ratio, relate_ratio, ratioOrder_mul_right hc]
  exact .ok ⟨_, rfl, rfl⟩

end times

/-! ### Quantities -/

/-- The second quantity is the first one in other units. -/
structure Quantity.Rescaled (scale : String → Rat) (q q' : Quantity) : Prop where
  dimension : q'.dimension = q.dimension
  whole : Whole q.dimension.factors
  times : Times (q.dimension.scaleBy scale) q.magnitude q'.magnitude

namespace Quantity

variable {scale : String → Rat} (hs : ∀ s, 0 < scale s) {q q' r r' : Quantity}

theorem Rescaled.requireSame (hq : Rescaled scale q q') (hr : Rescaled scale r r') :
    Lockstep (Shared OfUnits) (fun _ _ => q.dimension.same r.dimension = true)
      (q.requireSame r.dimension) (q'.requireSame r'.dimension) := by
  unfold Quantity.requireSame
  rw [hq.dimension, hr.dimension]
  split
  · next h => exact .ok h
  · exact .error ⟨Or.inl ⟨_, rfl⟩⟩

theorem Rescaled.requireBare (hq : Rescaled scale q q') :
    Lockstep (Shared OfUnits) (fun _ _ => q.dimension.scaleBy scale = 1) q.requireBare
      q'.requireBare := by
  unfold Quantity.requireBare isBare
  rw [hq.dimension]
  split
  · next h => exact .ok (scaleBy_of_isOne h)
  · exact .error ⟨Or.inl ⟨_, rfl⟩⟩

theorem rescaled_mk {d : Dimension} (hd : Whole d.factors) {a a' : Magnitude}
    (h : Times (d.scaleBy scale) a a') : Rescaled scale ⟨a, d⟩ ⟨a', d⟩ :=
  ⟨rfl, hd, h⟩

theorem Rescaled.neg (hq : Rescaled scale q q') :
    Lockstep (Shared OfUnits) (Rescaled scale) q.neg q'.neg := by
  unfold Quantity.neg
  rw [hq.dimension]
  exact hq.times.neg.bind fun _ _ h => .ok (rescaled_mk hq.whole h)

theorem Rescaled.pos (hq : Rescaled scale q q') :
    Lockstep (Shared OfUnits) (Rescaled scale) q.pos q'.pos := by
  unfold Quantity.pos
  rw [hq.dimension]
  exact hq.times.pos.bind fun _ _ h => .ok (rescaled_mk hq.whole h)

include hs

/-- Sum, difference and remainder, once a check has shown that both sides scale alike. -/
theorem Rescaled.checked {o : Operator} (ho : o = .add ∨ o = .sub ∨ o = .mod)
    (hq : Rescaled scale q q') {p : Prop} {g g' : Except Fault Unit}
    (hg : Lockstep (Shared OfUnits) (fun _ _ => p) g g') {a a' b b' : Magnitude}
    (ha : p → Times (q.dimension.scaleBy scale) a a')
    (hb : p → Times (q.dimension.scaleBy scale) b b') :
    Lockstep (Shared OfUnits) (Rescaled scale) (do g; return ⟨← o.evaluate a b, q.dimension⟩)
      (do g'; return ⟨← o.evaluate a' b', q'.dimension⟩) := by
  rw [hq.dimension]
  refine hg.bind fun _ _ hp => ?_
  exact ((ha hp).evaluate_alike ho (scaleBy_pos hs _).ne' (hb hp)).bind fun _ _ h =>
    .ok (rescaled_mk hq.whole h)

theorem Rescaled.withQuantity (hq : Rescaled scale q q') (hr : Rescaled scale r r')
    (o : Operator) : Lockstep (Shared OfUnits) (Rescaled scale) (q.withQuantity o r)
      (q'.withQuantity o r') := by
  -- the check is what makes the scales equal, so that they can be factored out
  have hright : q.dimension.same r.dimension = true →
      Times (q.dimension.scaleBy scale) r.magnitude r'.magnitude := by
    intro hsame
    rw [scaleBy_of_same hsame]
    exact hr.times
  have additive := fun ho => hq.checked hs (o := o) ho (hq.requireSame hr) (fun _ => hq.times)
    hright
  cases o with
  | add => exact additive (Or.inl rfl)
  | sub => exact additive (Or.inr (Or.inl rfl))
  | mod => exact additive (Or.inr (Or.inr rfl))
  | mul =>
    unfold Quantity.withQuantity
    rw [hq.dimension, hr.dimension]
    refine (hq.times.evaluate_mul hr.times).bind fun a a' h => .ok (rescaled_mk ?_ ?_)
    · exact hq.whole.mul hr.whole
    · rw [scaleBy_mul hs hq.whole hr.whole]
      exact h
  | div =>
    unfold Quantity.withQuantity
    rw [hq.dimension, hr.dimension]
    refine (hq.times.evaluate_div (scaleBy_pos hs _).ne' hr.times).bind fun a a' h =>
      .ok (rescaled_mk ?_ ?_)
    · exact hq.whole.div hr.whole
    · rw [scaleBy_div hs hq.whole hr.whole]
      exact h

/-- A quantity and a number.  The remainder of a quantity by a number is not the same in all
units. -/
theorem Rescaled.withNumber (hq : Rescaled scale q q') {o : Operator} (ho : o ≠ .mod) (v : Rat) :
    Lockstep (Shared OfUnits) (Rescaled scale) (q.withNumber o (ratio v))
      (q'.withNumber o (ratio v)) := by
  have additive := fun ho => hq.checked hs (o := o) ho hq.requireBare (fun _ => hq.times)
    (fun hone => hone ▸ times_one v)
  cases o with
  | add => exact additive (Or.inl rfl)
  | sub => exact additive (Or.inr (Or.inl rfl))
  | mod => exact absurd rfl ho
  | mul =>
    unfold Quantity.withNumber
    rw [hq.dimension]
    refine (hq.times.evaluate_mul (times_one v)).bind fun a a' h => .ok (rescaled_mk hq.whole ?_)
    rwa [mul_one] at h
  | div =>
    unfold Quantity.withNumber
    rw [hq.dimension]
    refine (hq.times.evaluate_div one_ne_zero (times_one v)).bind fun a a' h =>
      .ok (rescaled_mk hq.whole ?_)
    rwa [div_one] at h

theorem Rescaled.numberWith (hq : Rescaled scale q q') (o : Operator) (v : Rat) :
    Lockstep (Shared OfUnits) (Rescaled scale) (Quantity.numberWith o (ratio v) q)
      (Quantity.numberWith o (ratio v) q') := by
  have additive := fun ho => hq.checked hs (o := o) ho hq.requireBare
    (fun hone => hone ▸ times_one v) (fun _ => hq.times)
  cases o with
  | add => exact additive (Or.inl rfl)
  | sub => exact additive (Or.inr (Or.inl rfl))
  | mod => exact additive (Or.inr (Or.inr rfl))
  | mul =>
    unfold Quantity.numberWith
    rw [hq.dimension]
    refine ((times_one v).evaluate_mul hq.times).bind fun a a' h => .ok (rescaled_mk hq.whole ?_)
    rwa [one_mul] at h
  | div =>
    unfold Quantity.numberWith
    rw [hq.dimension]
    refine ((times_one v).evaluate_div (scaleBy_pos hs _).ne' hq.times).bind fun a a' h =>
      .ok (rescaled_mk hq.whole.inv ?_)
    rw [scaleBy_inv hq.whole, ← one_div]
    exact h

theorem Rescaled.abs (hq : Rescaled scale q q') :
    Lockstep (Shared OfUnits) (Rescaled scale) q.abs q'.abs := by
  unfold Quantity.abs
  rw [hq.dimension]
  exact (hq.times.abs (scaleBy_pos hs _)).bind fun _ _ h => .ok (rescaled_mk hq.whole h)

theorem Rescaled.pow (hq : Rescaled scale q q') (n : Int) :
    Lockstep (Shared OfUnits) (Rescaled scale) (q.pow n) (q'.pow n) := by
  have hinteger : ∀ m : Magnitude, powerOfMagnitude m (n : Rat) = m.pow (.integer n) := by
    intro m
    rw [powerOfMagnitude, Rat.den_intCast, Rat.num_intCast]
    rfl
  unfold Quantity.pow
  rw [hq.dimension, hinteger, hinteger]
  refine (hq.times.pow (scaleBy_pos hs _).ne' n).bind fun a a' h =>
    .ok (rescaled_mk (hq.whole.pow n) ?_)
  rw [scaleBy_pow hq.whole]
  exact h

end Quantity

/-! ### Operands -/

namespace Operand

/-- An exact value: a rational number, or a quantity with a rational value and whole powers. -/
inductive Exact : Operand → Prop
  | number (v : Rat) : Exact (.magnitude (ratio v))
  | quantity (v : Rat) {d : Dimension} (hd : Whole d.factors) : Exact (.quantity ⟨ratio v, d⟩)

/-- The value in other units: that of a quantity is multiplied by the scale of its dimension. -/
def rescale (scale : String → Rat) : Operand → Operand
  | .quantity ⟨.ratio v, d⟩ => .quantity ⟨.ratio (v * d.scaleBy scale), d⟩
  | x => x

/-- The second value is the first one in other units. -/
inductive Rescaled (scale : String → Rat) : Operand → Operand → Prop
  | number (v : Rat) : Rescaled scale (.magnitude (ratio v)) (.magnitude (ratio v))
  | quantity {q q' : Quantity} (h : q.Rescaled scale q') :
    Rescaled scale (.quantity q) (.quantity q')

variable {scale : String → Rat}

theorem Exact.rescaled {x : Operand} (h : x.Exact) : Rescaled scale x (x.rescale scale) := by
  cases h with
  | number v => exact .number v
  | quantity v hd => exact .quantity (Quantity.rescaled_mk hd ⟨v, rfl, rfl⟩)

theorem Rescaled.exact {x y : Operand} (h : Rescaled scale x y) :
    x.Exact ∧ y = x.rescale scale := by
  cases h with
  | number v => exact ⟨.number v, rfl⟩
  | @quantity q q' h =>
    obtain ⟨m, d⟩ := q
    obtain ⟨m', d'⟩ := q'
    obtain ⟨hdim, hwhole, v, hv, hv'⟩ := h
    dsimp only at hdim hwhole hv hv'
    subst hdim hv hv'
    exact ⟨.quantity v hwhole, rfl⟩

/-- One value is the other in other units, and `b` says whether they are quantities. -/
def RescaledAs (scale : String → Rat) (b : Bool) (x y : Operand) : Prop :=
  Rescaled scale x y ∧ x.quantity?.isSome = b

theorem lockstep_quantity {x y : Except Fault Quantity}
    (h : Lockstep (Shared OfUnits) (Quantity.Rescaled scale) x y) :
    Lockstep (Shared OfUnits) (RescaledAs scale true) (quantity <$> x) (quantity <$> y) :=
  h.map fun _ _ hq => ⟨.quantity hq, rfl⟩

theorem lockstep_number {x y : Except Fault Magnitude}
    (h : Lockstep (Shared OfUnits) (Times 1) x y) :
    Lockstep (Shared OfUnits) (RescaledAs scale false) (magnitude <$> x) (magnitude <$> y) := by
  refine h.map fun a a' ha => ?_
  obtain ⟨v, rfl, rfl⟩ := ha
  rw [mul_one]
  exact ⟨.number v, rfl⟩

theorem lockstep_evaluate (o : Operator) (v w : Rat) :
    Lockstep (Shared OfUnits) (Times 1) (o.evaluate (ratio v) (ratio w))
      (o.evaluate (ratio v) (ratio w)) := by
  cases o with
  | add => exact (times_one v).evaluate_alike (Or.inl rfl) one_ne_zero (times_one w)
  | sub => exact (times_one v).evaluate_alike (Or.inr (Or.inl rfl)) one_ne_zero (times_one w)
  | mod => exact (times_one v).evaluate_alike (Or.inr (Or.inr rfl)) one_ne_zero (times_one w)
  | mul => simpa using (times_one v).evaluate_mul (times_one w)
  | div => simpa using (times_one v).evaluate_div one_ne_zero (times_one w)

section operators

variable (hs : ∀ s, 0 < scale s) {x x' y y' : Operand} {b c : Bool}

include hs

theorem RescaledAs.combine {o : Operator} (ho : o = .mod → b = true → c = true)
    (hx : RescaledAs scale b x x') (hy : RescaledAs scale c y y') :
    Interning.Lockstep (Shared OfUnits) (RescaledAs scale (b || c)) (combine o x y)
      (combine o x' y') := by
  obtain ⟨hx, rfl⟩ := hx
  obtain ⟨hy, rfl⟩ := hy
  cases hx with
  | number v =>
    cases hy with
    | number w => exact .lift (lockstep_number (lockstep_evaluate o v w))
    | quantity hr => exact .lift (lockstep_quantity (hr.numberWith hs o v))
  | quantity hq =>
    cases hy with
    | number w =>
      have hmod : o ≠ .mod := fun h => Bool.noConfusion (ho h rfl)
      exact .lift (lockstep_quantity (hq.withNumber hs hmod w))
    | quantity hr => exact .lift (lockstep_quantity (hq.withQuantity hs hr o))

theorem RescaledAs.apply (u : UnaryOperator) (hx : RescaledAs scale b x x') :
    Lockstep (Shared OfUnits) (RescaledAs scale b) (u.apply x) (u.apply x') := by
  obtain ⟨hx, rfl⟩ := hx
  cases hx with
  | number v =>
    cases u with
    | neg => exact lockstep_number (times_one v).neg
    | pos => exact lockstep_number (times_one v).pos
    | abs => exact lockstep_number ((times_one v).abs one_pos)
  | quantity hq =>
    cases u with
    | neg => exact lockstep_quantity hq.neg
    | pos => exact lockstep_quantity hq.pos
    | abs => exact lockstep_quantity (hq.abs hs)

theorem RescaledAs.power (places : Int) (n : Int) (hx : RescaledAs scale b x x') :
    Lockstep (Shared OfUnits) (RescaledAs scale b) (power places x (.magnitude (.integer n)))
      (power places x' (.magnitude (.integer n))) := by
  obtain ⟨hx, rfl⟩ := hx
  cases hx with
  | number v =>
    have hpow := (times_one v).pow one_ne_zero n
    rw [one_zpow] at hpow
    exact lockstep_number hpow
  | quantity hq => exact lockstep_quantity (hq.pow hs n)

/-- The two sides of a comparison are compared in the same units. -/
theorem RescaledAs.relate (r : Relation) (hx : RescaledAs scale b x x')
    (hy : RescaledAs scale c y y') :
    Lockstep (Shared OfUnits) SameTruth (relate r x y) (relate r x' y') := by
  obtain ⟨hx, -⟩ := hx
  obtain ⟨hy, -⟩ := hy
  cases hx with
  | number v =>
    cases hy with
    | number w => exact (times_one v).relate one_pos r (times_one w)
    | @quantity q q' hr =>
      refine hr.requireBare.bind fun _ _ hone => hr.times.relate (scaleBy_pos hs _) r.swap ?_
      rw [hone]
      exact times_one v
  | @quantity q q' hq =>
    cases hy with
    | number w =>
      refine hq.requireBare.bind fun _ _ hone => hq.times.relate (scaleBy_pos hs _) r ?_
      rw [hone]
      exact times_one w
    | quantity hr =>
      refine (hq.requireSame hr).bind fun _ _ hsame => hq.times.relate (scaleBy_pos hs _) r ?_
      rw [scaleBy_of_same hsame]
      exact hr.times

end operators

end Operand

/-! ### Formulas -/

namespace Formula

/-- A formula over exact values with integer exponents, where no quantity is taken modulo a
number. -/
def Exact : Formula → Prop
  | leaf x => x.Exact
  | binary o l r => l.Exact ∧ r.Exact ∧ (o = .mod → l.isQuantity = true → r.isQuantity = true)
  | unary _ e => e.Exact
  | power e n => e.Exact ∧ ∃ k : Int, n = .integer k

/-- The formula over the leaves in other units. -/
def rescale (scale : String → Rat) : Formula → Formula
  | leaf x => leaf (x.rescale scale)
  | binary o l r => binary o (l.rescale scale) (r.rescale scale)
  | unary u e => unary u (e.rescale scale)
  | power e n => power (e.rescale scale) n

variable {scale : String → Rat} (hs : ∀ s, 0 < scale s)

include hs

theorem lockstep_eval (places : Int) (e : Formula) (he : e.Exact) :
    Interning.Lockstep (Shared OfUnits) (Operand.RescaledAs scale e.isQuantity) (e.eval places)
      ((e.rescale scale).eval places) := by
  -- the relation also says which values are quantities: remainders need that of their operands
  induction e with
  | leaf x => exact .pure ⟨he.rescaled, rfl⟩
  | binary o l r ihl ihr =>
    obtain ⟨hl, hr, ho⟩ := he
    exact (ihl hl).bind fun a a' ha => (ihr hr).bind fun b b' hb => ha.combine hs ho hb
  | unary u e ih => exact (ih he).bind fun a a' ha => .lift (ha.apply hs u)
  | power e n ih =>
    obtain ⟨he, k, rfl⟩ := he
    exact (ih he).bind fun a a' ha => .lift (ha.power hs places k)

theorem lockstep_relate (places : Int) (r : Relation) {l e : Formula} (hl : l.Exact)
    (he : e.Exact) :
    Interning.Lockstep (Shared OfUnits) SameTruth
      (l.relate places r e) ((l.rescale scale).relate places r (e.rescale scale)) :=
  (lockstep_eval hs places l hl).bind fun _ _ ha =>
    (lockstep_eval hs places e he).bind fun _ _ hb => .lift (ha.relate hs r hb)

/-- The choice of units does not matter.  A formula over the leaves in other units has the value of
the formula in those units, a quantity of the same dimension or the same number, or it has the same
fault, which is one of dimensions or of a division by zero; and a comparison of two formulas has the
same outcome.  The symbols may have any ranks. -/
theorem eval_rescale (places : Int) (ks : Kinds) :
    (∀ e : Formula, e.Exact →
      (∃ x : Operand, x.Exact ∧ Interning.runWith ks (e.eval places) = (.ok x, ks) ∧
        Interning.runWith ks ((e.rescale scale).eval places) = (.ok (x.rescale scale), ks)) ∨
      ∃ f, OfUnits f ∧ Interning.runWith ks (e.eval places) = (.error f, ks) ∧
        Interning.runWith ks ((e.rescale scale).eval places) = (.error f, ks)) ∧
    ∀ (r : Relation) (l e : Formula), l.Exact → e.Exact →
      (∃ t, Interning.runWith ks (l.relate places r e) = (.ok (.truth t), ks) ∧
        Interning.runWith ks ((l.rescale scale).relate places r (e.rescale scale)) =
          (.ok (.truth t), ks)) ∨
      ∃ f, OfUnits f ∧ Interning.runWith ks (l.relate places r e) = (.error f, ks) ∧
        Interning.runWith ks ((l.rescale scale).relate places r (e.rescale scale)) =
          (.error f, ks) := by
  constructor
  · intro e he
    obtain ⟨u, v, hu, hv, huv⟩ := lockstep_eval hs places e he ks
    cases huv with
    | ok h =>
      obtain ⟨hx, rfl⟩ := h.1.exact
      exact Or.inl ⟨_, hx, hu, hv⟩
    | error hf =>
      obtain ⟨hf⟩ := hf
      exact Or.inr ⟨_, hf, hu, hv⟩
  · intro r l e hl he
    obtain ⟨u, v, hu, hv, huv⟩ := lockstep_relate hs places r hl he ks
    cases huv with
    | ok h =>
      obtain ⟨t, rfl, rfl⟩ := h
      exact Or.inl ⟨t, hu, hv⟩
    | error hf =>
      obtain ⟨hf⟩ := hf
      exact Or.inr ⟨_, hf, hu, hv⟩

omit hs

/-- Lengths in centimetres, everything else as it is. -/
def centimetres (symbol : String) : Rat := if symbol = "L" then 100 else 1

/-- The square of what is left of three halves of a metre after whole metres, in four seconds. -/
def areaRate : Formula :=
  .binary .div
    (.power
      (.binary .mod (.leaf (.quantity ⟨.ratio (3 / 2), .base "L" none⟩))
        (.leaf (.quantity ⟨.ratio 1, .base "L" none⟩)))
      (.integer 2))
    (.leaf (.quantity ⟨.ratio 4, .base "T" none⟩))

theorem areaRate_in_centimetres : (∀ s, 0 < centimetres s) ∧ areaRate.Exact ∧
    (∃ x : Operand, Interning.runWith .empty (areaRate.eval 6) = (.ok x, .empty) ∧
      Interning.runWith .empty ((areaRate.rescale centimetres).eval 6) =
        (.ok (x.rescale centimetres), .empty)) ∧
    ∃ t, Interning.runWith .empty (areaRate.relate 6 .le areaRate) = (.ok (.truth t), .empty) ∧
      Interning.runWith .empty ((areaRate.rescale centimetres).relate 6 .le
        (areaRate.rescale centimetres)) = (.ok (.truth t), .empty) := by
  have hs : ∀ s, 0 < centimetres s := by
    intro s
    unfold centimetres
    split <;> norm_num
  have hexact : areaRate.Exact := by
    refine ⟨⟨⟨.quantity _ ?_, .quantity _ ?_, fun _ _ => rfl⟩, 2, rfl⟩, .quantity _ ?_,
      fun _ _ => rfl⟩ <;> decide +kernel
  have hvalue : (Interning.runWith .empty (areaRate.eval 6)).1.toBool = true := by decide +kernel
  have hle : (Interning.runWith .empty (areaRate.relate 6 .le areaRate)).1.toBool = true := by
    decide +kernel
  obtain ⟨heval, hrelate⟩ := eval_rescale hs 6 .empty
  refine ⟨hs, hexact, ?_, ?_⟩
  · rcases heval areaRate hexact with ⟨x, -, hx, hx'⟩ | ⟨f, -, hf, -⟩
    · exact ⟨x, hx, hx'⟩
    · rw [hf] at hvalue
      cases hvalue
  · rcases hrelate .le areaRate areaRate hexact hexact with ht | ⟨f, -, hf, -⟩
    · exact ht
    · rw [hf] at hle
      cases hle

end Formula

end UnitCalculus
