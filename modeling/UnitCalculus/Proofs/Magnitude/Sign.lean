import UnitCalculus.Proofs.Decimal.Sign
import UnitCalculus.Proofs.Magnitude.Unity
import UnitCalculus.Proofs.SI

/-! # Values without a sign

The values of units are the number one and floating-point numbers without a sign.  Products,
quotients and powers of such values are such values again (`yields_mul_oneOrFloat`,
`yields_div_oneOrFloat`, `yields_powerOfMagnitude_unsigned`); fractional powers are too, which of
numbers below zero are complex.  So no unit expression stands for a complex number
(`UnitTable.Unsigned.yields_readUnit`).  A quantity is a number, of any sign, times a unit
(`UnitTable.Unsigned.yields_read`), and in another unit it is a floating-point number
(`yields_inUnitsOf`). -/

namespace UnitCalculus

open Expression Expression.Derivation

namespace Magnitude

/-! ### The number one and floating-point numbers -/

/-- The magnitude is the number one or a floating-point number, with the property `P`. -/
inductive OneOrFloat (P : Float → Prop) : Magnitude → Prop
  | one (h : P 1.0) : OneOrFloat P (integer 1)
  | real {x : Float} (h : P x) : OneOrFloat P (real x)
  | unchecked {x : Float} (h : P x) : OneOrFloat P (unchecked x)

/-- The magnitude is a floating-point number, with the property `P`. -/
inductive Floating (P : Float → Prop) : Magnitude → Prop
  | real {x : Float} (h : P x) : Floating P (real x)
  | unchecked {x : Float} (h : P x) : Floating P (unchecked x)

/-- The two aligned magnitudes are ones or floating-point numbers, with the properties `P` and
`Q`. -/
inductive Aligned.OneOrFloat (P Q : Float → Prop) : Aligned → Prop
  | ones (hp : P 1.0) (hq : Q 1.0) : Aligned.OneOrFloat P Q (.integers 1 1)
  | reals {x y : Float} (hp : P x) (hq : Q y) : Aligned.OneOrFloat P Q (.reals x y)
  | uncheckeds {x y : Float} (hp : P x) (hq : Q y) : Aligned.OneOrFloat P Q (.uncheckeds x y)

theorem Floating.oneOrFloat {P : Float → Prop} {m : Magnitude} (h : m.Floating P) :
    m.OneOrFloat P := by
  cases h with
  | real h => exact .real h
  | unchecked h => exact .unchecked h

theorem OneOrFloat.exists_toFloat {P : Float → Prop} {m : Magnitude} (h : m.OneOrFloat P) :
    ∃ x, m.toFloat = .ok x := by
  cases h with
  | one => exact ⟨1.0, floatOfInt_one⟩
  | real => exact ⟨_, rfl⟩
  | unchecked => exact ⟨_, rfl⟩

theorem OneOrFloat.isWritable {P : Float → Prop} {m : Magnitude} (h : m.OneOrFloat P) :
    m.isWritable = true := by
  cases h with
  | one => exact Decimal.isWritable_of_lt (by decide +kernel)
  | real => rfl
  | unchecked => rfl

section operations

variable {P Q R : Float → Prop} {m n : Magnitude}

theorem exists_align (hm : m.OneOrFloat P) (hn : n.OneOrFloat Q) :
    ∃ a, align m n = .ok a ∧ a.OneOrFloat P Q := by
  cases hm with
  | one hx =>
    cases hn with
    | one hy => exact ⟨_, rfl, .ones hx hy⟩
    | real hy => exact ⟨_, by simp only [align, numeric, floatOfInt_one]; rfl, .reals hx hy⟩
    | unchecked hy =>
      exact ⟨_, by simp only [align, numeric, floatOfInt_one]; rfl, .uncheckeds hx hy⟩
  | real hx =>
    cases hn with
    | one hy => exact ⟨_, by simp only [align, numeric, floatOfInt_one]; rfl, .reals hx hy⟩
    | real hy => exact ⟨_, rfl, .reals hx hy⟩
    | unchecked hy => exact ⟨_, rfl, .uncheckeds hx hy⟩
  | unchecked hx =>
    cases hn with
    | one hy => exact ⟨_, by simp only [align, numeric, floatOfInt_one]; rfl, .uncheckeds hx hy⟩
    | real hy => exact ⟨_, rfl, .uncheckeds hx hy⟩
    | unchecked hy => exact ⟨_, rfl, .uncheckeds hx hy⟩

theorem yields_mul_oneOrFloat (hm : m.OneOrFloat P) (hn : n.OneOrFloat Q) (hone : R 1.0)
    (h : ∀ x y, P x → Q y → R (x * y)) : Yields (OneOrFloat R) (m.mul n) := by
  obtain ⟨a, ha, hpair⟩ := exists_align hm hn
  rw [mul, ha]
  cases hpair with
  | ones _ _ => exact yields_ok (.one hone)
  | reals hx hy => exact yields_ok (.real (h _ _ hx hy))
  | uncheckeds hx hy => exact yields_ok (.unchecked (h _ _ hx hy))

theorem quotient?_one : Decimal.quotient? 1 1 = some 1.0 := by decide +kernel

/-- A quotient is a floating-point number, also one of ones. -/
theorem yields_div_oneOrFloat (hm : m.OneOrFloat P) (hn : n.OneOrFloat Q) (hone : R 1.0)
    (h : ∀ x y, P x → Q y → R (x / y)) : Yields (Floating R) (m.div n) := by
  obtain ⟨a, ha, hpair⟩ := exists_align hm hn
  rw [div, ha, ok_bind]
  cases hpair with
  | ones _ _ =>
    simp only [Aligned.quotient, quotient?_one]
    exact yields_ok (.real hone)
  | reals hx hy =>
    rw [Aligned.quotient]
    split
    · exact yields_error _
    · exact yields_ok (.real (h _ _ hx hy))
  | uncheckeds hx hy => exact yields_ok (.unchecked (h _ _ hx hy))

/-! ### Powers -/

/-- The magnitude is the number one or a floating-point number without a sign. -/
abbrev Unsigned (m : Magnitude) : Prop := m.OneOrFloat Decimal.Unsigned

theorem unsigned_iff {m : Magnitude} : m.Unsigned ↔
    (match m with
      | integer n => n == 1
      | real x | unchecked x => !Decimal.signBit x
      | _ => false) = true := by
  constructor
  · rintro (_ | hx | hx)
    · rfl
    · simpa [Decimal.Unsigned] using hx
    · simpa [Decimal.Unsigned] using hx
  · intro h
    split at h
    · rw [eq_of_beq h]
      exact .one Decimal.unsigned_one
    · exact .real (by simpa [Decimal.Unsigned] using h)
    · exact .unchecked (by simpa [Decimal.Unsigned] using h)
    · cases h

instance (m : Magnitude) : Decidable m.Unsigned := decidable_of_iff' _ unsigned_iff

theorem yields_checkedPow_unsigned {x : Float} (hx : Decimal.Unsigned x) (y : Float) :
    Yields Unsigned (checkedPow x y) := by
  unfold checkedPow
  split
  · exact yields_error _
  · split
    · next h =>
      simp only [Bool.and_eq_true, decide_eq_true_eq] at h
      exact absurd h.1.1.1 hx.not_neg
    · dsimp only
      split
      · exact yields_error _
      · exact yields_ok (.real (hx.floatPow y))

theorem yields_pow_integer_unsigned (hm : m.Unsigned) (k : Int) :
    Yields Unsigned (m.pow (integer k)) := by
  cases hm with
  | one h =>
    show Yields Unsigned (Aligned.integers 1 k).power
    unfold Aligned.power
    dsimp only
    split
    · have hone : integerPow 1 k.toNat = 1 := rfl
      rw [hone]
      exact yields_ok (.one h)
    · rw [floatOfInt_one, ok_bind]
      exact (yields_any _).bind fun y _ => yields_checkedPow_unsigned h y
  | @real x hx =>
    show Yields Unsigned (((Aligned.reals x ·) <$> floatOfInt k) >>= Aligned.power)
    cases floatOfInt k with
    | error f => exact yields_error f
    | ok y => exact yields_checkedPow_unsigned hx y
  | @unchecked x hx =>
    show Yields Unsigned (((Aligned.uncheckeds x ·) <$> floatOfInt k) >>= Aligned.power)
    cases floatOfInt k with
    | error f => exact yields_error f
    | ok y => exact yields_ok (.unchecked (hx.floatPow y))

theorem yields_pow_real_unsigned (hm : m.Unsigned) (y : Float) :
    Yields Unsigned (m.pow (real y)) := by
  obtain ⟨a, ha, hpair⟩ := exists_align (P := Decimal.Unsigned) hm
    (OneOrFloat.real (P := fun z => z = y) rfl)
  have hpow : m.pow (real y) = a.power := by
    cases hm <;> exact congrArg (· >>= Aligned.power) ha
  rw [hpow]
  cases hpair with
  | ones h _ =>
    unfold Aligned.power
    exact yields_ok (.one h)
  | reals hx _ => exact yields_checkedPow_unsigned hx _
  | uncheckeds hx _ => exact yields_ok (.unchecked (hx.floatPow _))

theorem yields_powerOfMagnitude_unsigned (hm : m.Unsigned) (e : Rat) :
    Yields Unsigned (Quantity.powerOfMagnitude m e) := by
  unfold Quantity.powerOfMagnitude
  split
  · exact yields_pow_integer_unsigned hm e.num
  · split
    · exact yields_pow_real_unsigned hm _
    · exact yields_error _

end operations

end Magnitude

open Magnitude

/-! ### What is read -/

/-- The value of a quantity in units of another. -/
theorem yields_inUnitsOf {P : Float → Prop} {q u : Quantity} (hq : q.magnitude.OneOrFloat P)
    (hu : u.magnitude.Unsigned) :
    Yields (Floating fun _ => True) (q.inUnitsOf u) :=
  (yields_any _).bind fun _ _ =>
    yields_liftNumber (yields_div_oneOrFloat hq hu trivial fun _ _ _ _ => trivial)

namespace UnitTable

/-- The values of the units and the factors have no sign. -/
structure Unsigned (t : UnitTable) : Prop where
  units : ∀ u ∈ t.units.entries, u.2.magnitude.Unsigned
  factors : ∀ f ∈ t.factors.entries, f.2.Unsigned

section reading

variable {t : UnitTable}

theorem Unsigned.compositional (ht : t.Unsigned) :
    Compositional t fun _ q => q.magnitude.Unsigned where
  symbol s := yields_lookup_of (P := fun q => q.magnitude.Unsigned) ht.units
    (fun f hf _ hq => (yields_liftNumber (yields_mul_oneOrFloat (ht.factors f hf) hq
      Decimal.unsigned_one fun _ _ hx hy => hx.mul hy)).bind fun _ hm => yields_ok hm) s.1.text
  pow _ _ e hq :=
    (yields_liftNumber (yields_powerOfMagnitude_unsigned hq e.value)).bind fun _ hm => yields_ok hm
  sign s _ _ q r hq hr := by
    rcases signOperator_eq s with h | h <;> rw [h]
    · exact (yields_liftNumber (yields_mul_oneOrFloat hq hr Decimal.unsigned_one
        fun _ _ hx hy => hx.mul hy)).bind fun _ hm => yields_ok hm
    · exact (yields_liftNumber (yields_div_oneOrFloat hq hr Decimal.unsigned_one
        fun _ _ hx hy => hx.div hy)).bind fun _ hm => yields_ok hm.oneOrFloat

theorem Unsigned.yields_readUnit (ht : t.Unsigned) (text : String) :
    Yields (fun q => q.magnitude.Unsigned) (readUnit t text) := by
  intro q hq
  obtain ⟨p, -, hp⟩ := exists_derivation hq
  cases p with
  | none =>
    cases hp
    exact .one Decimal.unsigned_one
  | some p => exact ht.compositional.product p q hp

theorem Unsigned.yields_read (ht : t.Unsigned) (text : String) :
    Yields (fun q => q.magnitude.OneOrFloat fun _ => True) (Expression.read t .decimal text) := by
  intro q hq
  obtain ⟨m, rest, hm, hq⟩ := exists_of_read hq
  have hnumber : m.OneOrFloat fun _ => True := by
    rcases hm with rfl | ⟨x, rfl⟩
    · exact .one trivial
    · exact .real trivial
  rcases hq with rfl | ⟨u, hu, hq⟩
  · exact hnumber
  · have htimes := yields_liftNumber (yields_mul_oneOrFloat hnumber
      (ht.yields_readUnit rest u hu) (R := fun _ => True) trivial fun _ _ _ _ => trivial)
    exact (htimes.bind (S := fun q => q.magnitude.OneOrFloat fun _ => True)
      fun _ hm => yields_ok hm) q hq

end reading

end UnitTable

theorem SI.unsigned_table : SI.table.Unsigned := ⟨by decide +kernel, by decide +kernel⟩

end UnitCalculus
