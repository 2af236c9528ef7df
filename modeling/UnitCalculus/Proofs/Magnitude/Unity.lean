import UnitCalculus.Canonical
import UnitCalculus.Proofs.Decimal.Nearest
import UnitCalculus.Proofs.Magnitude.Scalar

/-! # Magnitudes that are the number one

Among integers and floating-point numbers those that equal one are `1` and `1.0` (`isOne_iff`).
Their products and powers are ones again, and exist for all exponents but those that no
floating-point number comes near (`IsOne.mul`, `IsOne.pow`). -/

namespace UnitCalculus

open Decimal

namespace Extended

theorem eq_of_order?_eq {x y : Extended} (h : x.order? y = some .eq) : x = y := by
  cases x with
  | undefined => cases y <;> cases h
  | infinite a =>
    cases y with
    | infinite b => cases a <;> cases b <;> first | rfl | cases h
    | finite q => cases a <;> cases h
    | undefined => cases h
  | finite p =>
    cases y with
    | infinite b => cases b <;> cases h
    | undefined => cases h
    | finite q =>
      simp only [order?] at h
      split at h
      · cases h
      · split at h
        · cases h
        · exact congrArg finite (le_antisymm (not_lt.mp ‹_›) (not_lt.mp ‹_›))

theorem order?_self_finite (p : Rat) : (finite p).order? (finite p) = some .eq := by
  simp [order?]

end Extended

namespace Magnitude

/-- Whether the magnitude is an integer or a floating-point number. -/
def isPlain (m : Magnitude) : Bool :=
  match m.numeric with
  | integer _ | real _ | unchecked _ => true
  | _ => false

/-- The magnitude is the number one, as an integer or as a floating-point number. -/
def IsOne (m : Magnitude) : Prop :=
  m.numeric = integer 1 ∨ m.numeric = real 1.0 ∨ m.numeric = unchecked 1.0

theorem floatOfInt_one : floatOfInt 1 = .ok 1.0 := by
  have h : ofInt? 1 = some 1.0 := by decide +kernel
  rw [floatOfInt, h]

theorem ofFloat_one : Extended.ofFloat 1.0 = .finite 1 := by decide +kernel

/-- The magnitude compares equal to the integer one. -/
def EqualsOne (m : Magnitude) : Prop := m.relate .eq (integer 1) = .ok (truth true)

instance (m : Magnitude) : Decidable m.EqualsOne :=
  decidable_of_iff ((match m.relate .eq (integer 1) with | .ok (truth b) => b | _ => false) = true)
    (by unfold EqualsOne; split <;> simp_all)

/-- The exact value of an integer or a floating-point number. -/
def plainValue (m : Magnitude) : Extended :=
  match m.numeric with
  | integer n => .finite n
  | real x | unchecked x => .ofFloat x
  | _ => .undefined

theorem relate_one (r : Relation) {m : Magnitude} (hm : m.isPlain = true) :
    m.relate r (integer 1) = .ok (truth (r.holds (m.plainValue.order? (.finite 1)))) := by
  unfold isPlain at hm
  unfold relate plainValue
  split at hm
  · next n h =>
    rw [h]
    rfl
  · next x h =>
    rw [h]
    rfl
  · next x h =>
    rw [h]
    simp only [numeric, isNumber, Bool.and_self, if_true, relateNumbers, isComplex, Bool.or_self,
      Bool.false_eq_true, if_false, order, floatOfInt_one]
    rw [← ofFloat_one]
    rfl
  · cases hm

theorem isOne_iff_plainValue {m : Magnitude} (hm : m.isPlain = true) :
    m.IsOne ↔ m.plainValue = .finite 1 := by
  unfold isPlain at hm
  unfold IsOne plainValue
  split at hm
  · next n h =>
    rw [h]
    simp
  · next x h =>
    rw [h]
    exact ⟨fun hx => by simp_all [ofFloat_one], fun hx => by simp [Extended.eq_one_of_ofFloat hx]⟩
  · next x h =>
    rw [h]
    exact ⟨fun hx => by simp_all [ofFloat_one], fun hx => by simp [Extended.eq_one_of_ofFloat hx]⟩
  · cases hm

theorem IsOne.isPlain {m : Magnitude} (h : m.IsOne) : m.isPlain = true := by
  unfold Magnitude.isPlain
  rcases h with h | h | h <;> rw [h]

theorem isOne_iff {m : Magnitude} (hm : m.isPlain = true) : m.IsOne ↔ m.EqualsOne := by
  rw [isOne_iff_plainValue hm, EqualsOne, relate_one .eq hm]
  constructor
  · intro h
    rw [h, Extended.order?_self_finite]
    rfl
  · intro h
    have hholds : Relation.eq.holds (m.plainValue.order? (.finite 1)) = true := by
      simpa using h
    exact Extended.eq_of_order?_eq (beq_iff_eq.mp hholds)

theorem IsOne.equalsOne {m : Magnitude} (h : m.IsOne) : m.EqualsOne := (isOne_iff h.isPlain).mp h

/-! ### Numbers beside the number one -/

/-- A number of any family either equals one or differs from it. -/
theorem relate_one_of_isNumber {m : Magnitude} (hm : m.Number) :
    ∃ b, m.relate .eq (integer 1) = .ok (truth b) ∧ m.relate .ne (integer 1) = .ok (truth !b) := by
  cases m with
  | vector xs | mask bs | text s | absent => cases hm
  | unchecked x => exact ⟨_, relate_one .eq rfl, relate_one .ne rfl⟩
  | _ => exact ⟨_, rfl, rfl⟩

theorem isNumber_of_isPlain {m : Magnitude} (hm : m.isPlain = true) : m.Number := by
  unfold isPlain at hm
  unfold Number
  split at hm
  · next h =>
    rw [h]
    rfl
  · next h =>
    rw [h]
    rfl
  · next h =>
    rw [h]
    rfl
  · cases hm

/-- For a number the two tests against one end, and give opposite answers. -/
theorem isUnity_of_isNumber {m : Magnitude} (hm : m.Number) :
    ∃ b, Canonical.isUnity m = .ok b ∧ Canonical.isNotUnity m = .ok (!b) ∧
      (b = true ↔ m.EqualsOne) := by
  obtain ⟨b, heq, hne⟩ := relate_one_of_isNumber hm
  refine ⟨b, ?_, ?_, ?_⟩
  · rw [Canonical.isUnity, heq]
    rfl
  · rw [Canonical.isNotUnity, hne]
    rfl
  · rw [EqualsOne, heq]
    simp

/-! ### Products and powers of ones -/

theorem mul_numeric (a b : Magnitude) : a.mul b = a.numeric.mul b.numeric := by
  unfold Magnitude.mul align
  rw [numeric_numeric, numeric_numeric]

theorem pow_numeric (a b : Magnitude) : a.pow b = a.numeric.pow b := by
  unfold Magnitude.pow
  rw [numeric_numeric]

theorem IsOne.mul {a b : Magnitude} (ha : a.IsOne) (hb : b.IsOne) :
    ∃ c, a.mul b = .ok c ∧ c.IsOne := by
  have hone : (1.0 * 1.0 : Float) = 1.0 := by decide +kernel
  rw [mul_numeric]
  rcases ha with ha | ha | ha <;> rcases hb with hb | hb | hb <;> rw [ha, hb]
  all_goals
    simp [Magnitude.mul, align, numeric, floatOfInt_one, Operation.apply, multiplication, hone,
      IsOne]

theorem floatPow_one (y : Float) : floatPow 1.0 y = 1.0 := by
  have hone : ((1.0 : Float) == 1.0) = true := by decide +kernel
  rw [floatPow, if_pos hone]

theorem checkedPow_one (y : Float) : checkedPow 1.0 y = .ok (real 1.0) := by
  have hzero : ((1.0 : Float) == 0.0) = false := by decide +kernel
  have hneg : ¬(1.0 : Float) < 0.0 := by decide +kernel
  have hinfinite : isInfinite 1.0 = false := by decide +kernel
  simp [checkedPow, hzero, hneg, floatPow_one, hinfinite]

/-- A power of one whose exponent is an integer with a floating-point number next to it. -/
theorem IsOne.pow_integer {a : Magnitude} (ha : a.IsOne) {n : Int} {y : Float}
    (hn : floatOfInt n = .ok y) : ∃ c, a.pow (integer n) = .ok c ∧ c.IsOne := by
  rw [pow_numeric]
  rcases ha with ha | ha | ha <;> rw [ha]
  · by_cases h : 0 ≤ n
    · have hpow : (integer 1).pow (integer n) = .ok (integer 1) := by
        simp [Magnitude.pow, align, numeric, bind, Except.bind, Aligned.power, h, integerPow]
      exact ⟨_, hpow, .inl rfl⟩
    · have hpow : (integer 1).pow (integer n) = .ok (real 1.0) := by
        simp [Magnitude.pow, align, numeric, bind, Except.bind, Aligned.power, h, floatOfInt_one,
          hn, checkedPow_one]
      exact ⟨_, hpow, .inr (.inl rfl)⟩
  · have hpow : (real 1.0).pow (integer n) = .ok (real 1.0) := by
      simp [Magnitude.pow, align, numeric, bind, Except.bind, Aligned.power, hn, checkedPow_one]
    exact ⟨_, hpow, .inr (.inl rfl)⟩
  · have hpow : (unchecked 1.0).pow (integer n) = .ok (unchecked 1.0) := by
      simp [Magnitude.pow, align, numeric, bind, Except.bind, Aligned.power, hn, floatPow_one]
    exact ⟨_, hpow, .inr (.inr rfl)⟩

theorem IsOne.pow_real {a : Magnitude} (ha : a.IsOne) (y : Float) :
    ∃ c, a.pow (real y) = .ok c ∧ c.IsOne := by
  rw [pow_numeric]
  rcases ha with ha | ha | ha <;> rw [ha]
  · have hpow : (integer 1).pow (real y) = .ok (real 1.0) := by
      simp [Magnitude.pow, align, numeric, bind, Except.bind, Aligned.power, floatOfInt_one,
        checkedPow_one]
    exact ⟨_, hpow, .inr (.inl rfl)⟩
  · have hpow : (real 1.0).pow (real y) = .ok (real 1.0) := checkedPow_one y
    exact ⟨_, hpow, .inr (.inl rfl)⟩
  · have hpow : (unchecked 1.0).pow (real y) = .ok (unchecked 1.0) := by
      simp [Magnitude.pow, align, numeric, bind, Except.bind, Aligned.power, floatPow_one]
    exact ⟨_, hpow, .inr (.inr rfl)⟩

theorem IsOne.powerOfMagnitude {a : Magnitude} (ha : a.IsOne) {e : Rat}
    (he : e.num.natAbs < powTen 300) : ∃ c, Quantity.powerOfMagnitude a e = .ok c ∧ c.IsOne := by
  unfold Quantity.powerOfMagnitude
  split
  · obtain ⟨y, hy⟩ := Option.isSome_iff_exists.mp
      (nearest?_isSome (e.num < 0) he one_ne_zero)
    exact ha.pow_integer (y := y) (by rw [floatOfInt, ofInt?, hy])
  · obtain ⟨y, hy⟩ := Option.isSome_iff_exists.mp
      (nearest?_isSome ((e.num < 0 : Bool) != ((e.den : Int) < 0 : Bool)) he e.den_ne_zero)
    have hquotient : quotient? e.num e.den = some y := hy
    rw [hquotient]
    exact ha.pow_real y

end Magnitude

end UnitCalculus
