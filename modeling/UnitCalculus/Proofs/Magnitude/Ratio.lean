import Mathlib.Algebra.Order.Field.Basic
import Mathlib.Algebra.Order.Ring.Rat
import Mathlib.Data.Rat.Lemmas
import Mathlib.Tactic.Ring
import UnitCalculus.Quantity

/-! # Arithmetic of rational numbers

On rational magnitudes every operator is exact: it gives the rational number that the field
operation gives, or refuses a zero divisor (`evaluate_div_ratio`, `evaluate_mod_ratio`) or a
negative power of zero (`pow_ratio`). -/

namespace UnitCalculus.Magnitude

/-! ### Operators -/

theorem evaluate_add_ratio (a b : Rat) :
    Operator.add.evaluate (ratio a) (ratio b) = .ok (ratio (a + b)) := rfl

theorem evaluate_sub_ratio (a b : Rat) :
    Operator.sub.evaluate (ratio a) (ratio b) = .ok (ratio (a - b)) := rfl

theorem evaluate_mul_ratio (a b : Rat) :
    Operator.mul.evaluate (ratio a) (ratio b) = .ok (ratio (a * b)) := rfl

theorem evaluate_div_ratio (a b : Rat) : Operator.div.evaluate (ratio a) (ratio b) =
    if b = 0 then .error (.number .divisionByZero) else .ok (ratio (a / b)) := by
  by_cases hb : b = 0
  · rw [if_pos hb, hb]
    rfl
  · have hcompute : Magnitude.div (ratio a) (ratio b) = .ok (ratio (a / b)) := by
      simp [Magnitude.div, align, numeric, bind, Except.bind, Aligned.quotient, hb]
    rw [if_neg hb, Operator.evaluate, Operator.compute, hcompute]
    rfl

theorem evaluate_mod_ratio (a b : Rat) : Operator.mod.evaluate (ratio a) (ratio b) =
    if b = 0 then .error (.number .divisionByZero) else .ok (ratio (ratioMod a b)) := by
  by_cases hb : b = 0
  · rw [if_pos hb, hb]
    rfl
  · have hcompute : Magnitude.mod (ratio a) (ratio b) = .ok (ratio (ratioMod a b)) := by
      simp [Magnitude.mod, align, numeric, bind, Except.bind, Aligned.remainder, hb]
    rw [if_neg hb, Operator.evaluate, Operator.compute, hcompute]
    rfl

/-- The remainder scales with its operands. -/
theorem ratioMod_mul_right {c : Rat} (hc : c ≠ 0) (a b : Rat) :
    ratioMod (a * c) (b * c) = ratioMod a b * c := by
  unfold ratioMod
  rw [mul_div_mul_right a b hc]
  ring

/-- The absolute value scales with the number. -/
theorem abs_ratio (q : Rat) : (ratio q).abs = .ok (ratio |q|) := by
  have h : (if q < 0 then -q else q) = |q| := by
    split
    · next hq => rw [abs_of_neg hq]
    · next hq => rw [abs_of_nonneg (not_lt.mp hq)]
  rw [← h]
  rfl

/-! ### Powers -/

theorem integerPow_eq (m : Int) (n : Nat) : integerPow m n = m ^ n := by
  unfold integerPow
  split
  · next hm =>
    rw [beq_iff_eq.mp hm]
    split
    · next hn => rw [beq_iff_eq.mp hn, pow_zero]
    · next hn => rw [zero_pow (by simpa using hn)]
  · split
    · next hm => rw [beq_iff_eq.mp hm, one_pow]
    · split
      · next hm =>
        rw [beq_iff_eq.mp hm]
        split
        · next hn => rw [Even.neg_one_pow (Nat.even_iff.mpr (by simpa using hn))]
        · next hn => rw [Odd.neg_one_pow (Nat.odd_iff.mpr (by simpa using hn))]
      · rfl

theorem mkRat_integerPow (q : Rat) (n : Nat) :
    mkRat (integerPow q.num n) (integerPow q.den n).toNat = q ^ n := by
  have hden : ((q.den : Int) ^ n).toNat = q.den ^ n := by
    rw [← Int.natCast_pow, Int.toNat_natCast]
  rw [integerPow_eq, integerPow_eq, hden, ← Rat.num_pow, ← Rat.den_pow, Rat.mkRat_self]

theorem ratioPow_eq (q : Rat) (n : Int) :
    ratioPow q n = if n < 0 ∧ q = 0 then .error .divisionByZero else .ok (q ^ n) := by
  unfold ratioPow
  split
  · next hn =>
    rw [if_neg (by omega), mkRat_integerPow, ← zpow_natCast, Int.toNat_of_nonneg hn]
  · next hn =>
    split
    · next hq => rw [if_pos ⟨by omega, beq_iff_eq.mp hq⟩]
    · next hq =>
      have hpow : (q ^ n.natAbs)⁻¹ = q ^ n := by
        rw [← zpow_natCast, ← zpow_neg]
        congr 1
        omega
      rw [if_neg (by rintro ⟨-, rfl⟩; exact hq rfl)]
      dsimp only
      rw [mkRat_integerPow, ← hpow]
      rfl

theorem pow_ratio (q : Rat) (n : Int) : (ratio q).pow (integer n) =
    if n < 0 ∧ q = 0 then .error .divisionByZero else .ok (ratio (q ^ n)) := by
  have hpow : (ratio q).pow (integer n) = ratio <$> ratioPow q n := by
    simp [Magnitude.pow, align, numeric, bind, Except.bind, Aligned.power]
  rw [hpow, ratioPow_eq]
  split <;> rfl

/-! ### Comparison -/

/-- How two rational numbers compare. -/
def ratioOrder (a b : Rat) : Ordering := if a < b then .lt else if b < a then .gt else .eq

theorem relate_ratio (r : Relation) (a b : Rat) :
    (ratio a).relate r (ratio b) = .ok (truth (r.holds (some (ratioOrder a b)))) := rfl

theorem ratioOrder_mul_right {c : Rat} (hc : 0 < c) (a b : Rat) :
    ratioOrder (a * c) (b * c) = ratioOrder a b := by
  unfold ratioOrder
  simp only [mul_lt_mul_iff_left₀ hc]

end UnitCalculus.Magnitude
