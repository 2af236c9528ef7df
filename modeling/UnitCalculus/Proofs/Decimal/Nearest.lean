import Mathlib.Algebra.Order.Ring.Unbundled.Rat
import Mathlib.Tactic.NormNum
import Mathlib.Tactic.Linarith
import Mathlib.Tactic.Ring
import Mathlib.Data.Nat.Log
import UnitCalculus.Magnitude.Order

/-! # Patterns of floating-point numbers

A fraction whose numerator has at most a thousand bits has a nearest floating-point number
(`nearest?_isSome`), and the only floating-point number of value one is `1.0` (`eq_one_of_value`).
-/

namespace UnitCalculus.Decimal

/-! ### The nearest number exists -/

theorem roundDiv_le {n d m : Nat} (h : n < d * m) : roundDiv n d ≤ m := by
  have hq : n / d < m := Nat.div_lt_of_lt_mul h
  unfold roundDiv
  dsimp only
  split
  · omega
  · split
    · omega
    · have := Nat.mod_lt (n / d) (by decide : 0 < 2)
      omega

/-- Scaled by its own size, a fraction is less than `2 ^ 54`. -/
theorem scaleTwo_lt {num den : Nat} (hden : den ≠ 0) {k : Int}
    (hk : (num.log2 : Int) - den.log2 - 53 ≤ k) :
    (scaleTwo num den k).1 < (scaleTwo num den k).2 * 2 ^ 54 := by
  have hnum : num < 2 ^ (num.log2 + 1) := Nat.lt_log2_self
  have hlog : 2 ^ den.log2 ≤ den := Nat.log2_self_le hden
  unfold scaleTwo
  split
  · next hneg =>
    calc num * 2 ^ (-k).toNat
        < 2 ^ (num.log2 + 1) * 2 ^ (-k).toNat := Nat.mul_lt_mul_of_pos_right hnum (by positivity)
      _ = 2 ^ (num.log2 + 1 + (-k).toNat) := (Nat.pow_add ..).symm
      _ ≤ 2 ^ (den.log2 + 54) := Nat.pow_le_pow_right (by decide) (by omega)
      _ = 2 ^ den.log2 * 2 ^ 54 := Nat.pow_add ..
      _ ≤ den * 2 ^ 54 := Nat.mul_le_mul_right _ hlog
  · next hpos =>
    calc num < 2 ^ (num.log2 + 1) := hnum
      _ ≤ 2 ^ (den.log2 + k.toNat + 54) := Nat.pow_le_pow_right (by decide) (by omega)
      _ = 2 ^ den.log2 * 2 ^ k.toNat * 2 ^ 54 := by rw [Nat.pow_add, Nat.pow_add]
      _ ≤ den * 2 ^ k.toNat * 2 ^ 54 := by gcongr

theorem nearestBits_lt_overflowBits {num den : Nat} (hlog : num.log2 < 1000) (hden : den ≠ 0) :
    nearestBits num den < overflowBits := by
  by_cases hzero : num = 0
  · simp [hzero, nearestBits, overflowBits]
  have key : ∀ k : Int, (num.log2 : Int) - den.log2 - 53 ≤ k → k ≤ 948 →
      (k + 1074).toNat * powTwo 52 + roundDiv (scaleTwo num den k).1 (scaleTwo num den k).2 <
        overflowBits := by
    intro k hk hk'
    have hround := roundDiv_le (scaleTwo_lt hden hk)
    have hplace : (k + 1074).toNat * 2 ^ 52 ≤ 2022 * 2 ^ 52 := Nat.mul_le_mul_right _ (by omega)
    show (k + 1074).toNat * 2 ^ 52 + _ < 2047 * 2 ^ 52
    omega
  unfold nearestBits
  rw [if_neg (by simpa using hzero)]
  dsimp only
  split
  · exact key _ (by omega) (by omega)
  · exact key _ (by omega) (by omega)

theorem log2_lt_of_lt_powTen {num k : Nat} (hk : 0 < k) (h : num < powTen (3 * k)) :
    num.log2 < 10 * k := by
  by_cases hzero : num = 0
  · rw [hzero, Nat.log2_zero]
    omega
  · rw [Nat.log2_lt hzero]
    calc num < 10 ^ (3 * k) := h
      _ = (10 ^ 3) ^ k := Nat.pow_mul ..
      _ ≤ (2 ^ 10) ^ k := Nat.pow_le_pow_left (by decide) k
      _ = 2 ^ (10 * k) := (Nat.pow_mul ..).symm

theorem nearest?_isSome (negative : Bool) {num den : Nat} (hnum : num < powTen 300)
    (hden : den ≠ 0) : (nearest? negative num den).isSome := by
  rw [show 300 = 3 * 100 from rfl] at hnum
  have hlog := log2_lt_of_lt_powTen (by decide) hnum
  unfold nearest?
  rw [if_pos (nearestBits_lt_overflowBits hlog hden)]
  rfl

/-! ### The number one -/

theorem float_ext {x y : Float} (h : x.toBits.toNat = y.toBits.toNat) : x = y := by
  obtain ⟨⟨a, ha⟩⟩ := x
  obtain ⟨⟨b, hb⟩⟩ := y
  obtain rfl : a = b := UInt64.toNat_inj.mp h
  rfl

namespace Expansion

theorem fraction_den_ne_zero (e : Expansion) : e.fraction.2 ≠ 0 := by
  unfold fraction
  split
  · exact (Nat.two_pow_pos _).ne'
  · exact one_ne_zero

theorem fraction_of_toRat_eq_one {e : Expansion} (h : e.toRat = 1) :
    e.negative = false ∧ e.fraction.1 = e.fraction.2 := by
  have hden : (0 : Rat) < e.fraction.2 := by
    exact_mod_cast Nat.pos_of_ne_zero e.fraction_den_ne_zero
  have hnum : (0 : Rat) ≤ e.fraction.1 := Nat.cast_nonneg _
  unfold toRat at h
  dsimp only at h
  rw [Rat.mkRat_eq_div, Int.cast_natCast] at h
  cases hneg : e.negative with
  | true =>
    rw [if_pos hneg] at h
    have := div_nonneg hnum hden.le
    linarith
  | false =>
    rw [if_neg (by simp [hneg]), div_eq_one_iff_eq hden.ne'] at h
    exact ⟨rfl, by exact_mod_cast h⟩

end Expansion

/-- A pattern with the value one has the sign, the field and the fraction of `1.0`. -/
theorem ofBits_one {n : Nat} (hn : n < powTwo 64) {e : Expansion}
    (h : Pattern.ofBits n = .finite e) (he : e.toRat = 1) : n = 1023 * powTwo 52 := by
  obtain ⟨hneg, hfraction⟩ := e.fraction_of_toRat_eq_one he
  have hmod : n % powTwo 52 < 2 ^ 52 := Nat.mod_lt _ (by decide)
  unfold Pattern.ofBits at h
  dsimp only at h
  split at h
  · split at h <;> cases h
  split at h
  · -- Without the implicit bit the significand is too small.
    cases h
    have hm : 52 < (-(-1074 : Int)).toNat := by decide
    dsimp only [Expansion.fraction] at hfraction
    rw [if_pos (by decide)] at hfraction
    generalize (-(-1074 : Int)).toNat = m at hm hfraction
    exact absurd hfraction (hmod.trans (Nat.pow_lt_pow_right (by decide) hm)).ne
  · cases h
    dsimp only [Expansion.fraction] at hneg hfraction
    generalize hfield : n / powTwo 52 % powTwo 11 = field at hfraction
    split at hfraction
    · next hlow =>
      have hm : (-((field : Int) - 1075)).toNat = 52 := by
        generalize (-((field : Int) - 1075)).toNat = m at hfraction
        change 2 ^ 52 + n % powTwo 52 = 2 ^ m at hfraction
        have hle : 52 ≤ m := (Nat.pow_le_pow_iff_right (by decide : 1 < 2)).mp (by omega)
        have hlt : m < 53 := (Nat.pow_lt_pow_iff_right (by decide : 1 < 2)).mp (by omega)
        omega
      rw [hm] at hfraction
      change 2 ^ 52 + n % 2 ^ 52 = 2 ^ 52 at hfraction
      change n / 2 ^ 52 % 2 ^ 11 = field at hfield
      change n < 2 ^ 64 at hn
      change (n / 2 ^ 63 % 2 == 1) = false at hneg
      rw [beq_eq_false_iff_ne] at hneg
      show n = 1023 * 2 ^ 52
      omega
    · -- Here the significand alone is more than one.
      change (2 ^ 52 + n % powTwo 52) * 2 ^ ((field : Int) - 1075).toNat = 1 at hfraction
      have hone := Nat.eq_one_of_mul_eq_one_right hfraction
      omega

end UnitCalculus.Decimal

namespace UnitCalculus

open Decimal

theorem Extended.eq_one_of_ofFloat {x : Float} (h : Extended.ofFloat x = .finite 1) : x = 1.0 := by
  unfold Extended.ofFloat at h
  split at h
  · next e he =>
    have hbits := ofBits_one x.toBits.toNat_lt he (Extended.finite.inj h)
    exact float_ext (hbits.trans (by decide +kernel))
  · cases h
  · cases h

end UnitCalculus
