import Mathlib
import UnitCalculus.Proofs.Decimal.Nearest

/-! # Floating-point results that are exact

Two cases in which nothing is rounded: a product with one is the other factor (`mul_one_float`), and
the floating-point number nearest to a whole one is that number (`nearest?_whole`).

Both rest on what a 64-bit pattern can hold (`held_unpack`): the mantissa fits its field, so that
stretching it by a power of two only adds zeros, which rounding shifts out again
(`roundWithAccuracy_held`). -/

namespace UnitCalculus.Decimal

open Float.Model Float.Model.UnpackedFloat

/-! ### Patterns and their parts -/

/-- What a pattern holds: a number beyond the finite ones, zero, a number below the least exponent,
or one with a leading bit. -/
inductive Held : UnpackedFloat → Prop
  | notANumber : Held .notANumber
  | infinity (s : Sign) : Held (.infinity s)
  | zero (s : Sign) : Held (.zero s)
  | subnormal (s : Sign) (m : Nat) (hm : 0 < m) (h : m < 2 ^ 52) : Held (.finite s m (-1074) hm)
  | normal (s : Sign) (m : Nat) (e : Int) (hm : 0 < m) (hlow : 2 ^ 52 ≤ m) (hhigh : m < 2 ^ 53)
    (he : -1074 ≤ e) : Held (.finite s m e hm)

/-- A leading bit in front of a fraction. -/
theorem toNat_append_one (v : BitVec 52) : (1#1 ++ v).toNat = 2 ^ 52 + v.toNat := by
  have h := Nat.two_pow_add_eq_or_of_lt v.isLt 1
  rw [BitVec.toNat_append, Nat.shiftLeft_eq, Nat.mul_comm]
  exact h.symm

theorem bias_eq : (Format.binary64.exponentBias : Int) +
    (Format.binary64.mantissaBitsWithoutImplicit : Int) = 1075 := by decide

theorem held_unpack (b : BitVec Format.binary64.numBits) :
    Held (UnpackedFloat.unpack Format.binary64 b) := by
  unfold UnpackedFloat.unpack
  dsimp only
  split
  · split
    · exact .infinity _
    · exact .notANumber
  · split
    · split
      · exact .zero _
      · next hexp _ =>
        simp only [hexp]
        exact .subnormal _ _ _ (unpackMantissa b).isLt
    · next hexp =>
      have hmantissa := (unpackMantissa b).isLt
      have hpositive : 0 < (unpackExponent b).toNat := by
        rw [BitVec.toNat_pos, BitVec.pos_iff_ne_zero]
        exact hexp
      have hvalue := toNat_append_one (unpackMantissa b)
      refine .normal _ _ _ _ ?_ ?_ ?_
      · exact hvalue ▸ Nat.le_add_right _ _
      · rw [hvalue]
        exact Nat.add_lt_add_left hmantissa _
      · rw [bias_eq]
        omega

/-! ### Products with one -/

/-- The least significant zeros are shifted out without a trace. -/
theorem shiftRightOne_double (m : Nat) :
    ExtendedMantissa.shiftRightOne ⟨m * 2, false, false⟩ = ⟨m, false, false⟩ := by
  simp [ExtendedMantissa.shiftRightOne]

theorem repeat_shiftRightOne (m n : Nat) :
    Nat.repeat ExtendedMantissa.shiftRightOne n ⟨m * 2 ^ n, false, false⟩ = ⟨m, false, false⟩ := by
  induction n generalizing m with
  | zero => simp [Nat.repeat]
  | succ n ih =>
    have hdouble : m * 2 ^ (n + 1) = m * 2 * 2 ^ n := by rw [Nat.pow_succ']; ring
    rw [Nat.repeat, hdouble, ih, shiftRightOne_double]

theorem log2_mul_two_pow {m : Nat} (hm : 0 < m) (n : Nat) : (m * 2 ^ n).log2 = m.log2 + n := by
  refine (Nat.log2_eq_iff (by positivity)).mpr ⟨?_, ?_⟩
  · rw [Nat.pow_add]
    exact Nat.mul_le_mul_right _ (Nat.log2_self_le hm.ne')
  · rw [show m.log2 + n + 1 = m.log2 + 1 + n by omega, Nat.pow_add]
    exact Nat.mul_lt_mul_of_pos_right Nat.lt_log2_self (by positivity)

theorem targetExponent_eq (m : Nat) (e : Int) :
    Format.binary64.targetExponent (totalExponent m e) = max (m.log2 + e - 52) (-1074) := by
  have hbits : Format.binary64.mantissaBits = 53 := rfl
  have hleast : Format.binary64.minExponent = -1074 := by decide
  unfold Format.targetExponent totalExponent
  omega

/-- The exponent of a number as it is held is the one that rounding aims at. -/
theorem targetExponent_held {s : Sign} {m : Nat} {e : Int} {hm : 0 < m} (n : Nat)
    (h : Held (.finite s m e hm)) :
    Format.binary64.targetExponent (totalExponent (m * 2 ^ n) (e - n)) = e := by
  have hlog : (m * 2 ^ n).log2 = m.log2 + n := log2_mul_two_pow hm n
  rw [targetExponent_eq, hlog]
  cases h with
  | subnormal _ _ _ h =>
    have hsmall : m.log2 < 52 := (Nat.log2_lt hm.ne').mpr h
    omega
  | normal _ _ _ _ hlow hhigh he =>
    have hlarge : m.log2 = 52 := (Nat.log2_eq_iff hm.ne').mpr ⟨hlow, hhigh⟩
    omega

theorem shiftToTargetExponent_held {s : Sign} {m : Nat} {e : Int} {hm : 0 < m} (n : Nat)
    (h : Held (.finite s m e hm)) :
    shiftToTargetExponent Format.binary64 (m * 2 ^ n) (e - n) .exact = (⟨m, false, false⟩, e) := by
  have hamount : (e - (e - n)).toNat = n := by omega
  unfold shiftToTargetExponent shiftToExponent
  dsimp only
  rw [targetExponent_held n h, hamount]
  exact Prod.ext (repeat_shiftRightOne m n) (by omega)

/-- A number whose mantissa is stretched by a power of two is rounded back to itself. -/
theorem roundWithAccuracy_held {s : Sign} {m : Nat} {e : Int} {hm : 0 < m} (n : Nat)
    (h : Held (.finite s m e hm)) :
    roundWithAccuracy Format.binary64 s (m * 2 ^ n) (e - n) .exact = .finite s m e hm := by
  have hagain := shiftToTargetExponent_held 0 h
  rw [pow_zero, Nat.mul_one, Nat.cast_zero, Int.sub_zero] at hagain
  have hrounded : ExtendedMantissa.roundedMantissa ⟨m, false, false⟩ = m := rfl
  unfold roundWithAccuracy
  dsimp only
  simp only [shiftToTargetExponent_held n h, hrounded, hagain]
  rw [dif_neg hm.ne']

theorem mul_positive (s : Sign) : s * .positive = s := by cases s <;> rfl

theorem mul_one_held {u : UnpackedFloat} (h : Held u) (hone : 0 < 2 ^ 52) :
    UnpackedFloat.mul Format.binary64 u (.finite .positive (2 ^ 52) (-52) hone) = u := by
  cases u with
  | notANumber => rfl
  | infinity s => exact congrArg UnpackedFloat.infinity (mul_positive s)
  | zero s => exact congrArg UnpackedFloat.zero (mul_positive s)
  | finite s m e hm =>
    unfold UnpackedFloat.mul
    dsimp only
    rw [mul_positive]
    exact roundWithAccuracy_held 52 h

theorem unpack_one : (1.0 : Float).toModel.unpack =
    .finite .positive (2 ^ 52) (-52) (Nat.two_pow_pos 52) := by
  have hbits : (1.0 : Float).toBits = 0x3ff0000000000000 := by decide +kernel
  show UnpackedFloat.unpack Format.binary64 (1.0 : Float).toBits.toBitVec = _
  rw [hbits]
  rfl

/-- A number is not changed when it is multiplied by one. -/
theorem mul_one_float (x : Float) : x * 1.0 = x := by
  have hmul : x * 1.0 = .ofModel (Float.Model.pack
      (UnpackedFloat.mul Format.binary64 x.toModel.unpack (1.0 : Float).toModel.unpack)) := rfl
  have hheld : Held x.toModel.unpack := held_unpack _
  rw [hmul, unpack_one, mul_one_held hheld]
  exact Float.ofBits_toBits x

/-! ### Whole numbers -/

/-- A whole number divided by a power of two that is not above its own is a whole number. -/
theorem scaleTwo_whole {e : Expansion} {k : Nat} (hk : e.fraction.1 = k * e.fraction.2) (i : Nat) :
    (scaleTwo k 1 (e.exponent - i)).1 =
      (scaleTwo k 1 (e.exponent - i)).2 * (e.significand * 2 ^ i) := by
  unfold Expansion.fraction at hk
  unfold scaleTwo
  by_cases hnegative : e.exponent < 0
  · rw [if_pos hnegative] at hk
    rw [if_pos (by omega)]
    dsimp only [Nat.pow_eq] at hk ⊢
    rw [show (-(e.exponent - i)).toNat = (-e.exponent).toNat + i by omega, Nat.pow_add, hk]
    ring
  · rw [if_neg hnegative] at hk
    dsimp only [Nat.pow_eq] at hk
    rw [Nat.mul_one] at hk
    split
    · next h =>
      dsimp only [Nat.pow_eq]
      rw [← hk, Nat.mul_assoc, ← Nat.pow_add,
        show e.exponent.toNat + (-(e.exponent - i)).toNat = i by omega, Nat.one_mul]
    · next h =>
      dsimp only [Nat.pow_eq]
      have hsplit : e.exponent.toNat = (e.exponent - i).toNat + i := by omega
      rw [← hk, hsplit, Nat.pow_add]
      ring

theorem scaleTwo_snd_pos (k : Nat) (i : Int) : 0 < (scaleTwo k 1 i).2 := by
  unfold scaleTwo
  split
  · exact Nat.one_pos
  · exact Nat.mul_pos Nat.one_pos (Nat.two_pow_pos _)

theorem roundDiv_mul (d m : Nat) (hd : 0 < d) : roundDiv (d * m) d = m := by
  simp [roundDiv, Nat.mul_div_cancel_left m hd, hd]

theorem fraction_fst_eq_zero {e : Expansion} : e.fraction.1 = 0 ↔ e.significand = 0 := by
  unfold Expansion.fraction
  split
  · exact Iff.rfl
  · dsimp only [Nat.pow_eq]
    rw [Nat.mul_eq_zero, or_iff_left (Nat.two_pow_pos _).ne']

/-- The pattern found for a whole number with a leading bit is that of the number. -/
theorem nearestBits_whole {e : Expansion} {k : Nat} (hk : e.fraction.1 = k * e.fraction.2)
    (hlow : 2 ^ 52 ≤ e.significand) (hhigh : e.significand < 2 ^ 53) :
    nearestBits k 1 = (e.exponent + 1074).toNat * powTwo 52 + e.significand := by
  have hlogSignificand : e.significand.log2 = 52 :=
    (Nat.log2_eq_iff (by omega)).mpr ⟨hlow, hhigh⟩
  have hwide := scaleTwo_whole hk 1
  have hexact := scaleTwo_whole hk 0
  have hzero : k ≠ 0 := by
    rintro rfl
    rw [Nat.zero_mul, fraction_fst_eq_zero] at hk
    omega
  have hlog : (k.log2 : Int) = 52 + e.exponent := by
    unfold Expansion.fraction at hk
    split at hk
    · dsimp only [Nat.pow_eq] at hk
      rw [hk, log2_mul_two_pow (Nat.pos_of_ne_zero hzero)] at hlogSignificand
      omega
    · dsimp only [Nat.pow_eq] at hk
      rw [← Nat.mul_one k, ← hk, log2_mul_two_pow (by omega)]
      omega
  have hguess : max ((k.log2 : Int) - (1 : Nat).log2 - 53) (-1074) = e.exponent - 1 := by
    have hone : (1 : Nat).log2 = 0 := by decide
    omega
  have hden := scaleTwo_snd_pos k (e.exponent - 1)
  have hden' := scaleTwo_snd_pos k e.exponent
  rw [Nat.cast_one] at hwide
  rw [Nat.cast_zero, Int.sub_zero, pow_zero, Nat.mul_one] at hexact
  have hquotient : (scaleTwo k 1 (e.exponent - 1)).1 / (scaleTwo k 1 (e.exponent - 1)).2 =
      e.significand * 2 := by
    rw [hwide, Nat.mul_div_cancel_left _ hden, pow_one]
  unfold nearestBits
  rw [if_neg (by simpa using hzero), hguess]
  dsimp only
  rw [hquotient, if_neg (by show ¬e.significand * 2 < 2 ^ 53; omega), Int.sub_add_cancel, hexact,
    roundDiv_mul _ _ hden']

/-- A whole number other than zero is the floating-point number nearest to it. -/
theorem nearest?_whole {x : Float} {e : Expansion} (hx : expand x = .finite e) {k : Nat}
    (hk : e.fraction.1 = k * e.fraction.2) (hzero : k ≠ 0) : nearest? e.negative k 1 = some x := by
  have hbound : x.toBits.toNat < 2 ^ 64 := x.toBits.toNat_lt
  have h11 : powTwo 11 = 2 ^ 11 := rfl
  have h52 : powTwo 52 = 2 ^ 52 := rfl
  have h63 : powTwo 63 = 2 ^ 63 := rfl
  have hover : overflowBits = 2047 * 2 ^ 52 := rfl
  have hfraction : x.toBits.toNat % powTwo 52 < 2 ^ 52 := Nat.mod_lt _ (by decide)
  unfold expand Pattern.ofBits at hx
  dsimp only at hx
  split at hx
  · split at hx <;> cases hx
  next hfinite =>
  split at hx
  · -- Without the leading bit a number is too small to be whole.
    cases hx
    have hm : 52 < (-(-1074 : Int)).toNat := by decide
    dsimp only [Expansion.fraction] at hk
    rw [if_pos (by decide)] at hk
    generalize (-(-1074 : Int)).toNat = m at hm hk
    have hpow : 2 ^ 52 ≤ 2 ^ m := Nat.pow_le_pow_right (by decide) hm.le
    have hle : 1 * 2 ^ m ≤ k * 2 ^ m := Nat.mul_le_mul_right _ (Nat.pos_of_ne_zero hzero)
    dsimp only [Nat.pow_eq] at hk
    omega
  · next hfield =>
    cases hx
    have hbits := nearestBits_whole hk (by dsimp only; omega) (by dsimp only; omega)
    dsimp only at hbits
    rw [h52, h11] at hfinite hfield hbits
    rw [beq_iff_eq] at hfinite hfield
    have hbits' : nearestBits k 1 = x.toBits.toNat % 2 ^ 63 := by omega
    unfold nearest?
    dsimp only
    rw [hbits', hover, h63, if_pos (by omega)]
    have hsign : (if (x.toBits.toNat / 2 ^ 63 % 2 == 1) = true then
        2 ^ 63 + x.toBits.toNat % 2 ^ 63 else x.toBits.toNat % 2 ^ 63) = x.toBits.toNat := by
      split
      · next h =>
        rw [beq_iff_eq] at h
        omega
      · next h =>
        rw [beq_iff_eq] at h
        omega
    rw [hsign, UInt64.ofNat_toNat, Float.ofBits_toBits]

end UnitCalculus.Decimal
