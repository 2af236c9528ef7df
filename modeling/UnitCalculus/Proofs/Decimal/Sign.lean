import UnitCalculus.Decimal.Binary

/-! # Numbers without a sign

A floating-point number whose sign bit is not set is not below zero (`Unsigned.not_neg`), and
products, quotients, absolute values and powers of such numbers have no sign either
(`Unsigned.mul`, `Unsigned.div`, `unsigned_abs`, `Unsigned.floatPow`).

The arithmetic takes patterns apart and puts the results together again; `Positive` says of the
parts what `Unsigned` says of the pattern. -/

namespace UnitCalculus.Decimal

open Float.Model Float.Model.UnpackedFloat

/-! ### Parts and patterns -/

/-- A number in parts has no sign; the undefined one never has. -/
inductive Positive : UnpackedFloat → Prop
  | notANumber : Positive .notANumber
  | infinity : Positive (.infinity .positive)
  | zero : Positive (.zero .positive)
  | finite (m : Nat) (e : Int) (hm : 0 < m) : Positive (.finite .positive m e hm)

theorem positive_unpack {f : Format} {b : BitVec f.numBits} (h : unpackSign b = 0#1) :
    Positive (UnpackedFloat.unpack f b) := by
  have hsign : Sign.ofBitVec (unpackSign b) = .positive := by rw [h]; rfl
  unfold UnpackedFloat.unpack
  dsimp only
  rw [hsign]
  by_cases hexponent : unpackExponent b = -1#_
  · rw [if_pos hexponent]
    by_cases hmantissa : unpackMantissa b = 0#_
    · rw [if_pos hmantissa]
      exact .infinity
    · rw [if_neg hmantissa]
      exact .notANumber
  · rw [if_neg hexponent]
    by_cases hzero : unpackExponent b = 0#_
    · rw [if_pos hzero]
      by_cases hmantissa : unpackMantissa b = 0#_
      · rw [dif_pos hmantissa]
        exact .zero
      · rw [dif_neg hmantissa]
        exact .finite ..
    · rw [if_neg hzero]
      exact .finite ..

theorem unpackSign_packComponents {f : Format} {s : Sign} {e : BitVec f.exponentBits}
    {m : BitVec f.mantissaBitsWithoutImplicit} :
    unpackSign (packComponents f s e m) = s.toBitVec := by
  ext i hi
  have : i = 0 := by omega
  subst this
  delta unpackSign
  simp [packComponents, BitVec.getLsbD_eq_getElem, BitVec.getLsbD_append,
    BitVec.getElem_append]

theorem unpackSign_pack {f : Format} {u : UnpackedFloat} (h : Positive u) :
    unpackSign (UnpackedFloat.pack f u) = 0#1 := by
  cases h with
  | notANumber => exact unpackSign_packComponents
  | infinity => exact unpackSign_packComponents
  | zero => exact unpackSign_packComponents
  | finite m e hm =>
    unfold UnpackedFloat.pack
    dsimp only
    split
    · exact unpackSign_packComponents
    · split <;> exact unpackSign_packComponents

/-! ### Operations on the parts -/

theorem positive_dite (m : Nat) (e : Int) :
    Positive (if h : m = 0 then .zero .positive
      else .finite .positive m e (Nat.pos_of_ne_zero h)) := by
  by_cases h : m = 0
  · rw [dif_pos h]
    exact .zero
  · rw [dif_neg h]
    exact .finite ..

theorem positive_roundWithAccuracy (f : Format) (m : Nat) (e : Int) (a : Accuracy) :
    Positive (roundWithAccuracy f .positive m e a) :=
  positive_dite _ _

theorem Positive.mul {f : Format} {u v : UnpackedFloat} (hu : Positive u) (hv : Positive v) :
    Positive (UnpackedFloat.mul f u v) := by
  cases hu <;> cases hv
  case finite.finite => exact positive_roundWithAccuracy ..
  all_goals constructor

theorem Positive.div {f : Format} {u v : UnpackedFloat} (hu : Positive u) (hv : Positive v) :
    Positive (UnpackedFloat.div f u v) := by
  cases hu <;> cases hv
  case finite.finite => exact positive_roundWithAccuracy ..
  all_goals constructor

theorem positive_abs (u : UnpackedFloat) : Positive u.abs := by
  cases u <;> constructor

theorem Positive.not_lt_zero {u : UnpackedFloat} (hu : Positive u) (s : Sign) :
    UnpackedFloat.lt u (.zero s) = false := by
  cases hu <;> rfl

/-! ### Floating-point numbers -/

/-- The sign bit of the number is not set. -/
def Unsigned (x : Float) : Prop := signBit x = false

instance (x : Float) : Decidable (Unsigned x) := inferInstanceAs (Decidable (_ = _))

theorem unpackSign_eq_zero_iff {b : UInt64} :
    @unpackSign Format.binary64 b.toBitVec = 0#1 ↔ b.toNat / powTwo 63 % 2 = 0 := by
  rw [← BitVec.toNat_inj]
  delta unpackSign
  simp [BitVec.extractLsb, BitVec.extractLsb', Nat.shiftRight_eq_div_pow]

theorem unsigned_iff {x : Float} :
    Unsigned x ↔ @unpackSign Format.binary64 x.toBits.toBitVec = 0#1 := by
  rw [unpackSign_eq_zero_iff, Unsigned, signBit, beq_eq_false_iff_ne]
  omega

theorem unsigned_ofModel_pack {u : UnpackedFloat} (h : Positive u) :
    Unsigned (.ofModel (.pack u)) :=
  unsigned_iff.mpr (unpackSign_pack (f := Format.binary64) h)

theorem Unsigned.positive {x : Float} (h : Unsigned x) : Positive x.toModel.unpack :=
  positive_unpack (unsigned_iff.mp h)

theorem Unsigned.mul {x y : Float} (hx : Unsigned x) (hy : Unsigned y) : Unsigned (x * y) :=
  unsigned_ofModel_pack (hx.positive.mul hy.positive)

theorem Unsigned.div {x y : Float} (hx : Unsigned x) (hy : Unsigned y) : Unsigned (x / y) :=
  unsigned_ofModel_pack (hx.positive.div hy.positive)

theorem unsigned_abs (x : Float) : Unsigned x.abs :=
  unsigned_ofModel_pack (positive_abs _)

theorem unsigned_one : Unsigned 1.0 := by decide +kernel

theorem Unsigned.floatPow {x : Float} (hx : Unsigned x) (y : Float) : Unsigned (floatPow x y) := by
  unfold Decimal.floatPow
  split
  · exact unsigned_one
  · rw [if_neg (by rw [Bool.not_eq_true]; exact hx)]
    exact unsigned_abs _

theorem Unsigned.not_neg {x : Float} (hx : Unsigned x) : ¬x < 0.0 := by
  have hzero : (0.0 : Float).toModel.unpack = .zero .positive := by
    have hbits : (0.0 : Float).toBits = 0 := by decide +kernel
    show UnpackedFloat.unpack Format.binary64 (0.0 : Float).toBits.toBitVec = _
    rw [hbits]
    rfl
  intro h
  have hlt : UnpackedFloat.lt x.toModel.unpack (0.0 : Float).toModel.unpack = true :=
    of_decide_eq_true h
  rw [hzero, hx.positive.not_lt_zero] at hlt
  cases hlt

end UnitCalculus.Decimal
