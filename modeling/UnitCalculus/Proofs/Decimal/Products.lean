import UnitCalculus.Proofs.Decimal.Exact

/-! # Products that stay finite

The arithmetic unpacks from a pattern the parts that `expand` reads off it (`unpack_of_expand`),
and packs a result as a finite number as long as its exponent is at most `971` (`expand_pack`).  The
exact product with a number that has its leading bit is rounded once; if it is below the largest
finite number, the exponent stays in these bounds (`packable_roundWithAccuracy`), so that the product
is finite (`expand_mul`). -/

namespace UnitCalculus.Decimal

open Float.Model Float.Model.UnpackedFloat

/-! ### Fields of a pattern -/

theorem toNat_unpackExponent (b : UInt64) :
    (@unpackExponent Format.binary64 b.toBitVec).toNat = b.toNat / powTwo 52 % powTwo 11 := by
  delta unpackExponent
  simp [BitVec.extractLsb, BitVec.extractLsb', Nat.shiftRight_eq_div_pow]

theorem toNat_unpackMantissa (b : UInt64) :
    (@unpackMantissa Format.binary64 b.toBitVec).toNat = b.toNat % powTwo 52 := by
  delta unpackMantissa
  simp [BitVec.extractLsb, BitVec.extractLsb']

/-- A pattern denotes a finite number if its exponent is not the largest one. -/
theorem exists_expand_of_exponent {x : Float}
    (h : @unpackExponent Format.binary64 x.toBits.toBitVec ≠ -1#_) :
    ∃ e, expand x = .finite e := by
  have hfield : x.toBits.toNat / powTwo 52 % powTwo 11 ≠ 2047 := by
    rw [← toNat_unpackExponent]
    exact fun hfield => h (BitVec.toNat_inj.mp hfield)
  unfold expand Pattern.ofBits
  dsimp only
  rw [if_neg (by simpa using hfield)]
  split
  · exact ⟨_, rfl⟩
  · exact ⟨_, rfl⟩

/-- The parts of a finite number, as the arithmetic sees them. -/
theorem unpack_of_expand {x : Float} {e : Expansion} (h : expand x = .finite e) :
    e.significand = 0 ∧ (∃ s, x.toModel.unpack = .zero s) ∨
      ∃ s hm, x.toModel.unpack = .finite s e.significand e.exponent hm := by
  have hexponent := toNat_unpackExponent x.toBits
  have hmantissa := toNat_unpackMantissa x.toBits
  unfold expand Pattern.ofBits at h
  dsimp only at h
  rw [← hexponent, ← hmantissa] at h
  have hunpack : x.toModel.unpack =
      UnpackedFloat.unpack Format.binary64 x.toBits.toBitVec := rfl
  rw [hunpack]
  generalize (x.toBits.toBitVec : BitVec Format.binary64.numBits) = b at h ⊢
  have hadd := toNat_append_one (@unpackMantissa Format.binary64 b)
  unfold UnpackedFloat.unpack
  dsimp only
  split at h
  · split at h <;> cases h
  next hfinite =>
  rw [if_neg fun hb => hfinite (by rw [hb]; rfl)]
  split at h
  · next hzero =>
    have hfield : @unpackExponent Format.binary64 b = 0#_ :=
      BitVec.toNat_inj.mp (by simpa using hzero)
    obtain rfl := Pattern.finite.inj h
    rw [if_pos hfield]
    split
    · next hmantissa => exact .inl ⟨congrArg BitVec.toNat hmantissa, _, rfl⟩
    · next hmantissa =>
      have hpos : 0 < (@unpackMantissa Format.binary64 b).toNat := by
        rw [BitVec.toNat_pos, BitVec.pos_iff_ne_zero]
        exact hmantissa
      simp only [hfield]
      exact .inr ⟨_, hpos, rfl⟩
  · next hzero =>
    obtain rfl := Pattern.finite.inj h
    rw [if_neg fun hb => hzero (by rw [hb]; rfl)]
    simp only [hadd]
    exact .inr ⟨_, Nat.add_pos_left (Nat.two_pow_pos 52) _, rfl⟩

/-! ### Packing -/

/-- A result that is packed as a finite number. -/
inductive Packable : UnpackedFloat → Prop
  | zero (s : Sign) : Packable (.zero s)
  | finite (s : Sign) (m : Nat) {e : Int} (hm : 0 < m) (he : e ≤ 971) : Packable (.finite s m e hm)

theorem unpackExponent_pack {u : UnpackedFloat} (h : Packable u) :
    unpackExponent (UnpackedFloat.pack Format.binary64 u) ≠ -1#_ := by
  cases h with
  | zero s =>
    unfold UnpackedFloat.pack packedZero
    rw [unpackExponent_packComponents]
    decide
  | @finite s m e hm he =>
    have hbias : (Format.binary64.exponentBias : Int) = 1023 := by decide
    unfold UnpackedFloat.pack
    dsimp only
    rw [hbias, if_neg (by omega)]
    split
    · rw [unpackExponent_packComponents]
      intro hones
      have hfield := congrArg BitVec.toNat hones
      rw [BitVec.toNat_ofNat] at hfield
      change (e + 1023 + 52).toNat % 2 ^ 11 = 2047 at hfield
      omega
    · rw [unpackExponent_packComponents]
      decide

theorem expand_pack {u : UnpackedFloat} (h : Packable u) :
    ∃ e, expand (.ofModel (.pack u)) = .finite e :=
  exists_expand_of_exponent (unpackExponent_pack h)

/-! ### Rounding -/

theorem mantissa_shiftRight (em : ExtendedMantissa) (n : Nat) :
    (em >>> n).mantissa = em.mantissa / 2 ^ n := by
  induction n with
  | zero => simp [HShiftRight.hShiftRight, Nat.repeat]
  | succ n ih =>
    show (em >>> n).mantissa / 2 = _
    rw [ih, Nat.div_div_eq_div_mul, Nat.pow_succ]

theorem roundedMantissa_le (em : ExtendedMantissa) : em.roundedMantissa ≤ em.mantissa + 1 := by
  obtain ⟨m, r, s⟩ := em
  cases r <;> cases s <;>
    simp [ExtendedMantissa.roundedMantissa, ExtendedMantissa.accuracy, Accuracy.roundToNearestEven]
  omega

/-- The largest finite number. -/
def largest : Rat := (2 ^ 53 - 1 : Nat) * 2 ^ 971

section

variable {m : Nat} {e : Int}

theorem log2_add_lt (hm : 0 < m) (hbound : (m : Rat) * 2 ^ e < largest) :
    (m.log2 : Int) + e < 1024 := by
  have hlog : ((2 ^ m.log2 : Nat) : Rat) ≤ m := Nat.cast_le.mpr (Nat.log2_self_le hm.ne')
  have hpower : largest ≤ 2 ^ (1024 : Int) := by
    have hfull : ((2 ^ 53 - 1 : Nat) : Rat) ≤ 2 ^ 53 := by norm_num
    calc largest ≤ 2 ^ 53 * 2 ^ 971 := mul_le_mul_of_nonneg_right hfull (by positivity)
      _ = 2 ^ (1024 : Int) := by rw [← pow_add, ← zpow_natCast]; rfl
  refine (zpow_lt_zpow_iff_right₀ (a := (2 : Rat)) one_lt_two).mp ?_
  calc (2 : Rat) ^ ((m.log2 : Int) + e)
      = (2 ^ m.log2 : Nat) * 2 ^ e := by
        rw [zpow_add₀ two_ne_zero, zpow_natCast, Nat.cast_pow, Nat.cast_ofNat]
    _ ≤ m * 2 ^ e := by gcongr
    _ < largest := hbound
    _ ≤ 2 ^ (1024 : Int) := hpower

/-- Cut off at the largest exponent, the mantissa is not full. -/
theorem div_lt_of_bound {n : Nat} (hn : e + n = 971) (hbound : (m : Rat) * 2 ^ e < largest) :
    m / 2 ^ n < 2 ^ 53 - 1 := by
  have hsplit : (2 : Rat) ^ 971 = 2 ^ n * 2 ^ e := by
    rw [← zpow_natCast, ← zpow_natCast, ← zpow_add₀ two_ne_zero]
    congr 1
    omega
  rw [largest, hsplit, ← mul_assoc] at hbound
  have hlt : (m : Rat) < (2 ^ 53 - 1 : Nat) * 2 ^ n := lt_of_mul_lt_mul_right hbound (by positivity)
  rw [Nat.div_lt_iff_lt_mul (Nat.two_pow_pos n)]
  exact_mod_cast hlt

theorem div_lt_of_log2 {n : Nat} (hn : m.log2 ≤ 52 + n) : m / 2 ^ n < 2 ^ 53 := by
  rw [Nat.div_lt_iff_lt_mul (Nat.two_pow_pos n), ← Nat.pow_add]
  exact Nat.lt_log2_self.trans_le (Nat.pow_le_pow_right (by decide) (by omega))

theorem log2_le_of_lt {r k : Nat} (h : r < 2 ^ (k + 1)) : r.log2 ≤ k := by
  by_cases hzero : r = 0
  · rw [hzero, Nat.log2_zero]
    omega
  · have hlog := (Nat.log2_lt hzero).mpr h
    omega

/-- A number with a leading bit that is below the largest one is rounded to a finite number. -/
theorem packable_roundWithAccuracy (s : Sign) (hm : 2 ^ 52 ≤ m)
    (hbound : (m : Rat) * 2 ^ e < largest) :
    Packable (roundWithAccuracy Format.binary64 s m e .exact) := by
  have hlog := log2_add_lt (by omega) hbound
  have hlow : 52 ≤ m.log2 := (Nat.le_log2 (by omega)).mpr hm
  unfold roundWithAccuracy shiftToTargetExponent shiftToExponent
  dsimp only
  rw [targetExponent_eq]
  generalize hn : (max ((m.log2 : Int) + e - 52) (-1074) - e).toNat = n
  generalize hr : (ExtendedMantissa.ofMantissaAndAccuracy m .exact >>> n).roundedMantissa = r
  rw [targetExponent_eq]
  have hle := roundedMantissa_le (ExtendedMantissa.ofMantissaAndAccuracy m .exact >>> n)
  rw [hr, mantissa_shiftRight] at hle
  change r ≤ m / 2 ^ n + 1 at hle
  have hexponent : (r.log2 : Int) + (e + n) - 52 ≤ 971 := by
    by_cases htop : e + n = 971
    · -- At the largest exponent nothing may be carried.
      have hdiv := div_lt_of_bound htop hbound
      have hcarry := log2_le_of_lt (r := r) (k := 52) (by omega)
      omega
    · have hdiv := div_lt_of_log2 (m := m) (n := n) (by omega)
      have hcarry := log2_le_of_lt (r := r) (k := 53) (by omega)
      omega
  split
  · exact .zero s
  · refine .finite s _ _ ?_
    omega

end

/-! ### Products -/

namespace Expansion

theorem abs_toRat (e : Expansion) : |e.toRat| = (e.fraction.1 : Rat) / e.fraction.2 := by
  have hnonneg : (0 : Rat) ≤ e.fraction.1 / e.fraction.2 := by positivity
  unfold toRat
  dsimp only
  rw [Rat.mkRat_eq_div, Int.cast_natCast]
  split
  · rw [abs_neg, abs_of_nonneg hnonneg]
  · rw [abs_of_nonneg hnonneg]

theorem fraction_eq (e : Expansion) :
    (e.fraction.1 : Rat) / e.fraction.2 = e.significand * 2 ^ e.exponent := by
  unfold fraction
  by_cases h : e.exponent < 0
  · have hexponent : e.exponent = -((-e.exponent).toNat : Int) := by omega
    have hpower : (2 : Rat) ^ e.exponent = ((2 : Rat) ^ (-e.exponent).toNat)⁻¹ := by
      conv_lhs => rw [hexponent, zpow_neg, zpow_natCast]
    rw [if_pos h, hpower, ← div_eq_mul_inv]
    dsimp only [Nat.pow_eq]
    rw [Nat.cast_pow, Nat.cast_ofNat]
  · have hexponent : (e.exponent.toNat : Int) = e.exponent := by omega
    rw [if_neg h]
    dsimp only [Nat.pow_eq]
    rw [Nat.cast_one, div_one, Nat.cast_mul, Nat.cast_pow, Nat.cast_ofNat, ← zpow_natCast,
      hexponent]

end Expansion

/-- **A product that is finite.**  A number times one with a leading bit, if the exact product is
below the largest finite number. -/
theorem expand_mul {x y : Float} {a b : Expansion} (hx : expand x = .finite a)
    (hy : expand y = .finite b) (hb : 2 ^ 52 ≤ b.significand)
    (hbound : |a.toRat| * |b.toRat| < largest) : ∃ e, expand (x * y) = .finite e := by
  show ∃ e, expand (.ofModel (.pack (UnpackedFloat.mul Format.binary64 x.toModel.unpack
    y.toModel.unpack))) = .finite e
  refine expand_pack ?_
  obtain ⟨hzero, -⟩ | ⟨t, ht, hy'⟩ := unpack_of_expand hy
  · rw [hzero] at hb
    exact absurd hb (by decide)
  rw [hy']
  obtain ⟨-, s, hx'⟩ | ⟨s, hs, hx'⟩ := unpack_of_expand hx
  · rw [hx']
    exact .zero _
  · rw [hx']
    refine packable_roundWithAccuracy _ (hb.trans (Nat.le_mul_of_pos_left _ hs)) ?_
    rw [a.abs_toRat, b.abs_toRat, a.fraction_eq, b.fraction_eq] at hbound
    rw [zpow_add₀ two_ne_zero, Nat.cast_mul]
    linarith

end UnitCalculus.Decimal
