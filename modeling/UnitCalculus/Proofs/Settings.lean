import UnitCalculus.Proofs.Decimal.Products
import UnitCalculus.Quantity
import UnitCalculus.Settings

/-! # The decimal places of approximations

A floating-point number is multiplied by a power of ten, rounded to an integer and divided by the
power again.  Whatever comes out is on the grid of the decimal places (`den_dvd_of_approximate`).
Up to `safePlaces` the product with any number up to a thousand is finite (`approximate_of_le`); with
more places it may be infinite, and beyond 308 places there is no floating-point number for the power
of ten (`ofMagnitude_load`). -/

namespace UnitCalculus.Exponent

open UnitCalculus.Decimal

variable {x : Float} {places : Nat} {q : Rat}

/-! ### The grid -/

/-- The most decimal places with which all numbers up to a thousand have approximations. -/
def safePlaces : Nat := 305

/-- Whether the power of ten is near a floating-point number with a leading bit, a thousand times
which is below the largest finite number. -/
def gridFits (places : Nat) : Bool :=
  match Decimal.ofInt? (powTen places : Nat) with
  | none => false
  | some g =>
    match expand g with
    | .finite b => decide (2 ^ 52 ≤ b.significand ∧
        1000 * b.fraction.1 < (2 ^ 53 - 1) * 2 ^ 971 * b.fraction.2)
    | _ => false

theorem gridFits_of_le (h : places ≤ safePlaces) : gridFits places = true := by
  have hall : ∀ n < safePlaces + 1, gridFits n = true := by decide +kernel
  exact hall places (Nat.lt_succ_of_le h)

theorem exists_grid (h : places ≤ safePlaces) :
    ∃ g b, Decimal.ofInt? (powTen places : Nat) = some g ∧ expand g = .finite b ∧
      2 ^ 52 ≤ b.significand ∧ 1000 * |b.toRat| < largest := by
  have hfits := gridFits_of_le h
  unfold gridFits at hfits
  split at hfits
  · cases hfits
  next g hg =>
  split at hfits
  · next b hb =>
    obtain ⟨hlow, hbound⟩ := of_decide_eq_true hfits
    refine ⟨g, b, hg, hb, hlow, ?_⟩
    have hden : (0 : Rat) < b.fraction.2 :=
      Nat.cast_pos.mpr (Nat.pos_of_ne_zero b.fraction_den_ne_zero)
    rw [b.abs_toRat, largest, ← mul_div_assoc, div_lt_iff₀ hden]
    exact_mod_cast hbound
  · cases hfits

/-! ### Approximations -/

theorem nearestInteger_of_finite {e : Expansion} (h : expand x = .finite e) :
    ∃ n, nearestInteger x = .ok n := by
  unfold nearestInteger roundInt?
  rw [h]
  exact ⟨_, rfl⟩

/-- Numbers up to a thousand have approximations. -/
theorem approximate_of_le (hplaces : places ≤ safePlaces) {v : Rat}
    (hx : Extended.ofFloat x = .finite v) (hv : |v| ≤ 1000) :
    ∃ q, approximate x places = .ok q := by
  obtain ⟨g, b, hg, hb, hlow, hbound⟩ := exists_grid hplaces
  obtain ⟨a, ha, hvalue⟩ : ∃ a, expand x = .finite a ∧ a.toRat = v := by
    unfold Extended.ofFloat at hx
    split at hx
    · next a ha => exact ⟨a, ha, Extended.finite.inj hx⟩
    · cases hx
    · cases hx
  have hproduct : |a.toRat| * |b.toRat| < largest := by
    rw [hvalue]
    exact (mul_le_mul_of_nonneg_right hv (abs_nonneg _)).trans_lt hbound
  obtain ⟨e, he⟩ := expand_mul ha hb hlow hproduct
  obtain ⟨n, hn⟩ := nearestInteger_of_finite he
  have hmost : ¬(308 : Int) < places := by
    unfold safePlaces at hplaces
    omega
  refine ⟨mkRat n (powTen places), ?_⟩
  unfold approximate
  rw [if_neg (by omega), if_neg hmost]
  dsimp only
  rw [Int.toNat_natCast, hg]
  dsimp only
  rw [hn]

/-- The approximation is on the grid. -/
theorem den_dvd_of_approximate (h : approximate x places = .ok q) : q.den ∣ 10 ^ places := by
  unfold approximate at h
  rw [if_neg (by omega)] at h
  split at h
  · cases h
  dsimp only at h
  rw [Int.toNat_natCast] at h
  split at h
  · cases h
  split at h
  · cases h
  · next n _ =>
    obtain rfl := Except.ok.inj h
    have hdvd := Rat.den_dvd n (powTen places : Nat)
    rw [Rat.divInt_ofNat] at hdvd
    exact Int.natCast_dvd_natCast.mp hdvd

/-- There is no floating-point number for the power of ten. -/
theorem approximate_of_lt (h : 308 < places) (x : Float) :
    approximate x places = .error .tooLarge := by
  unfold approximate
  rw [if_neg (by omega), if_pos (by omega)]

/-! ### Exponents -/

theorem ofMagnitude_eq_ok : ofMagnitude places (.real x) = .ok q ↔ approximate x places = .ok q := by
  show ofFloat places x = .ok q ↔ _
  unfold ofFloat
  cases approximate x places with
  | ok r => simp
  | error f => simp

/-- A thousand has no approximation with more places. -/
theorem ofMagnitude_thousand (h : safePlaces < places) :
    ofMagnitude places (.real 1000.0) = .error (.number .overflow) := by
  by_cases hmost : 308 < places
  · show ofFloat places 1000.0 = _
    rw [ofFloat, approximate_of_lt hmost]
    rfl
  · unfold safePlaces at h
    obtain rfl | rfl | rfl : places = 306 ∨ places = 307 ∨ places = 308 := by omega
    · decide +kernel
    · decide +kernel
    · decide +kernel

/-- **The decimal places of the settings.**  Whatever the environment says, the exponent for a
floating-point number is on the grid of so many decimal places, if there is one at all.  Up to
`safePlaces` there is one for every number up to a thousand; with more places a thousand is too
large, and with more than 308 places every number is. -/
theorem ofMagnitude_load (env : Environment) :
    (∀ x q, ofMagnitude (Settings.load env).1.places (.real x) = .ok q →
      q.den ∣ 10 ^ (Settings.load env).1.places) ∧
    ((Settings.load env).1.places ≤ safePlaces → ∀ x v, Extended.ofFloat x = .finite v →
      |v| ≤ 1000 → ∃ q, ofMagnitude (Settings.load env).1.places (.real x) = .ok q) ∧
    (safePlaces < (Settings.load env).1.places →
      ofMagnitude (Settings.load env).1.places (.real 1000.0) = .error (.number .overflow)) ∧
    (308 < (Settings.load env).1.places → ∀ x,
      ofMagnitude (Settings.load env).1.places (.real x) = .error (.number .overflow)) := by
  generalize (Settings.load env).1.places = places
  refine ⟨fun x q h => ?_, fun hplaces x v hx hv => ?_, ofMagnitude_thousand, fun h x => ?_⟩
  · exact den_dvd_of_approximate (ofMagnitude_eq_ok.mp h)
  · obtain ⟨q, hq⟩ := approximate_of_le hplaces hx hv
    exact ⟨q, ofMagnitude_eq_ok.mpr hq⟩
  · show ofFloat places x = _
    rw [ofFloat, approximate_of_lt h]
    rfl

/-- With three places, one tenth has an exponent. -/
theorem ofMagnitude_load_threePlaces :
    (Settings.load [(Settings.placesVariable, "3")]).1.places = 3 ∧
      ∃ q, ofMagnitude 3 (.real 0.1) = .ok q ∧ q.den ∣ 10 ^ 3 := by
  have hplaces : (Settings.load [(Settings.placesVariable, "3")]).1.places = 3 := by
    decide +kernel
  have hload := ofMagnitude_load [(Settings.placesVariable, "3")]
  rw [hplaces] at hload
  obtain ⟨hgrid, hsafe, -⟩ := hload
  obtain ⟨v, hv, hle⟩ : ∃ v, Extended.ofFloat 0.1 = .finite v ∧ |v| ≤ 1000 :=
    ⟨3602879701896397 / 36028797018963968, by decide +kernel, by norm_num [abs_of_pos]⟩
  obtain ⟨q, hq⟩ := hsafe (by decide) 0.1 v hv hle
  exact ⟨hplaces, q, hq, hgrid 0.1 q hq⟩

/-- The number of places 309 is accepted, and one half has no approximation. -/
theorem not_ofMagnitude_load :
    ¬∀ (env : Environment) (x : Float) (v : Rat), Extended.ofFloat x = .finite v → |v| ≤ 1000 →
      ∃ q, ofMagnitude (Settings.load env).1.places (.real x) = .ok q ∧
        q.den ∣ 10 ^ (Settings.load env).1.places := by
  intro h
  obtain ⟨q, hq, -⟩ := h [(Settings.placesVariable, "309")] 0.5 (1 / 2) (by decide +kernel)
    (by norm_num [abs_of_pos])
  have hplaces : (Settings.load [(Settings.placesVariable, "309")]).1.places = 309 := by
    decide +kernel
  rw [hplaces, ofMagnitude_eq_ok, approximate_of_lt (by decide)] at hq
  cases hq

end UnitCalculus.Exponent
