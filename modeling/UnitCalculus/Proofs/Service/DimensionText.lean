import UnitCalculus.Kind
import UnitCalculus.Proofs.Dimension.Text
import UnitCalculus.Proofs.Service.Refusal

/-! # Where the text of a dimension stands for it

The name of a kind that nobody named, the details of a refusal and the answer to a text show a
dimension by its text.  None of them shows different dimensions alike, if their symbols are legible
(`text_determines_dimension`). -/

namespace UnitCalculus.Service

open Dimension

theorem Refusal.detail_dimension_eq_iff {f g : DimensionFault} :
    (Refusal.dimension f).detail = (Refusal.dimension g).detail ↔
      f.reason.text = g.reason.text ∧ f.this.text = g.this.text ∧ f.other.text = g.other.text := by
  simp [Refusal.detail]

/-- An answer names the dimension of its quantity. -/
theorem QuantityAnswer.dimensionsText_of_ofQuantity {t : UnitTable} {q : Quantity}
    {a : QuantityAnswer} (h : ofQuantity t q = .ok a) : a.dimensionsText = q.dimension.text := by
  unfold ofQuantity at h
  obtain ⟨value, -, h⟩ := bind_eq_ok h
  cases hwritable : isWritable q.dimension with
  | false =>
    rw [hwritable] at h
    cases h
  | true =>
    rw [hwritable] at h
    obtain ⟨canonical, -, h⟩ := bind_eq_ok h
    exact (congrArg QuantityAnswer.dimensionsText (Except.ok.inj h)).symm

/-- The text of a dimension with legible symbols determines the dimension: in itself, in the name of
a kind, in the details of a refusal and in an answer.  The text of a power is read as the power,
unless it has too many digits. -/
theorem text_determines_dimension :
    (∀ a b : Dimension, Legible a → Legible b →
      (a.text = b.text ↔ a.same b = true) ∧
      (Kind.defaultName a = Kind.defaultName b ↔ a.same b = true)) ∧
    (∀ f g : DimensionFault, Legible f.this → Legible f.other → Legible g.this →
      Legible g.other →
      ((Refusal.dimension f).detail = (Refusal.dimension g).detail ↔
        f.reason.text = g.reason.text ∧ f.this.same g.this = true ∧
          f.other.same g.other = true)) ∧
    (∀ (t u : UnitTable) (q r : Quantity) (x y : QuantityAnswer),
      Legible q.dimension → Legible r.dimension →
      QuantityAnswer.ofQuantity t q = .ok x → QuantityAnswer.ofQuantity u r = .ok y →
      (x.dimensionsText = y.dimensionsText ↔ q.dimension.same r.dimension = true)) ∧
    ∀ (places : Int) (q : ℚ), Exponent.isWritable q = true →
      Exponent.ofMagnitude places (.text (Exponent.text q)) = .ok q := by
  refine ⟨fun a b ha hb => ⟨text_eq_text_iff ha hb, ?_⟩, fun f g hf hf' hg hg' => ?_,
    fun t u q r x y hq hr hx hy => ?_, fun places q hq => ?_⟩
  · unfold Kind.defaultName
    rw [String.append_right_inj]
    exact text_eq_text_iff ha hb
  · rw [Refusal.detail_dimension_eq_iff, text_eq_text_iff hf hg, text_eq_text_iff hf' hg']
  · rw [QuantityAnswer.dimensionsText_of_ofQuantity hx,
      QuantityAnswer.dimensionsText_of_ofQuantity hy]
    exact text_eq_text_iff hq hr
  · unfold Exponent.ofMagnitude
    simp only [Exponent.ofText?_text hq]

/-- The rank of a symbol is not shown, its fractional power is. -/
theorem text_determines_dimension_unranked :
    let d : Int → Dimension := fun rank =>
      (base "L" (some rank)).mul ((base "T" none).pow (-1 / 2))
    (d 0).text = (d 1).text ∧ (d 0).text ≠ (base "L" none).text ∧
      Kind.defaultName (d 0) = Kind.defaultName (d 1) ∧
      (Refusal.dimension ⟨.incompatible, d 0, one⟩).detail =
        (Refusal.dimension ⟨.incompatible, d 1, one⟩).detail ∧
      (∃ x y, QuantityAnswer.ofQuantity SI.table ⟨.real 1.5, d 0⟩ = .ok x ∧
        QuantityAnswer.ofQuantity SI.table ⟨.real 2.5, d 1⟩ = .ok y ∧
        x.dimensionsText = y.dimensionsText) ∧
      Exponent.ofMagnitude 6 (.text (Exponent.text (-1 / 2))) = .ok (-1 / 2) := by
  intro d
  obtain ⟨htext, hdetail, hanswer, hpower⟩ := text_determines_dimension
  have h0 : Legible (d 0) := ⟨.mul (.base _ _) (.pow _ (.base _ _)), by decide +kernel⟩
  have h1 : Legible (d 1) := ⟨.mul (.base _ _) (.pow _ (.base _ _)), by decide +kernel⟩
  have hlength : Legible (base "L" none) := ⟨.base _ _, by decide +kernel⟩
  have hone : Legible one := ⟨.base "" none, by decide⟩
  have hsame : (d 0).same (d 1) = true := by decide +kernel
  have hother : ¬ (d 0).same (base "L" none) = true := by decide +kernel
  have hanswered : ∀ (x : Float) (d : Dimension), QuantityAnswer.isWritable d = true →
      ∃ a, QuantityAnswer.ofQuantity SI.table ⟨.real x, d⟩ = .ok a := by
    intro x d hwritable
    have hreal : (Magnitude.real x).OneOrFloat fun _ => True := .real trivial
    rcases ofQuantity_cases SI.legible_table.units (q := ⟨.real x, d⟩) hreal with h | h
    · exact h.2
    · exact absurd (hwritable.symm.trans h.1) (by decide)
  obtain ⟨x, hx⟩ := hanswered 1.5 (d 0) (by decide +kernel)
  obtain ⟨y, hy⟩ := hanswered 2.5 (d 1) (by decide +kernel)
  refine ⟨(htext _ _ h0 h1).1.mpr hsame, fun h => hother ((htext _ _ h0 hlength).1.mp h),
    (htext _ _ h0 h1).2.mpr hsame,
    (hdetail _ _ h0 hone h1 hone).mpr ⟨rfl, hsame, by decide⟩,
    ⟨x, y, hx, hy, (hanswer _ _ _ _ x y h0 h1 hx hy).mpr hsame⟩,
    hpower 6 _ (by decide +kernel)⟩

end UnitCalculus.Service
