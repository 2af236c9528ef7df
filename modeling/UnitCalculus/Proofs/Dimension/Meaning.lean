import UnitCalculus.Operand
import UnitCalculus.Proofs.Dimension.Powers
import UnitCalculus.Proofs.Outcome

/-! # What the operations on dimensions mean

A dimension stands for a power of each symbol.  Whatever list the operations work on, and however
they change it, they keep the canonical form and act on the powers symbol by symbol
(`canonical_and_powerOf`): the product adds, the quotient subtracts, the reciprocal negates, and a
power or a root multiplies or divides by any value that is read as a rational number. -/

namespace UnitCalculus.Dimension

variable {a : Dimension} {places : Int} {n : Operand} {q : Rat}

/-! ### Base dimensions -/

theorem powerOf_base (symbol : String) (rank : Option Int) (s : String) :
    (base symbol rank).powerOf s = if symbol = s ∧ symbol ≠ "" then 1 else 0 := by
  unfold base
  by_cases hempty : symbol = ""
  · rw [if_pos (beq_iff_eq.mpr hempty), powerOf_one, if_neg fun h => h.2 hempty]
  · rw [if_neg (by simpa using hempty), powerOf_ofFactors, total_cons, total_nil, add_zero]
    simp [hempty]

/-! ### Powers and roots by a value -/

theorem power_eq_ok (hn : n.toRational places = .ok q) :
    Operand.power places (.dimension a) n = .ok (.dimension (a.pow q)) := by
  simp only [Operand.power, hn]
  rfl

theorem dimensionRoot_eq_ok {d : Dimension} (hn : n.toRational places = .ok q)
    (hd : a.root? q = some d) :
    Operand.dimensionRoot places (.dimension a) n = .ok (.dimension d) := by
  simp only [Operand.dimensionRoot, ElementaryFunction.rootOfDimension, hn, ok_bind, hd]
  rfl

theorem dimensionRoot_zero (hn : n.toRational places = .ok 0) :
    Operand.dimensionRoot places (.dimension a) n = .error (.zero .dimensionRoot) := by
  simp only [Operand.dimensionRoot, ElementaryFunction.rootOfDimension, hn, ok_bind]
  rfl

/-- The power of a dimension by a value multiplies the powers. -/
theorem exists_power (ha : Built a) (hn : n.toRational places = .ok q) :
    ∃ d, Operand.power places (.dimension a) n = .ok (.dimension d) ∧ Built d ∧
      ∀ s, d.powerOf s = a.powerOf s * q :=
  ⟨a.pow q, power_eq_ok hn, ha.pow q, powerOf_pow ha.canonical q⟩

/-- The root of a dimension by a value other than zero divides the powers. -/
theorem exists_dimensionRoot (ha : Built a) (hn : n.toRational places = .ok q) (hq : q ≠ 0) :
    ∃ d, Operand.dimensionRoot places (.dimension a) n = .ok (.dimension d) ∧ Built d ∧
      ∀ s, d.powerOf s = a.powerOf s / q := by
  have hroot : a.root? q = some (a.mapPowers (· / q)) := root?_eq_some_iff.mpr ⟨hq, rfl⟩
  exact ⟨_, dimensionRoot_eq_ok hn hroot, ha.root q hroot, powerOf_root ha.canonical hroot⟩

/-! ### All operations -/

/-- Every dimension that the operations make out of arbitrary factors is in canonical form, and each
operation acts on the powers symbol by symbol. -/
theorem canonical_and_powerOf (places : Int) {a b : Dimension} (ha : Built a) (hb : Built b) :
    Canonical a.factors ∧
    (∀ fs s, (ofFactors fs).powerOf s = total s fs) ∧
    (∀ symbol rank s,
      (base symbol rank).powerOf s = if symbol = s ∧ symbol ≠ "" then 1 else 0) ∧
    (∀ s, (a.mul b).powerOf s = a.powerOf s + b.powerOf s) ∧
    (∀ s, (a.div b).powerOf s = a.powerOf s - b.powerOf s) ∧
    (∀ s, a.inv.powerOf s = -a.powerOf s) ∧
    (∀ n q, n.toRational places = .ok q →
      (∃ d, Operand.power places (.dimension a) n = .ok (.dimension d) ∧ Built d ∧
        ∀ s, d.powerOf s = a.powerOf s * q) ∧
      (q ≠ 0 → ∃ d, Operand.dimensionRoot places (.dimension a) n = .ok (.dimension d) ∧ Built d ∧
        ∀ s, d.powerOf s = a.powerOf s / q) ∧
      (q = 0 →
        Operand.dimensionRoot places (.dimension a) n = .error (.zero .dimensionRoot))) := by
  refine ⟨ha.canonical, powerOf_ofFactors, powerOf_base, powerOf_mul ha.canonical hb.canonical,
    powerOf_div ha.canonical hb.canonical, powerOf_inv ha.canonical, fun n q hn => ?_⟩
  refine ⟨exists_power ha hn, exists_dimensionRoot ha hn, ?_⟩
  rintro rfl
  exact dimensionRoot_zero hn

/-- Repeated symbols with different ranks, a power of zero, and a pair of powers that cancel. -/
def untidy : Dimension :=
  ofFactors [⟨"T", -2, some 2⟩, ⟨"L", 1 / 3, none⟩, ⟨"T", 0, some 7⟩, ⟨"M", 1, some 1⟩,
    ⟨"L", 2 / 3, some 0⟩, ⟨"M", -1, none⟩]

theorem canonical_and_powerOf_untidy :
    Operand.toRational 6 (.magnitude (.text "-3/2")) = .ok (-3 / 2) ∧
      ∃ d, Operand.dimensionRoot 6 (.dimension untidy) (.magnitude (.text "-3/2")) =
          .ok (.dimension d) ∧ Canonical d.factors ∧ d.powerOf "T" = 4 / 3 := by
  have hn : Operand.toRational 6 (.magnitude (.text "-3/2")) = .ok (-3 / 2) := by decide +kernel
  have hu : Built untidy := .ofFactors _
  have operations := (canonical_and_powerOf 6 hu hu).2.2.2.2.2.2
  obtain ⟨d, hd, hb, hpower⟩ := (operations _ _ hn).2.1 (by decide +kernel)
  have hT : untidy.powerOf "T" = -2 := by decide +kernel
  exact ⟨hn, d, hd, hb.canonical, by rw [hpower "T", hT]; norm_num⟩

end UnitCalculus.Dimension
