import UnitCalculus.Proofs.Dimension.Ranks

/-! # The laws of dimensions

Where every symbol has one rank, dimensions are the same exactly when all their powers are, and they
form a commutative group with rational powers (`same_iff_powerOf_and_laws`).  `Regular ρ` collects
what the laws need: the canonical form, and ranks that come from `ρ`; the operations keep it.

Without that condition a product has the right powers but may have its factors in another order: two
products of the same dimensions are the same exactly when their ranks agree on the order of the
symbols that are left in the product (`mul_same_mul_iff`), and they need not agree
(`mul_not_congruent`). -/

namespace UnitCalculus.Dimension

/-! ### One rank for each symbol -/

/-- The dimension is canonical and takes the ranks of its symbols from `ρ`. -/
structure Regular (ρ : String → Option Int) (d : Dimension) : Prop where
  canonical : Canonical d.factors
  ranked : Ranked ρ d

namespace Regular

variable {ρ : String → Option Int} {a b c : Dimension}

theorem one : Regular ρ one := ⟨canonical_nil, ranked_one ρ⟩

theorem mul (ha : Regular ρ a) (hb : Regular ρ b) : Regular ρ (a.mul b) :=
  ⟨ha.canonical.mul, ha.ranked.mul hb.ranked hb.canonical⟩

theorem mapPowers (ha : Regular ρ a) (g : Rat → Rat) : Regular ρ (a.mapPowers g) :=
  ⟨ha.canonical.mapPowers g, ha.ranked.mapPowers g⟩

theorem inv (ha : Regular ρ a) : Regular ρ a.inv := ha.mapPowers _

theorem div (ha : Regular ρ a) (hb : Regular ρ b) : Regular ρ (a.div b) := ha.mul hb.inv

theorem pow (ha : Regular ρ a) (q : Rat) : Regular ρ (a.pow q) :=
  ⟨ha.canonical.pow q, ha.ranked.pow q⟩

/-- Regular dimensions are the same when their powers are. -/
theorem same_iff (ha : Regular ρ a) (hb : Regular ρ b) :
    a.same b = true ↔ ∀ x, a.powerOf x = b.powerOf x := by
  rw [same_iff_of_ranked ha.canonical hb.canonical ha.ranked hb.ranked]
  exact and_iff_left fun _ _ _ _ => Iff.rfl

end Regular

/-- With one rank for each symbol, factors that come one before the other have different symbols. -/
theorem regular_iff {ρ : String → Option Int} {d : Dimension} :
    Regular ρ d ↔ d.factors.Pairwise (fun a b => a.precedes b = true) ∧
      (∀ f ∈ d.factors, f.power ≠ 0) ∧ Ranked ρ d := by
  have hsorted : (d.factors.map Factor.sortKey).Pairwise (· < ·) ↔
      d.factors.Pairwise fun a b => a.precedes b = true := by
    simp only [List.pairwise_map, Factor.precedes_iff]
  constructor
  · rintro ⟨⟨hs, -, hn⟩, hr⟩
    exact ⟨hsorted.mp hs, hn, hr⟩
  · rintro ⟨hs, hn, hr⟩
    refine ⟨⟨hsorted.mpr hs, List.pairwise_map.mpr ?_, hn⟩, hr⟩
    refine hs.imp_of_mem fun {a b} ha hb hab hsymbol => ?_
    have hkey : a.sortKey = b.sortKey :=
      placeKey_inj.mpr ⟨by rw [hr a ha, hr b hb, hsymbol], hsymbol⟩
    exact ((Factor.precedes_iff a b).mp hab).ne hkey

instance (ρ : String → Option Int) (d : Dimension) : Decidable (Regular ρ d) :=
  decidable_of_iff _ regular_iff.symm

namespace Regular

variable {ρ : String → Option Int} {a b c : Dimension}

/-! ### Laws of the product -/

theorem mul_comm (ha : Regular ρ a) (hb : Regular ρ b) : (a.mul b).same (b.mul a) = true := by
  rw [(ha.mul hb).same_iff (hb.mul ha)]
  intro x
  rw [powerOf_mul ha.canonical hb.canonical, powerOf_mul hb.canonical ha.canonical, add_comm]

theorem mul_assoc (ha : Regular ρ a) (hb : Regular ρ b) (hc : Regular ρ c) :
    ((a.mul b).mul c).same (a.mul (b.mul c)) = true := by
  rw [((ha.mul hb).mul hc).same_iff (ha.mul (hb.mul hc))]
  intro x
  rw [powerOf_mul (ha.mul hb).canonical hc.canonical, powerOf_mul ha.canonical hb.canonical,
    powerOf_mul ha.canonical (hb.mul hc).canonical, powerOf_mul hb.canonical hc.canonical,
    add_assoc]

theorem mul_one (ha : Regular ρ a) : (a.mul Dimension.one).same a = true := by
  rw [(ha.mul one).same_iff ha]
  intro x
  rw [powerOf_mul ha.canonical (one (ρ := ρ)).canonical, powerOf_one, add_zero]

theorem one_mul (ha : Regular ρ a) : (Dimension.one.mul a).same a = true := by
  rw [(one.mul ha).same_iff ha]
  intro x
  rw [powerOf_mul (one (ρ := ρ)).canonical ha.canonical, powerOf_one, zero_add]

theorem mul_inv (ha : Regular ρ a) : (a.mul a.inv).same Dimension.one = true := by
  rw [(ha.mul ha.inv).same_iff one]
  intro x
  rw [powerOf_mul ha.canonical ha.inv.canonical, powerOf_inv ha.canonical, powerOf_one,
    add_neg_cancel]

/-! ### Laws of powers -/

theorem mul_pow (ha : Regular ρ a) (hb : Regular ρ b) (r : Rat) :
    ((a.mul b).pow r).same ((a.pow r).mul (b.pow r)) = true := by
  rw [((ha.mul hb).pow r).same_iff ((ha.pow r).mul (hb.pow r))]
  intro x
  rw [powerOf_pow (ha.mul hb).canonical, powerOf_mul ha.canonical hb.canonical,
    powerOf_mul (ha.pow r).canonical (hb.pow r).canonical, powerOf_pow ha.canonical,
    powerOf_pow hb.canonical, add_mul]

theorem pow_mul_pow (ha : Regular ρ a) (r s : Rat) :
    ((a.pow r).mul (a.pow s)).same (a.pow (r + s)) = true := by
  rw [((ha.pow r).mul (ha.pow s)).same_iff (ha.pow _)]
  intro x
  rw [powerOf_mul (ha.pow r).canonical (ha.pow s).canonical, powerOf_pow ha.canonical,
    powerOf_pow ha.canonical, powerOf_pow ha.canonical, mul_add]

theorem pow_pow (ha : Regular ρ a) (r s : Rat) :
    ((a.pow r).pow s).same (a.pow (r * s)) = true := by
  rw [((ha.pow r).pow s).same_iff (ha.pow _)]
  intro x
  rw [powerOf_pow (ha.pow r).canonical, powerOf_pow ha.canonical, powerOf_pow ha.canonical,
    Rat.mul_assoc]

/-- Every root but the zeroth undoes its power. -/
theorem root?_pow (ha : Regular ρ a) {r : Rat} (hr : r ≠ 0) :
    ∃ d, (a.pow r).root? r = some d ∧ d.same a = true := by
  have hroot : (a.pow r).root? r = some ((a.pow r).mapPowers (· / r)) :=
    root?_eq_some_iff.mpr ⟨hr, rfl⟩
  refine ⟨_, hroot, ?_⟩
  rw [((ha.pow r).mapPowers _).same_iff ha]
  intro x
  rw [powerOf_root (ha.pow r).canonical hroot, powerOf_pow ha.canonical,
    mul_div_cancel_right₀ _ hr]

end Regular

/-- Where every symbol has one rank, sameness is equality of all powers, and the operations obey the
laws of a commutative group with rational powers. -/
theorem same_iff_powerOf_and_laws (ρ : String → Option Int) {a b c : Dimension}
    (ha : Built a) (hb : Built b) (hc : Built c)
    (hρa : Ranked ρ a) (hρb : Ranked ρ b) (hρc : Ranked ρ c) (r s : Rat) :
    (a.same b = true ↔ ∀ x, a.powerOf x = b.powerOf x) ∧
    (a.mul b).same (b.mul a) = true ∧
    ((a.mul b).mul c).same (a.mul (b.mul c)) = true ∧
    (a.mul one).same a = true ∧ (one.mul a).same a = true ∧
    (a.mul a.inv).same one = true ∧
    (a.div b).same (a.mul b.inv) = true ∧
    ((a.mul b).pow r).same ((a.pow r).mul (b.pow r)) = true ∧
    ((a.pow r).mul (a.pow s)).same (a.pow (r + s)) = true ∧
    ((a.pow r).pow s).same (a.pow (r * s)) = true ∧
    (r ≠ 0 → ∃ d, (a.pow r).root? r = some d ∧ d.same a = true) := by
  have ra : Regular ρ a := ⟨ha.canonical, hρa⟩
  have rb : Regular ρ b := ⟨hb.canonical, hρb⟩
  have rc : Regular ρ c := ⟨hc.canonical, hρc⟩
  exact ⟨ra.same_iff rb, ra.mul_comm rb, ra.mul_assoc rb rc, ra.mul_one, ra.one_mul, ra.mul_inv,
    same_iff_key.mpr rfl, ra.mul_pow rb r, ra.pow_mul_pow r s, ra.pow_pow r s, ra.root?_pow⟩

/-- The ranks of length, mass and time; other symbols have none. -/
def mechanicalRank : String → Option Int
  | "L" => some 0
  | "M" => some 1
  | "T" => some 2
  | _ => none

/-- Mass times length by the square of time, its factors in another order. -/
def force : Dimension := ofFactors [⟨"T", -2, some 2⟩, ⟨"L", 1, some 0⟩, ⟨"M", 1, some 1⟩]

/-- Time by length. -/
def pace : Dimension := (base "T" (some 2)).div (base "L" (some 0))

/-- The root of a dimension without a rank. -/
def noise : Dimension := (base "V" none).pow (1 / 2)

theorem force_pace_noise_assoc :
    Ranked mechanicalRank force ∧ Ranked mechanicalRank pace ∧ Ranked mechanicalRank noise ∧
      ((force.mul pace).mul noise).same (force.mul (pace.mul noise)) = true := by
  have hf : Ranked mechanicalRank force := by decide +kernel
  have hp : Ranked mechanicalRank pace := by decide +kernel
  have hn : Ranked mechanicalRank noise := by decide +kernel
  have laws := same_iff_powerOf_and_laws mechanicalRank (.ofFactors _)
    (.div (.base _ _) (.base _ _)) (.pow _ (.base _ _)) hf hp hn 3 (-1 / 2)
  exact ⟨hf, hp, hn, laws.2.2.1⟩

/-! ### Several ranks for one symbol -/

/-- The ranks of both pairs put each two of the symbols that are left in the product of `a` and `b`
in the same order. -/
def SameOrder (a b a' b' : Dimension) : Prop :=
  ∀ s t, a.powerOf s + b.powerOf s ≠ 0 → a.powerOf t + b.powerOf t ≠ 0 →
    (Before (jointRank a b) s t ↔ Before (jointRank a' b') s t)

theorem powerOf_mul_congr {a a' b b' : Dimension} (ha : Built a) (ha' : Built a') (hb : Built b)
    (hb' : Built b') (haa : a.same a' = true) (hbb : b.same b' = true) (s : String) :
    (a.mul b).powerOf s = (a'.mul b').powerOf s := by
  rw [powerOf_mul ha.canonical hb.canonical, powerOf_mul ha'.canonical hb'.canonical,
    powerOf_eq_of_key ha.canonical ha'.canonical (same_iff_key.mp haa),
    powerOf_eq_of_key hb.canonical hb'.canonical (same_iff_key.mp hbb)]

/-- Products with the same powers are the same exactly when their ranks order them alike. -/
theorem mul_same_iff_sameOrder {a a' b b' : Dimension} (ha : Built a) (ha' : Built a')
    (hb : Built b) (hb' : Built b')
    (hp : ∀ s, (a.mul b).powerOf s = (a'.mul b').powerOf s) :
    (a.mul b).same (a'.mul b') = true ↔ SameOrder a b a' b' := by
  rw [same_iff_of_ranked (ha.mul hb).canonical (ha'.mul hb').canonical
    (ranked_mul ha.canonical hb.canonical) (ranked_mul ha'.canonical hb'.canonical),
    and_iff_right hp]
  simp only [powerOf_mul ha.canonical hb.canonical]
  exact Iff.rfl

/-- Whatever the ranks, products of the same dimensions have the same powers, and so do products in
the other order; they are the same dimension exactly when their ranks order their symbols alike. -/
theorem mul_same_mul_iff {a a' b b' : Dimension} (ha : Built a) (ha' : Built a') (hb : Built b)
    (hb' : Built b') (haa : a.same a' = true) (hbb : b.same b' = true) :
    (∀ s, (a.mul b).powerOf s = (a'.mul b').powerOf s ∧
      (a.mul b).powerOf s = (b.mul a).powerOf s) ∧
    ((a.mul b).same (a'.mul b') = true ↔ SameOrder a b a' b') ∧
    ((a.mul b).same (b.mul a) = true ↔ SameOrder a b b a) := by
  have congr := powerOf_mul_congr ha ha' hb hb' haa hbb
  have comm : ∀ s, (a.mul b).powerOf s = (b.mul a).powerOf s := by
    intro s
    rw [powerOf_mul ha.canonical hb.canonical, powerOf_mul hb.canonical ha.canonical, add_comm]
  exact ⟨fun s => ⟨congr s, comm s⟩, mul_same_iff_sameOrder ha ha' hb hb' congr,
    mul_same_iff_sameOrder ha hb hb ha comm⟩

/-- A time with a rank and one without are the same, and so are their products with a third
dimension as far as their powers go, but not as dimensions. -/
theorem mul_same_mul_iff_at_time :
    (base "T" none).same (base "T" (some 2)) = true ∧
      (¬SameOrder (base "T" none) (base "A" (some 5)) (base "T" (some 2)) (base "A" (some 5)) ∧
        ((base "T" none).mul (base "A" (some 5))).same
          ((base "T" (some 2)).mul (base "A" (some 5))) = false) := by
  have hT : (base "T" none).same (base "T" (some 2)) = true := by decide +kernel
  have hA : (base "A" (some 5)).same (base "A" (some 5)) = true := by decide +kernel
  have hmul : ((base "T" none).mul (base "A" (some 5))).same
      ((base "T" (some 2)).mul (base "A" (some 5))) = false := by decide +kernel
  have iff := (mul_same_mul_iff (.base "T" none) (.base "T" (some 2)) (.base "A" (some 5))
    (.base "A" (some 5)) hT hA).2.1
  refine ⟨hT, fun h => ?_, hmul⟩
  rw [iff.mpr h] at hmul
  exact Bool.noConfusion hmul

/-- Neither does multiplication respect sameness, nor does it commute, where a symbol has several
ranks. -/
theorem mul_not_congruent :
    ¬(∀ a a' b b' : Dimension, Built a → Built a' → Built b → Built b' →
      a.same a' = true → b.same b' = true → (a.mul b).same (a'.mul b') = true) ∧
    ¬(∀ a b : Dimension, Built a → Built b → (a.mul b).same (b.mul a) = true) := by
  constructor
  · intro h
    have := h _ _ _ _ (.base "T" none) (.base "T" (some 2)) (.base "A" (some 5))
      (.base "A" (some 5)) (by decide +kernel) (by decide +kernel)
    exact absurd this (by decide +kernel)
  · intro h
    have := h _ _ (.mul (.base "T" none) (.base "A" (some 5))) (.base "T" (some 2))
    exact absurd this (by decide +kernel)

end UnitCalculus.Dimension
