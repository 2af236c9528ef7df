import UnitCalculus.Proofs.Dimension.Powers

/-! # The scale of a dimension

When the base unit of every symbol is replaced by one that is `scale` times smaller, the value of a
quantity is multiplied by the product of the scales raised to its powers, `Dimension.scaleBy`.  On
dimensions with whole powers this is a homomorphism: it takes products to products
(`scaleBy_mul`), reciprocals to reciprocals (`scaleBy_inv`) and powers to powers (`scaleBy_pow`). -/

namespace UnitCalculus.Dimension

/-- All powers of the factors are integers. -/
def Whole (es : List Factor) : Prop := ∀ f ∈ es, f.power.den = 1

instance (es : List Factor) : Decidable (Whole es) := by
  unfold Whole
  infer_instance

theorem Whole.cons_iff {f : Factor} {es : List Factor} :
    Whole (f :: es) ↔ f.power.den = 1 ∧ Whole es := by
  simp [Whole]

theorem exists_int_of_den {p : Rat} (h : p.den = 1) : ∃ n : Int, p = n :=
  ⟨p.num, (Rat.coe_int_num_of_den_eq_one h).symm⟩

theorem add_of_den {p q : Rat} (hp : p.den = 1) (hq : q.den = 1) :
    (p + q).den = 1 ∧ (p + q).num = p.num + q.num := by
  obtain ⟨m, rfl⟩ := exists_int_of_den hp
  obtain ⟨n, rfl⟩ := exists_int_of_den hq
  rw [← Int.cast_add]
  exact ⟨Rat.den_intCast _, Rat.num_intCast _⟩

theorem mul_of_den {p : Rat} (hp : p.den = 1) (n : Int) :
    (p * n).den = 1 ∧ (p * n).num = p.num * n := by
  obtain ⟨m, rfl⟩ := exists_int_of_den hp
  rw [← Int.cast_mul]
  exact ⟨Rat.den_intCast _, Rat.num_intCast _⟩

/-- The product of the scales of the symbols, raised to the powers. -/
def scaleFactors (scale : String → Rat) (es : List Factor) : Rat :=
  (es.map fun f => scale f.symbol ^ f.power.num).prod

/-- The factor by which a value of the dimension changes with the units. -/
def scaleBy (scale : String → Rat) (d : Dimension) : Rat := scaleFactors scale d.factors

variable {scale : String → Rat}

@[simp] theorem scaleFactors_nil : scaleFactors scale [] = 1 := rfl

@[simp] theorem scaleFactors_cons (f : Factor) (es : List Factor) :
    scaleFactors scale (f :: es) = scale f.symbol ^ f.power.num * scaleFactors scale es := by
  simp [scaleFactors]

theorem scaleFactors_pos (hs : ∀ s, 0 < scale s) (es : List Factor) :
    0 < scaleFactors scale es := by
  induction es with
  | nil =>
    rw [scaleFactors_nil]
    exact one_pos
  | cons f es ih =>
    rw [scaleFactors_cons]
    exact mul_pos (zpow_pos (hs f.symbol) _) ih

theorem scaleBy_pos (hs : ∀ s, 0 < scale s) (d : Dimension) : 0 < d.scaleBy scale :=
  scaleFactors_pos hs d.factors

@[simp] theorem scaleBy_one : one.scaleBy scale = 1 := rfl

theorem scaleBy_of_isOne {d : Dimension} (h : d.isOne = true) : d.scaleBy scale = 1 := by
  obtain ⟨es⟩ := d
  have hes : es = [] := by simpa [isOne] using h
  rw [hes]
  rfl

/-! ### Products -/

theorem Whole.raise {f : Factor} {es : List Factor} (hf : f.power.den = 1) (h : Whole es) :
    Whole (raise f es) := by
  induction es with
  | nil => exact h
  | cons e es ih =>
    obtain ⟨he, hes⟩ := Whole.cons_iff.mp h
    unfold Dimension.raise
    split
    · split
      · exact hes
      · exact Whole.cons_iff.mpr ⟨(add_of_den he hf).1, hes⟩
    · exact Whole.cons_iff.mpr ⟨he, ih hes⟩

theorem Whole.insert {f : Factor} {es : List Factor} (hf : f.power.den = 1) (h : Whole es) :
    Whole (insert f es) := by
  unfold Dimension.insert
  split
  · exact Whole.raise hf h
  · split
    · exact h
    · intro e he
      rw [(place_perm f es).mem_iff] at he
      exact Whole.cons_iff.mpr ⟨hf, h⟩ e he

theorem Whole.insertAll {fs es : List Factor} (hf : Whole fs) (h : Whole es) :
    Whole (insertAll fs es) := by
  unfold Dimension.insertAll
  induction fs generalizing es with
  | nil => exact h
  | cons f fs ih =>
    obtain ⟨hhead, htail⟩ := Whole.cons_iff.mp hf
    exact ih htail (Whole.insert hhead h)

section products

variable (hs : ∀ s, 0 < scale s)

include hs

theorem scaleFactors_raise {f : Factor} {es : List Factor} (hf : f.power.den = 1) (h : Whole es)
    (hmem : f.symbol ∈ es.map Factor.symbol) :
    scaleFactors scale (raise f es) = scale f.symbol ^ f.power.num * scaleFactors scale es := by
  induction es with
  | nil => simp at hmem
  | cons e es ih =>
    obtain ⟨he, hes⟩ := Whole.cons_iff.mp h
    have hne : scale f.symbol ≠ 0 := (hs f.symbol).ne'
    unfold raise
    by_cases hsym : e.symbol = f.symbol
    · have hsum : scale f.symbol ^ (e.power + f.power).num =
          scale f.symbol ^ e.power.num * scale f.symbol ^ f.power.num := by
        rw [(add_of_den he hf).2, zpow_add₀ hne]
      rw [if_pos (beq_iff_eq.mpr hsym), scaleFactors_cons, hsym]
      by_cases hp : e.power + f.power = 0
      · rw [hp, Rat.num_zero, zpow_zero] at hsum
        rw [if_pos (beq_iff_eq.mpr hp)]
        linear_combination scaleFactors scale es * hsum
      · rw [if_neg (by simpa using hp), scaleFactors_cons]
        dsimp only
        rw [hsum]
        ring
    · rw [List.map_cons, List.mem_cons] at hmem
      rw [if_neg (by simpa using hsym), scaleFactors_cons, scaleFactors_cons,
        ih hes (hmem.resolve_left (Ne.symm hsym))]
      ring

theorem scaleFactors_insert {f : Factor} {es : List Factor} (hf : f.power.den = 1)
    (h : Whole es) :
    scaleFactors scale (insert f es) = scale f.symbol ^ f.power.num * scaleFactors scale es := by
  unfold Dimension.insert
  split
  · next hmem => exact scaleFactors_raise hs hf h (any_symbol_iff.mp hmem)
  · split
    · next hp =>
      rw [beq_iff_eq.mp hp, Rat.num_zero, zpow_zero, one_mul]
    · rw [← scaleFactors_cons]
      exact ((place_perm f es).map _).prod_eq

theorem scaleFactors_insertAll {fs es : List Factor} (hf : Whole fs) (h : Whole es) :
    scaleFactors scale (insertAll fs es) = scaleFactors scale es * scaleFactors scale fs := by
  unfold Dimension.insertAll
  induction fs generalizing es with
  | nil => rw [List.foldl_nil, scaleFactors_nil, mul_one]
  | cons f fs ih =>
    obtain ⟨hhead, htail⟩ := Whole.cons_iff.mp hf
    rw [List.foldl_cons, ih htail (Whole.insert hhead h), scaleFactors_insert hs hhead h,
      scaleFactors_cons]
    ring

theorem scaleBy_mul {a b : Dimension} (ha : Whole a.factors) (hb : Whole b.factors) :
    (a.mul b).scaleBy scale = a.scaleBy scale * b.scaleBy scale :=
  scaleFactors_insertAll hs hb ha

end products

/-! ### Powers -/

/-- Multiplying the powers by an integer keeps them integers. -/
theorem Whole.mapPowers {d : Dimension} (h : Whole d.factors) {g : Rat → Rat} {n : Int}
    (hg : ∀ p, g p = p * n) : Whole (d.mapPowers g).factors := by
  intro f hf
  obtain ⟨e, he, rfl⟩ := List.mem_map.mp (List.mem_filter.mp hf).1
  have hpower : (e.mapPower g).power = e.power * n := hg e.power
  rw [hpower]
  exact (mul_of_den (h e he) n).1

theorem scaleBy_mapPowers {d : Dimension} (h : Whole d.factors) {g : Rat → Rat} {n : Int}
    (hg : ∀ p, g p = p * n) : (d.mapPowers g).scaleBy scale = d.scaleBy scale ^ n := by
  obtain ⟨es⟩ := d
  unfold scaleBy Dimension.mapPowers
  dsimp only at h ⊢
  induction es with
  | nil => rw [List.map_nil, List.filter_nil, scaleFactors_nil, one_zpow]
  | cons e es ih =>
    obtain ⟨he, hes⟩ := Whole.cons_iff.mp h
    have hpower : (e.mapPower g).power = e.power * n := hg e.power
    have hscale : scale e.symbol ^ (e.power * n).num = (scale e.symbol ^ e.power.num) ^ n := by
      rw [(mul_of_den he n).2, zpow_mul]
    rw [List.map_cons, List.filter_cons, scaleFactors_cons, mul_zpow, ← hscale, ← ih hes, hpower]
    by_cases hzero : e.power * n = 0
    · simp [hzero]
    · rw [if_pos (by simpa using hzero), scaleFactors_cons, hpower]
      rfl

theorem Whole.inv {d : Dimension} (h : Whole d.factors) : Whole d.inv.factors :=
  h.mapPowers (n := -1) fun p => by simp

theorem scaleBy_inv {d : Dimension} (h : Whole d.factors) :
    d.inv.scaleBy scale = (d.scaleBy scale)⁻¹ := by
  unfold Dimension.inv
  rw [scaleBy_mapPowers (n := -1) h fun p => by simp, zpow_neg_one]

theorem Whole.pow {d : Dimension} (h : Whole d.factors) (n : Int) :
    Whole (d.pow n).factors := by
  unfold Dimension.pow
  split
  · simp [Whole, one]
  · exact h.mapPowers fun _ => rfl

theorem scaleBy_pow {d : Dimension} (h : Whole d.factors) (n : Int) :
    (d.pow n).scaleBy scale = d.scaleBy scale ^ n := by
  unfold Dimension.pow
  split
  · next hn =>
    have hzero : n = 0 := by simpa using hn
    rw [hzero, zpow_zero, scaleBy_one]
  · exact scaleBy_mapPowers h fun _ => rfl

theorem Whole.mul {a b : Dimension} (ha : Whole a.factors) (hb : Whole b.factors) :
    Whole (a.mul b).factors :=
  Whole.insertAll hb ha

theorem Whole.div {a b : Dimension} (ha : Whole a.factors) (hb : Whole b.factors) :
    Whole (a.div b).factors :=
  ha.mul hb.inv

theorem scaleBy_div (hs : ∀ s, 0 < scale s) {a b : Dimension} (ha : Whole a.factors)
    (hb : Whole b.factors) : (a.div b).scaleBy scale = a.scaleBy scale / b.scaleBy scale := by
  unfold Dimension.div
  rw [scaleBy_mul hs ha hb.inv, scaleBy_inv hb, div_eq_mul_inv]

/-- The scale of a dimension depends on its symbols and powers alone. -/
theorem scaleBy_of_same {a b : Dimension} (h : a.same b = true) :
    a.scaleBy scale = b.scaleBy scale := by
  have hkeys : a.key = b.key := beq_iff_eq.mp h
  have hprod : ∀ d : Dimension, d.scaleBy scale =
      (d.key.map fun k => scale k.1 ^ k.2.num).prod := by
    intro d
    unfold scaleBy scaleFactors Dimension.key
    rw [List.map_map]
    rfl
  rw [hprod a, hprod b, hkeys]

end UnitCalculus.Dimension
