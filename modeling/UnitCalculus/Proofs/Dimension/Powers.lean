import UnitCalculus.Proofs.Dimension.Canonical

/-! # The powers of a dimension

`total s` adds up the powers of a symbol in a list of factors.  Inserting a factor adds its power
(`total_insert`), in any list; where the symbols differ the total is the power of the symbol
(`powerOf_eq_total`).  So the operations of the algebra act on the powers symbol by symbol, whatever
the ranks: `powerOf_mul`, `powerOf_div`, `powerOf_inv`, `powerOf_pow`, `powerOf_root`. -/

namespace UnitCalculus.Dimension

/-- The sum of the powers of a symbol. -/
def total (s : String) (es : List Factor) : Rat :=
  (es.map fun e => if e.symbol = s then e.power else 0).sum

@[simp] theorem total_nil (s : String) : total s [] = 0 := rfl

@[simp] theorem total_cons (s : String) (e : Factor) (es : List Factor) :
    total s (e :: es) = (if e.symbol = s then e.power else 0) + total s es := by
  simp [total]

theorem total_eq_zero {s : String} {es : List Factor} (h : s ∉ es.map Factor.symbol) :
    total s es = 0 := by
  induction es with
  | nil => rfl
  | cons e es ih =>
    rw [List.map_cons, List.mem_cons, not_or] at h
    rw [total_cons, if_neg (Ne.symm h.1), ih h.2, add_zero]

/-! ### Insertion -/

theorem total_raise {f : Factor} {es : List Factor} (hf : f.symbol ∈ es.map Factor.symbol)
    (s : String) : total s (raise f es) = total s [f] + total s es := by
  induction es with
  | nil => simp at hf
  | cons e es ih =>
    unfold raise
    by_cases he : e.symbol = f.symbol
    · rw [if_pos (beq_iff_eq.mpr he)]
      by_cases hp : e.power + f.power = 0
      · rw [if_pos (beq_iff_eq.mpr hp)]
        simp only [total_cons, total_nil, he]
        split
        · linear_combination (-1 : Rat) * hp
        · ring
      · rw [if_neg (by simpa using hp)]
        simp only [total_cons, total_nil, he]
        split <;> ring
    · rw [List.map_cons, List.mem_cons] at hf
      rw [if_neg (by simpa using he), total_cons s e, total_cons s e es,
        ih (hf.resolve_left (Ne.symm he))]
      ring

theorem total_perm {es fs : List Factor} (h : es.Perm fs) (s : String) :
    total s es = total s fs :=
  (h.map _).sum_eq

theorem total_insert (f : Factor) (es : List Factor) (s : String) :
    total s (insert f es) = total s [f] + total s es := by
  unfold Dimension.insert
  split
  · next hf => exact total_raise (any_symbol_iff.mp hf) s
  · split
    · next hp =>
      rw [beq_iff_eq] at hp
      simp [hp]
    · rw [total_perm (place_perm f es), total_cons, total_cons, total_nil, add_zero]

theorem total_insertAll (fs es : List Factor) (s : String) :
    total s (insertAll fs es) = total s es + total s fs := by
  unfold Dimension.insertAll
  induction fs generalizing es with
  | nil => simp
  | cons f fs ih =>
    rw [List.foldl_cons, ih, total_insert, total_cons, total_cons, total_nil]
    ring

/-! ### Powers of symbols -/

theorem powerOf_eq_total {d : Dimension} (h : Canonical d.factors) (s : String) :
    d.powerOf s = total s d.factors := by
  obtain ⟨es⟩ := d
  have hn := h.nodup
  clear h
  dsimp only at hn ⊢
  induction es with
  | nil => rfl
  | cons e es ih =>
    rw [List.map_cons, List.nodup_cons] at hn
    rw [total_cons]
    by_cases he : e.symbol = s
    · have hs : s ∉ es.map Factor.symbol := he ▸ hn.1
      rw [if_pos he, total_eq_zero hs, add_zero]
      simp [powerOf, he]
    · have hskip : powerOf ⟨e :: es⟩ s = powerOf ⟨es⟩ s := by simp [powerOf, he]
      rw [if_neg he, hskip, ih hn.2, zero_add]

theorem powerOf_ofFactors (fs : List Factor) (s : String) :
    (ofFactors fs).powerOf s = total s fs := by
  rw [powerOf_eq_total (Built.ofFactors fs).canonical]
  unfold ofFactors
  rw [total_insertAll, total_nil, zero_add]

theorem powerOf_one (s : String) : one.powerOf s = 0 := rfl

theorem powerOf_mul {a b : Dimension} (ha : Canonical a.factors) (hb : Canonical b.factors)
    (s : String) : (a.mul b).powerOf s = a.powerOf s + b.powerOf s := by
  rw [powerOf_eq_total ha.mul, powerOf_eq_total ha, powerOf_eq_total hb]
  exact total_insertAll b.factors a.factors s

/-- Mapping the powers by an additive function maps the power of every symbol. -/
theorem powerOf_mapPowers {d : Dimension} (h : Canonical d.factors) (g : Rat →+ Rat) (s : String) :
    (d.mapPowers g).powerOf s = g (d.powerOf s) := by
  rw [powerOf_eq_total (h.mapPowers g), powerOf_eq_total h]
  unfold mapPowers
  dsimp only
  induction d.factors with
  | nil => simp
  | cons e es ih =>
    rw [List.map_cons, List.filter_cons, total_cons, map_add, ← ih]
    by_cases he : g e.power = 0
    · have hzero : g (if e.symbol = s then e.power else 0) = 0 := by split <;> simp [he]
      rw [if_neg (by simp [he]), hzero, zero_add]
    · rw [if_pos (by simp [he]), total_cons]
      congr 1
      by_cases hs : e.symbol = s
      · rw [if_pos hs, if_pos (show (e.mapPower g).symbol = s from hs)]
        rfl
      · rw [if_neg hs, if_neg (show ¬(e.mapPower g).symbol = s from hs), map_zero]

theorem powerOf_inv {d : Dimension} (h : Canonical d.factors) (s : String) :
    d.inv.powerOf s = -d.powerOf s :=
  powerOf_mapPowers h (-AddMonoidHom.id Rat) s

theorem powerOf_div {a b : Dimension} (ha : Canonical a.factors) (hb : Canonical b.factors)
    (s : String) : (a.div b).powerOf s = a.powerOf s - b.powerOf s := by
  unfold div
  rw [powerOf_mul ha hb.inv, powerOf_inv hb, sub_eq_add_neg]

theorem powerOf_pow {d : Dimension} (h : Canonical d.factors) (q : Rat) (s : String) :
    (d.pow q).powerOf s = d.powerOf s * q := by
  unfold pow
  split
  · next hq =>
    rw [beq_iff_eq.mp hq, mul_zero]
    exact powerOf_one s
  · exact powerOf_mapPowers h (AddMonoidHom.mulRight q) s

theorem powerOf_root {a b : Dimension} (h : Canonical a.factors) {q : Rat}
    (hb : a.root? q = some b) (s : String) : b.powerOf s = a.powerOf s / q := by
  have hfun : (fun x : Rat => x / q) = AddMonoidHom.mulRight q⁻¹ := by
    ext x
    exact div_eq_mul_inv x q
  rw [← (root?_eq_some_iff.mp hb).2, hfun, powerOf_mapPowers h, div_eq_mul_inv]
  rfl

/-! ### Factors and powers -/

/-- A factor of a canonical dimension has the power of its symbol. -/
theorem powerOf_of_mem {d : Dimension} (h : Canonical d.factors) {f : Factor}
    (hf : f ∈ d.factors) : d.powerOf f.symbol = f.power := by
  unfold powerOf
  rw [h.find?_symbol hf]

/-- The symbols with a power other than zero are those of the factors. -/
theorem mem_key_iff {d : Dimension} (h : Canonical d.factors) (k : String × Rat) :
    k ∈ d.key ↔ d.powerOf k.1 = k.2 ∧ k.2 ≠ 0 := by
  unfold key
  rw [List.mem_map]
  constructor
  · rintro ⟨f, hf, rfl⟩
    exact ⟨powerOf_of_mem h hf, h.nonzero f hf⟩
  · rintro ⟨hp, hk⟩
    unfold powerOf at hp
    cases hg : d.factors.find? (·.symbol == k.1) with
    | none =>
      rw [hg] at hp
      exact absurd hp.symm hk
    | some g =>
      rw [hg] at hp
      have hs : g.symbol = k.1 := by simpa using List.find?_some hg
      exact ⟨g, List.mem_of_find?_eq_some hg, Prod.ext hs hp⟩

end UnitCalculus.Dimension
