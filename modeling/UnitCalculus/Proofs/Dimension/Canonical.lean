import Mathlib
import UnitCalculus.Dimension

/-! # The canonical form of a dimension

A list of factors is *canonical* when its symbols differ, no power is zero, and the factors stand in
the strict order of their ranks and symbols (`Canonical`).  Inserting a factor keeps the form
(`Canonical.insert`), whichever of the four things happens to the list: a factor is dropped, gets
another power, is put in place, or nothing changes.  So every dimension that the operations make out
of arbitrary factors is canonical (`Built.canonical`). -/

namespace UnitCalculus

/-! ### The order of factors -/

/-- A rank as a number; no rank comes right after the rank `Factor.unranked`. -/
def rankKey : Option Int → Int
  | some n => 2 * n
  | none => 2 * Factor.unranked + 1

/-- Rank first, then symbol. -/
def placeKey (rank : Option Int) (symbol : String) : Lex (Int × String) :=
  toLex (rankKey rank, symbol)

theorem rankKey_injective : Function.Injective rankKey := by
  intro a b h
  cases a with
  | none => cases b with
    | none => rfl
    | some n => simp only [rankKey] at h; omega
  | some m => cases b with
    | none => simp only [rankKey] at h; omega
    | some n => simp only [rankKey] at h; exact congrArg some (by omega)

theorem placeKey_inj {r r' : Option Int} {s s' : String} :
    placeKey r s = placeKey r' s' ↔ r = r' ∧ s = s' := by
  unfold placeKey
  rw [EmbeddingLike.apply_eq_iff_eq, Prod.mk.injEq, rankKey_injective.eq_iff]

namespace Factor

/-- Where a factor stands in a dimension. -/
def sortKey (f : Factor) : Lex (Int × String) := placeKey f.rank f.symbol

theorem rankLt_iff (a b : Option Int) : rankLt a b = true ↔ rankKey a < rankKey b := by
  cases a with
  | none => cases b with
    | none => simp [rankLt]
    | some n => simp [rankLt, rankKey]; omega
  | some m => cases b with
    | none => simp [rankLt, rankKey]
    | some n => simp [rankLt, rankKey]

theorem precedes_iff (a b : Factor) : a.precedes b = true ↔ a.sortKey < b.sortKey := by
  unfold precedes sortKey placeKey
  rw [Prod.Lex.toLex_lt_toLex, Bool.or_eq_true, Bool.and_eq_true, rankLt_iff, beq_iff_eq,
    decide_eq_true_iff, rankKey_injective.eq_iff]

/-- Factors of different symbols have an order. -/
theorem sortKey_lt_of_not_precedes {a b : Factor} (hs : a.symbol ≠ b.symbol)
    (h : ¬ a.precedes b = true) : b.sortKey < a.sortKey := by
  rw [precedes_iff, not_lt] at h
  refine lt_of_le_of_ne h fun he => hs ?_
  exact (placeKey_inj.mp he).2.symm

@[simp] theorem power_mapPower (g : Rat → Rat) (f : Factor) :
    (f.mapPower g).power = g f.power := rfl

end Factor

namespace Dimension

/-! ### Canonical lists -/

/-- The factors are in order, their symbols differ, and no power is zero. -/
structure Canonical (es : List Factor) : Prop where
  sorted : (es.map Factor.sortKey).Pairwise (· < ·)
  nodup : (es.map Factor.symbol).Nodup
  nonzero : ∀ e ∈ es, e.power ≠ 0

theorem canonical_nil : Canonical [] := ⟨by simp, by simp, by simp⟩

/-- A symbol is found at the one factor that has it. -/
theorem Canonical.find?_symbol {es : List Factor} (h : Canonical es) {f : Factor} (hf : f ∈ es) :
    es.find? (·.symbol == f.symbol) = some f := by
  cases hg : es.find? (·.symbol == f.symbol) with
  | none =>
    have := List.find?_eq_none.mp hg f hf
    simp at this
  | some g =>
    have hs : g.symbol = f.symbol := by simpa using List.find?_some hg
    rw [List.inj_on_of_nodup_map h.nodup (List.mem_of_find?_eq_some hg) hf hs]

/-- Leaving out factors and changing powers keeps the form. -/
theorem Canonical.of_sublist {es fs : List Factor} (h : Canonical es)
    (hs : (fs.map Factor.sortKey).Sublist (es.map Factor.sortKey))
    (hne : ∀ f ∈ fs, f.power ≠ 0) : Canonical fs := by
  have symbols : ∀ l : List Factor,
      l.map Factor.symbol = (l.map Factor.sortKey).map fun k => (ofLex k).2 := by
    intro l
    rw [List.map_map]
    rfl
  refine ⟨h.sorted.sublist hs, ?_, hne⟩
  rw [symbols]
  refine List.Nodup.sublist (hs.map _) ?_
  rw [← symbols]
  exact h.nodup

/-! ### Insertion -/

theorem any_symbol_iff {f : Factor} {es : List Factor} :
    es.any (·.symbol == f.symbol) = true ↔ f.symbol ∈ es.map Factor.symbol := by
  simp [List.any_eq_true, List.mem_map]

theorem raise_sublist (f : Factor) (es : List Factor) :
    ((raise f es).map Factor.sortKey).Sublist (es.map Factor.sortKey) := by
  induction es with
  | nil => simp [raise]
  | cons e es ih =>
    unfold raise
    split
    · split
      · exact List.Sublist.cons _ (List.Sublist.refl _)
      · exact List.Sublist.refl _
    · exact List.Sublist.cons_cons _ ih

theorem raise_nonzero {f : Factor} {es : List Factor} (h : ∀ e ∈ es, e.power ≠ 0) :
    ∀ e ∈ raise f es, e.power ≠ 0 := by
  induction es with
  | nil => simp [raise]
  | cons e es ih =>
    obtain ⟨he, hes⟩ := List.forall_mem_cons.mp h
    unfold raise
    split
    · split
      · exact hes
      · next hp =>
        refine List.forall_mem_cons.mpr ⟨?_, hes⟩
        simpa using hp
    · exact List.forall_mem_cons.mpr ⟨he, ih hes⟩

theorem place_perm (f : Factor) (es : List Factor) : (place f es).Perm (f :: es) := by
  induction es with
  | nil => simp [place]
  | cons e es ih =>
    unfold place
    split
    · exact List.Perm.refl _
    · exact (ih.cons e).trans (List.Perm.swap f e es)

theorem place_sorted {f : Factor} {es : List Factor}
    (hs : (es.map Factor.sortKey).Pairwise (· < ·)) (hf : f.symbol ∉ es.map Factor.symbol) :
    ((place f es).map Factor.sortKey).Pairwise (· < ·) := by
  induction es with
  | nil => simp [place]
  | cons e es ih =>
    rw [List.map_cons, List.pairwise_cons] at hs
    rw [List.map_cons, List.mem_cons, not_or] at hf
    unfold place
    split
    · next hp =>
      have hlt := (Factor.precedes_iff f e).mp hp
      rw [List.map_cons, List.pairwise_cons, List.map_cons, List.pairwise_cons]
      refine ⟨?_, hs⟩
      intro k hk
      rcases List.mem_cons.mp hk with rfl | hk
      · exact hlt
      · exact hlt.trans (hs.1 k hk)
    · next hp =>
      rw [List.map_cons, List.pairwise_cons]
      refine ⟨?_, ih hs.2 hf.2⟩
      intro k hk
      rcases List.mem_cons.mp (((place_perm f es).map Factor.sortKey).subset hk) with rfl | hk
      · exact Factor.sortKey_lt_of_not_precedes hf.1 hp
      · exact hs.1 k hk

theorem Canonical.raise {es : List Factor} (h : Canonical es) (f : Factor) :
    Canonical (raise f es) :=
  h.of_sublist (raise_sublist f es) (raise_nonzero h.nonzero)

theorem Canonical.place {es : List Factor} (h : Canonical es) {f : Factor}
    (hf : f.symbol ∉ es.map Factor.symbol) (hp : f.power ≠ 0) : Canonical (place f es) := by
  refine ⟨place_sorted h.sorted hf, ?_, ?_⟩
  · rw [((place_perm f es).map Factor.symbol).nodup_iff, List.map_cons, List.nodup_cons]
    exact ⟨hf, h.nodup⟩
  · intro e he
    rcases List.mem_cons.mp ((place_perm f es).subset he) with rfl | he
    · exact hp
    · exact h.nonzero e he

theorem Canonical.insert {es : List Factor} (h : Canonical es) (f : Factor) :
    Canonical (insert f es) := by
  unfold Dimension.insert
  split
  · exact h.raise f
  · next hf =>
    rw [any_symbol_iff] at hf
    split
    · exact h
    · next hp => exact h.place hf (by simpa using hp)

theorem Canonical.insertAll {es : List Factor} (h : Canonical es) (fs : List Factor) :
    Canonical (insertAll fs es) := by
  unfold Dimension.insertAll
  induction fs generalizing es with
  | nil => exact h
  | cons f fs ih => exact ih (h.insert f)

theorem Canonical.mapPowers {d : Dimension} (h : Canonical d.factors) (g : Rat → Rat) :
    Canonical (d.mapPowers g).factors := by
  refine h.of_sublist ?_ ?_
  · have hs := (List.filter_sublist (p := fun f => f.power != 0)
      (l := d.factors.map (Factor.mapPower g))).map Factor.sortKey
    rwa [List.map_map] at hs
  · intro f hf
    simpa using (List.mem_filter.mp hf).2

theorem Canonical.mul {a b : Dimension} (h : Canonical a.factors) :
    Canonical (a.mul b).factors :=
  h.insertAll b.factors

theorem Canonical.inv {d : Dimension} (h : Canonical d.factors) : Canonical d.inv.factors :=
  h.mapPowers _

theorem Canonical.pow {d : Dimension} (h : Canonical d.factors) (q : Rat) :
    Canonical (d.pow q).factors := by
  unfold Dimension.pow
  split
  · exact canonical_nil
  · exact h.mapPowers _

/-! ### The dimensions that the operations make -/

/-- A dimension made out of arbitrary factors by the operations of the algebra. -/
inductive Built : Dimension → Prop where
  | ofFactors (fs : List Factor) : Built (ofFactors fs)
  | base (symbol : String) (rank : Option Int) : Built (base symbol rank)
  | mul {a b : Dimension} : Built a → Built b → Built (a.mul b)
  | div {a b : Dimension} : Built a → Built b → Built (a.div b)
  | inv {a : Dimension} : Built a → Built a.inv
  | pow {a : Dimension} (q : Rat) : Built a → Built (a.pow q)
  | root {a b : Dimension} (q : Rat) : Built a → a.root? q = some b → Built b

theorem root?_eq_some_iff {a b : Dimension} {q : Rat} :
    a.root? q = some b ↔ q ≠ 0 ∧ a.mapPowers (· / q) = b := by
  unfold root?
  split <;> simp_all

/-- What the operations make is in canonical form. -/
theorem Built.canonical {d : Dimension} (h : Built d) : Canonical d.factors := by
  induction h with
  | ofFactors fs => exact canonical_nil.insertAll fs
  | base symbol rank =>
    unfold Dimension.base
    split
    · exact canonical_nil
    · exact canonical_nil.insertAll _
  | mul _ _ ha _ => exact ha.mul
  | div _ _ ha _ => exact ha.mul
  | inv _ ha => exact ha.inv
  | pow q _ ha => exact ha.pow q
  | root q _ hq ha =>
    rw [← (root?_eq_some_iff.mp hq).2]
    exact ha.mapPowers _

end Dimension

end UnitCalculus
