import UnitCalculus.Kind
import UnitCalculus.Proofs.Dimension.Laws

/-! # The kinds that exist

The kinds only ever grow by `Kinds.intern`, which keeps those that exist and makes at most the one
that was asked for (`intern_mem`, `mem_intern`).  Whatever was asked for (`Kinds.Reachable`), the
dimensions of the kinds were made by the algebra (`Reachable.built`), and a kind can be told by its
dimension: two kinds with the same dimension are one (`Reachable.eq_of_same`).  What was found for a
dimension is found for it at all later times (`Grows.find?`). -/

namespace UnitCalculus

namespace Dimension

variable {a b c : Dimension}

theorem same_refl (a : Dimension) : a.same a = true := same_iff_key.mpr rfl

theorem same_symm (h : a.same b = true) : b.same a = true :=
  same_iff_key.mpr (same_iff_key.mp h).symm

theorem same_trans (hab : a.same b = true) (hbc : b.same c = true) : a.same c = true :=
  same_iff_key.mpr ((same_iff_key.mp hab).trans (same_iff_key.mp hbc))

theorem same_congr {a' b' : Dimension} (ha : a.same a' = true) (hb : b.same b' = true) :
    a.same b = a'.same b' := by
  unfold same
  rw [same_iff_key.mp ha, same_iff_key.mp hb]

theorem isOne_congr (h : a.same b = true) : a.isOne = b.isOne := by
  have hkey := congrArg List.isEmpty (same_iff_key.mp h)
  simpa [key, isOne] using hkey

/-! ### Sameness of what the operations make

Mapping the powers keeps the order of the factors and therefore respects sameness whatever the ranks;
a product does so where every symbol has one rank. -/

theorem key_mapPowers (g : Rat → Rat) (d : Dimension) :
    (d.mapPowers g).key = (d.key.map fun k => (k.1, g k.2)).filter (·.2 != 0) := by
  rw [key, mapPowers, key, List.map_map, List.filter_map, List.filter_map, List.map_map]
  rfl

theorem mapPowers_congr (g : Rat → Rat) (h : a.same b = true) :
    (a.mapPowers g).same (b.mapPowers g) = true := by
  rw [same_iff_key, key_mapPowers, key_mapPowers, same_iff_key.mp h]

theorem inv_congr (h : a.same b = true) : a.inv.same b.inv = true := mapPowers_congr _ h

namespace Regular

variable {ρ : String → Option Int} {a' b' : Dimension}

theorem mul_congr (ha : Regular ρ a) (ha' : Regular ρ a') (hb : Regular ρ b) (hb' : Regular ρ b')
    (h : a.same a' = true) (h' : b.same b' = true) : (a.mul b).same (a'.mul b') = true := by
  rw [(ha.mul hb).same_iff (ha'.mul hb')]
  intro s
  rw [powerOf_mul ha.canonical hb.canonical, powerOf_mul ha'.canonical hb'.canonical,
    (ha.same_iff ha').mp h s, (hb.same_iff hb').mp h' s]

theorem div_congr (ha : Regular ρ a) (ha' : Regular ρ a') (hb : Regular ρ b) (hb' : Regular ρ b')
    (h : a.same a' = true) (h' : b.same b' = true) : (a.div b).same (a'.div b') = true :=
  mul_congr ha ha' hb.inv hb'.inv h (inv_congr h')

end Regular

end Dimension

open Dimension

namespace Kinds

/-- The kinds that a program may have asked for. -/
inductive Reachable : Kinds → Prop where
  | empty : Reachable empty
  | intern {ks : Kinds} {d : Dimension} (name : Option String) (hd : Built d) (h : Reachable ks) :
    Reachable (ks.intern d name).2

variable {ks : Kinds} {d : Dimension} {k l : Kind}

theorem find?_eq_some (h : ks.find? d = some k) : k ∈ ks.all ∧ k.dimension.same d = true :=
  ⟨List.mem_of_find?_eq_some h, List.find?_some (p := fun k : Kind => k.dimension.same d) h⟩

theorem find?_eq_none (h : ks.find? d = none) (hl : l ∈ ks.all) : ¬l.dimension.same d = true :=
  List.find?_eq_none.mp h l hl

/-- The kind that was asked for exists then and has the dimension; all others are still there. -/
theorem intern_mem (ks : Kinds) (d : Dimension) (name : Option String) :
    (ks.intern d name).1 ∈ (ks.intern d name).2.all ∧
      (ks.intern d name).1.dimension.same d = true ∧ ks.all ⊆ (ks.intern d name).2.all := by
  unfold intern
  split
  · next k h => exact ⟨(find?_eq_some h).1, (find?_eq_some h).2, List.Subset.refl _⟩
  · exact ⟨by simp, same_refl d, List.subset_append_left _ _⟩

/-- No other kinds come up. -/
theorem mem_intern {name : Option String} (hl : l ∈ (ks.intern d name).2.all) :
    l ∈ ks.all ∨ l.dimension = d := by
  unfold intern at hl
  split at hl
  · exact .inl hl
  · rcases List.mem_append.mp hl with hl | hl
    · exact .inl hl
    · rw [List.mem_singleton.mp hl]
      exact .inr rfl

theorem Reachable.built (h : ks.Reachable) (hk : k ∈ ks.all) : Built k.dimension := by
  induction h generalizing k with
  | empty => cases hk
  | intern name hd h ih =>
    rcases mem_intern hk with hk | rfl
    · exact ih hk
    · exact hd

/-! ### One kind for each dimension -/

theorem find?_congr {a b : Dimension} (h : a.same b = true) : ks.find? a = ks.find? b := by
  have hsame : (fun k : Kind => k.dimension.same a) = fun k => k.dimension.same b :=
    funext fun k => same_congr (same_refl k.dimension) h
  rw [find?, find?, hsame]

/-- No two kinds have the same dimension. -/
def Distinct (ks : Kinds) : Prop :=
  ks.all.Pairwise fun k l => ¬k.dimension.same l.dimension = true

instance (ks : Kinds) : Decidable ks.Distinct :=
  inferInstanceAs (Decidable (ks.all.Pairwise _))

theorem Distinct.intern (h : ks.Distinct) (d : Dimension) (name : Option String) :
    (ks.intern d name).2.Distinct := by
  unfold Kinds.intern
  split
  · exact h
  · next hnone =>
    refine List.pairwise_append.mpr ⟨h, List.pairwise_singleton _ _, fun k hk l hl => ?_⟩
    rw [List.mem_singleton.mp hl]
    exact find?_eq_none hnone hk

/-- A kind is the one that is found for its dimension. -/
theorem Distinct.find?_eq (h : ks.Distinct) (hk : k ∈ ks.all) (hd : k.dimension.same d = true) :
    ks.find? d = some k := by
  cases hfind : ks.find? d with
  | none => exact absurd hd (find?_eq_none hfind hk)
  | some l =>
    obtain ⟨hl, hld⟩ := find?_eq_some hfind
    have : Std.Symm fun k l : Kind => ¬k.dimension.same l.dimension = true :=
      ⟨fun _ _ => mt same_symm⟩
    by_contra hne
    exact h.forall hl hk (fun he => hne (congrArg some he)) (same_trans hld (same_symm hd))

theorem Reachable.distinct (h : ks.Reachable) : ks.Distinct := by
  induction h with
  | empty => exact .nil
  | intern name hd h ih => exact ih.intern _ name

/-- All kinds are still there, at their places, and still no two have the same dimension. -/
structure Grows (ks ks' : Kinds) : Prop where
  kept : ks.all <+: ks'.all
  distinct : ks.Distinct → ks'.Distinct

namespace Grows

variable {ks' ks'' : Kinds}

theorem refl (ks : Kinds) : ks.Grows ks := ⟨List.prefix_rfl, id⟩

theorem trans (h : ks.Grows ks') (h' : ks'.Grows ks'') : ks.Grows ks'' :=
  ⟨h.kept.trans h'.kept, fun hd => h'.distinct (h.distinct hd)⟩

/-- What is found for a dimension stays what is found for it. -/
theorem find? (h : ks.Grows ks') (hk : ks.find? d = some k) : ks'.find? d = some k := by
  obtain ⟨new, hnew⟩ := h.kept
  unfold Kinds.find? at hk ⊢
  rw [← hnew, List.find?_append, hk, Option.some_or]

end Grows

theorem grows_intern (ks : Kinds) (d : Dimension) (name : Option String) :
    ks.Grows (ks.intern d name).2 := by
  refine ⟨?_, fun h => h.intern d name⟩
  unfold intern
  split
  · exact List.prefix_rfl
  · exact List.prefix_append _ _

/-- The kind that was asked for is the one that is found from then on. -/
theorem find?_intern (ks : Kinds) (d : Dimension) (name : Option String) :
    (ks.intern d name).2.find? d = some (ks.intern d name).1 := by
  unfold intern
  split
  · next h => exact h
  · next h =>
    unfold find? at h ⊢
    rw [List.find?_append, h, Option.none_or]
    simp [same_refl]

/-! ### Ranks -/

/-- The kinds were asked for, and every symbol in their dimensions has its rank from `ρ`. -/
structure Regular (ρ : String → Option Int) (ks : Kinds) : Prop where
  reachable : ks.Reachable
  ranked : ∀ k ∈ ks.all, Ranked ρ k.dimension

variable {ρ : String → Option Int}

theorem Regular.of_mem (h : ks.Regular ρ) (hk : k ∈ ks.all) : Dimension.Regular ρ k.dimension :=
  ⟨(h.reachable.built hk).canonical, h.ranked k hk⟩

theorem Regular.intern (h : ks.Regular ρ) (name : Option String) (hd : Built d)
    (hρ : Ranked ρ d) : (ks.intern d name).2.Regular ρ := by
  refine ⟨.intern name hd h.reachable, fun k hk => ?_⟩
  rcases mem_intern hk with hk | rfl
  · exact h.ranked k hk
  · exact hρ

end Kinds

namespace Interning

theorem runWith_kind (ks : Kinds) (d : Dimension) (name : Option String) :
    runWith ks (kind d name) = (.ok (ks.intern d name).1, (ks.intern d name).2) := rfl

end Interning

end UnitCalculus
