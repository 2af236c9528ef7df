import UnitCalculus.Proofs.Dimension.Powers

/-! # Ranks and the order of the factors

A dimension does not compare its ranks, yet they decide the order of its factors, which it does
compare.  `Ranked ρ` says that a dimension takes the rank of each symbol from `ρ`; a canonical
dimension is ranked by its own `rankOf`, and a product by the ranks of its left side and, for the
symbols that do not occur there, of its right side (`ranked_mul`).

Two canonical dimensions are the same exactly when they have the same powers and their ranks put
each two of their symbols in the same order (`same_iff_of_ranked`). -/

namespace UnitCalculus.Dimension

/-- The dimension takes the ranks of its symbols from `ρ`. -/
def Ranked (ρ : String → Option Int) (d : Dimension) : Prop :=
  ∀ f ∈ d.factors, f.rank = ρ f.symbol

instance (ρ : String → Option Int) (d : Dimension) : Decidable (Ranked ρ d) :=
  inferInstanceAs (Decidable (∀ f ∈ d.factors, f.rank = ρ f.symbol))

/-- Whether the ranks put the symbol `s` before `t`. -/
def Before (ρ : String → Option Int) (s t : String) : Prop :=
  placeKey (ρ s) s < placeKey (ρ t) t

/-- The rank of a symbol, none when it does not occur. -/
def rankOf (d : Dimension) (s : String) : Option Int :=
  (d.factors.find? (·.symbol == s)).bind Factor.rank

/-- The rank of a symbol on the left, or on the right when it does not occur on the left. -/
def jointRank (a b : Dimension) (s : String) : Option Int :=
  if s ∈ a.symbols then a.rankOf s else b.rankOf s

theorem Before.asymm {ρ : String → Option Int} {s t : String} (h : Before ρ s t) :
    ¬Before ρ t s :=
  lt_asymm h

theorem ranked_rankOf {d : Dimension} (h : Canonical d.factors) : Ranked d.rankOf d := by
  intro f hf
  unfold rankOf
  rw [h.find?_symbol hf]
  rfl

/-! ### Ranks under the operations -/

/-- A factor of a raised list has the symbol and the rank of one that was there. -/
theorem mem_raise {f g : Factor} {es : List Factor} (hg : g ∈ raise f es) :
    ∃ e ∈ es, e.rank = g.rank ∧ e.symbol = g.symbol := by
  have hk := (raise_sublist f es).subset (List.mem_map_of_mem hg)
  obtain ⟨e, he, hkey⟩ := List.mem_map.mp hk
  exact ⟨e, he, placeKey_inj.mp hkey⟩

theorem ranked_insert {ρ : String → Option Int} {f : Factor} {es : List Factor}
    (hes : Ranked ρ ⟨es⟩) (hf : f.symbol ∉ es.map Factor.symbol → f.rank = ρ f.symbol) :
    Ranked ρ ⟨insert f es⟩ := by
  intro g hg
  dsimp only at hg
  unfold Dimension.insert at hg
  split at hg
  · obtain ⟨e, he, hr, hs⟩ := mem_raise hg
    rw [← hr, ← hs]
    exact hes e he
  · next hany =>
    rw [any_symbol_iff] at hany
    split at hg
    · exact hes g hg
    · rcases List.mem_cons.mp ((place_perm f es).subset hg) with rfl | hg
      · exact hf hany
      · exact hes g hg

/-- Inserting a factor leaves the other symbols in the list. -/
theorem mem_symbols_insert {f : Factor} {es : List Factor} {s : String}
    (hs : s ∈ es.map Factor.symbol) (hne : s ≠ f.symbol) :
    s ∈ (insert f es).map Factor.symbol := by
  unfold Dimension.insert
  split
  · induction es with
    | nil => simp at hs
    | cons e es ih =>
      rw [List.map_cons, List.mem_cons] at hs
      unfold raise
      by_cases he : e.symbol = f.symbol
      · have hes := hs.resolve_left fun h => hne (h.trans he)
        rw [if_pos (beq_iff_eq.mpr he)]
        split
        · exact hes
        · exact List.mem_cons_of_mem _ hes
      · rw [if_neg (by simpa using he), List.map_cons, List.mem_cons]
        rcases hs with hs | hs
        · exact Or.inl hs
        · right
          by_cases hany : es.any (·.symbol == f.symbol) = true
          · exact ih hs hany
          · exact absurd ‹(e :: es).any _ = true› (by simp_all)
  · split
    · exact hs
    · exact ((place_perm f es).map Factor.symbol).symm.subset (List.mem_cons_of_mem _ hs)

theorem ranked_insertAll {ρ : String → Option Int} {fs es : List Factor}
    (hes : Ranked ρ ⟨es⟩) (hn : (fs.map Factor.symbol).Nodup)
    (hfs : ∀ f ∈ fs, f.symbol ∉ es.map Factor.symbol → f.rank = ρ f.symbol) :
    Ranked ρ ⟨insertAll fs es⟩ := by
  unfold Dimension.insertAll
  induction fs generalizing es with
  | nil => exact hes
  | cons f fs ih =>
    rw [List.map_cons, List.nodup_cons] at hn
    rw [List.foldl_cons]
    refine ih (ranked_insert hes (hfs f List.mem_cons_self)) hn.2 ?_
    intro g hg hgs
    have hne : g.symbol ≠ f.symbol := fun he => hn.1 (he ▸ List.mem_map_of_mem hg)
    exact hfs g (List.mem_cons_of_mem f hg) fun h => hgs (mem_symbols_insert h hne)

theorem Ranked.mul {ρ : String → Option Int} {a b : Dimension} (ha : Ranked ρ a)
    (hb : Ranked ρ b) (hcb : Canonical b.factors) : Ranked ρ (a.mul b) :=
  ranked_insertAll ha hcb.nodup fun f hf _ => hb f hf

/-- A product has the ranks of its left side, and for other symbols those of its right side. -/
theorem ranked_mul {a b : Dimension} (ha : Canonical a.factors) (hb : Canonical b.factors) :
    Ranked (jointRank a b) (a.mul b) := by
  refine ranked_insertAll ?_ hb.nodup ?_
  · intro f hf
    have hs : f.symbol ∈ a.symbols := List.mem_map_of_mem hf
    rw [jointRank, if_pos hs]
    exact ranked_rankOf ha f hf
  · intro f hf hs
    rw [jointRank, if_neg (show f.symbol ∉ a.symbols from hs)]
    exact ranked_rankOf hb f hf

theorem Ranked.mapPowers {ρ : String → Option Int} {d : Dimension} (h : Ranked ρ d)
    (g : Rat → Rat) : Ranked ρ (d.mapPowers g) := by
  intro f hf
  obtain ⟨e, he, rfl⟩ := List.mem_map.mp (List.mem_filter.mp hf).1
  exact h e he

theorem ranked_one (ρ : String → Option Int) : Ranked ρ one := by
  intro f hf
  simp [one] at hf

theorem Ranked.pow {ρ : String → Option Int} {d : Dimension} (h : Ranked ρ d) (q : Rat) :
    Ranked ρ (d.pow q) := by
  unfold Dimension.pow
  split
  · exact ranked_one ρ
  · exact h.mapPowers _

/-! ### Sameness -/

theorem same_iff_key {a b : Dimension} : a.same b = true ↔ a.key = b.key := by
  simp [same]

/-- The symbols of a canonical dimension stand in the order of their ranks. -/
theorem key_sorted {ρ : String → Option Int} {d : Dimension} (h : Canonical d.factors)
    (hρ : Ranked ρ d) : d.key.Pairwise fun k l => Before ρ k.1 l.1 := by
  unfold key
  rw [List.pairwise_map]
  refine (List.pairwise_map.mp h.sorted).imp_of_mem ?_
  intro f g hf hg hlt
  show placeKey (ρ f.symbol) f.symbol < placeKey (ρ g.symbol) g.symbol
  rw [← hρ f hf, ← hρ g hg]
  exact hlt

theorem powerOf_eq_of_key {a b : Dimension} (ha : Canonical a.factors)
    (hb : Canonical b.factors) (h : a.key = b.key) (s : String) :
    a.powerOf s = b.powerOf s := by
  by_cases hs : a.powerOf s = 0
  · by_contra hne
    have hmem := (mem_key_iff hb (s, b.powerOf s)).mpr ⟨rfl, fun h0 => hne (hs.trans h0.symm)⟩
    rw [← h] at hmem
    exact hne ((mem_key_iff ha _).mp hmem).1
  · have hmem := (mem_key_iff ha (s, a.powerOf s)).mpr ⟨rfl, hs⟩
    rw [h] at hmem
    exact ((mem_key_iff hb _).mp hmem).1.symm

/-- Two orders of the same list agree on its members. -/
theorem before_iff_of_sorted {ρ σ : String → Option Int} {l : List (String × Rat)}
    (hρ : l.Pairwise fun k m => Before ρ k.1 m.1) (hσ : l.Pairwise fun k m => Before σ k.1 m.1)
    {k m : String × Rat} (hk : k ∈ l) (hm : m ∈ l) : Before ρ k.1 m.1 ↔ Before σ k.1 m.1 := by
  have both := hρ.and hσ
  refine List.Pairwise.forall_of_forall_of_flip
    (R := fun k m => Before ρ k.1 m.1 ↔ Before σ k.1 m.1)
    (fun _ _ => ?_) (both.imp ?_) (both.imp ?_) hk hm
  · exact iff_of_false (lt_irrefl _) (lt_irrefl _)
  · exact fun h => iff_of_true h.1 h.2
  · exact fun h => iff_of_false h.1.asymm h.2.asymm

/-- Sameness is equality of all powers together with agreement of the ranks on the order of the
symbols. -/
theorem same_iff_of_ranked {a b : Dimension} (ha : Canonical a.factors)
    (hb : Canonical b.factors) {ρ σ : String → Option Int} (hρ : Ranked ρ a) (hσ : Ranked σ b) :
    a.same b = true ↔ (∀ s, a.powerOf s = b.powerOf s) ∧
      ∀ s t, a.powerOf s ≠ 0 → a.powerOf t ≠ 0 → (Before ρ s t ↔ Before σ s t) := by
  rw [same_iff_key]
  constructor
  · intro h
    refine ⟨powerOf_eq_of_key ha hb h, ?_⟩
    intro s t hs ht
    exact before_iff_of_sorted (key_sorted ha hρ) (h ▸ key_sorted hb hσ)
      ((mem_key_iff ha (s, a.powerOf s)).mpr ⟨rfl, hs⟩)
      ((mem_key_iff ha (t, a.powerOf t)).mpr ⟨rfl, ht⟩)
  · rintro ⟨hp, hord⟩
    have hmem : ∀ k, k ∈ a.key ↔ k ∈ b.key := by
      intro k
      rw [mem_key_iff ha, mem_key_iff hb, hp]
    have nonzero : ∀ k ∈ b.key, a.powerOf k.1 ≠ 0 := by
      intro k hk h0
      obtain ⟨hpk, hk0⟩ := (mem_key_iff ha k).mp ((hmem k).mpr hk)
      exact hk0 (hpk ▸ h0)
    have sorted : b.key.Pairwise fun k l => Before ρ k.1 l.1 := by
      refine (key_sorted hb hσ).imp_of_mem ?_
      intro k l hk hl hlt
      exact (hord k.1 l.1 (nonzero k hk) (nonzero l hl)).mpr hlt
    have : Std.Irrefl fun k l : String × Rat => Before ρ k.1 l.1 := ⟨fun _ => lt_irrefl _⟩
    have : Std.Antisymm fun k l : String × Rat => Before ρ k.1 l.1 :=
      ⟨fun _ _ h h' => absurd h' h.asymm⟩
    exact (key_sorted ha hρ).eq_of_mem_iff sorted hmem

end UnitCalculus.Dimension
