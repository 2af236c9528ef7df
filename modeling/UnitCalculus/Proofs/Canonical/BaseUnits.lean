import UnitCalculus.Proofs.Expression.Lexing
import UnitCalculus.Proofs.Magnitude.Unity
import UnitCalculus.Proofs.UnitTable

/-! # Base units

In a table of numbers the base units are found without a fault: `Canonical.baseUnits` lists for
every dimension symbol that has one a unit of value one and of that dimension alone
(`baseUnits_ok`).

Only units of value one are written into texts.  Such a unit is read back when it is `Spoken`, as
all units of a `Legible` table are. -/

namespace UnitCalculus

open Dimension

namespace UnitTable

/-- A table whose symbols are read as symbols, whose units are integers or floating-point numbers,
and in which every dimension symbol has its rank from `ρ`. -/
structure Legible (ρ : String → Option Int) (t : UnitTable) : Prop where
  nonempty : ∀ u ∈ t.units.entries, u.1.toList ≠ []
  symbolic : ∀ u ∈ t.units.entries, Token.IsRun .symbol u.1.toList
  plain : ∀ u ∈ t.units.entries, u.2.magnitude.isPlain = true
  regular : ∀ u ∈ t.units.entries, Dimension.Regular ρ u.2.dimension

theorem legible_iff {ρ : String → Option Int} {t : UnitTable} :
    t.Legible ρ ↔ ∀ u ∈ t.units.entries, u.1.toList ≠ [] ∧ Token.IsRun .symbol u.1.toList ∧
      u.2.magnitude.isPlain = true ∧ Dimension.Regular ρ u.2.dimension := by
  constructor
  · intro h u hu
    exact ⟨h.nonempty u hu, h.symbolic u hu, h.plain u hu, h.regular u hu⟩
  · intro h
    exact ⟨fun u hu => (h u hu).1, fun u hu => (h u hu).2.1, fun u hu => (h u hu).2.2.1,
      fun u hu => (h u hu).2.2.2⟩

instance (ρ : String → Option Int) (t : UnitTable) : Decidable (t.Legible ρ) :=
  decidable_of_iff _ legible_iff.symm

theorem Legible.freeze {ρ : String → Option Int} {t : UnitTable} (h : t.Legible ρ) :
    t.freeze.Legible ρ :=
  ⟨h.nonempty, h.symbolic, h.plain, h.regular⟩

theorem Legible.units {ρ : String → Option Int} {t : UnitTable} (h : t.Legible ρ) :
    ∀ u ∈ t.units.entries, u.2.Sound ρ :=
  fun u hu => ⟨Magnitude.isNumber_of_isPlain (h.plain u hu), h.regular u hu⟩

/-- A unit whose symbol is read as a symbol and whose value is an integer or a floating-point
number. -/
structure Spoken (u : String × Quantity) : Prop where
  nonempty : u.1.toList ≠ []
  symbolic : Token.IsRun .symbol u.1.toList
  plain : u.2.magnitude.isPlain = true

theorem Legible.spoken {ρ : String → Option Int} {t : UnitTable} (h : t.Legible ρ) :
    ∀ u ∈ t.units.entries, Spoken u :=
  fun u hu => ⟨h.nonempty u hu, h.symbolic u hu, h.plain u hu⟩

end UnitTable

/-- The quantity has the value one and the first power of the symbol as its dimension. -/
def Quantity.IsBase (s : String) (q : Quantity) : Prop :=
  q.magnitude.EqualsOne ∧ q.dimension.key = [(s, 1)]

theorem Quantity.IsBase.unique {q : Quantity} {s t : String} (hs : q.IsBase s) (ht : q.IsBase t) :
    s = t := by
  have h := hs.2.symm.trans ht.2
  simpa using h

namespace Canonical

theorem baseSymbol?_of_isNumber {q : Quantity} (hq : q.magnitude.Number) :
    ∃ o, baseSymbol? q = .ok o ∧ ∀ s, o = some s ↔ q.IsBase s := by
  obtain ⟨b, -, hb, hone⟩ := Magnitude.isUnity_of_isNumber hq
  unfold baseSymbol? Quantity.IsBase Dimension.key
  split
  · next f hf =>
    rw [hf]
    by_cases hp : f.power = 1
    · rw [if_neg (by simpa using hp), hb]
      cases b with
      | true =>
        refine ⟨some f.symbol, rfl, fun s => ?_⟩
        simp [hone.mp rfl, Factor.key, hp]
      | false => exact ⟨none, rfl, fun s => by simp [← hone]⟩
    · rw [if_pos (by simpa using hp)]
      exact ⟨none, rfl, fun s => by simp [Factor.key, hp]⟩
  · next hf =>
    refine ⟨none, rfl, fun s => iff_of_false (by simp) ?_⟩
    rintro ⟨-, hkey⟩
    obtain ⟨f, hfactors, -⟩ := List.map_eq_singleton_iff.mp hkey
    exact hf f hfactors

/-- What the catalog of base units is after some units have been entered into `c`. -/
structure Collects (c c' : Catalog String) (us : List (String × Quantity)) : Prop where
  sound : ∀ s name, c'.find? s = some name →
    c.find? s = some name ∨ ∃ q, (name, q) ∈ us ∧ q.IsBase s
  kept : ∀ s, (c.find? s).isSome → (c'.find? s).isSome
  complete : ∀ s, ∀ u ∈ us, u.2.IsBase s → (c'.find? s).isSome

theorem find?_addBase {c : Catalog String} {d unit s : String} :
    (addBase c d unit).find? s =
      if d = s ∧ c.find? s = none then some unit else c.find? s := by
  unfold addBase Catalog.contains
  by_cases hfound : (c.find? d).isSome
  · rw [if_pos hfound, if_neg]
    rintro ⟨rfl, hnone⟩
    simp [hnone] at hfound
  · rw [if_neg hfound, Catalog.find?_insert]
    by_cases hd : d = s
    · subst hd
      rw [if_pos rfl, if_pos ⟨rfl, by simpa using hfound⟩]
    · rw [if_neg fun h => hd h.symm, if_neg fun h => hd h.1]

theorem isSome_find?_addBase {c : Catalog String} {d unit s : String}
    (h : d = s ∨ (c.find? s).isSome) : ((addBase c d unit).find? s).isSome := by
  rw [find?_addBase]
  split
  · rfl
  · next hnone =>
    rcases h with h | h
    · exact Option.isSome_iff_ne_none.mpr fun hc => hnone ⟨h, hc⟩
    · exact h

variable {c c' : Catalog String} {us : List (String × Quantity)} {symbol : String} {q : Quantity}

theorem collects_nil (c : Catalog String) : Collects c c [] :=
  ⟨fun _ _ h => .inl h, fun _ h => h, fun _ _ hu => nomatch hu⟩

/-- A unit that is no base unit is passed over. -/
theorem Collects.pass (h : Collects c c' us) (hq : ∀ s, ¬q.IsBase s) :
    Collects c c' ((symbol, q) :: us) := by
  refine ⟨fun s name hname => ?_, h.kept, fun s u hu hb => ?_⟩
  · exact (h.sound s name hname).imp_right fun ⟨p, hp, hb⟩ => ⟨p, List.mem_cons_of_mem _ hp, hb⟩
  · rcases List.mem_cons.mp hu with rfl | hu
    · exact absurd hb (hq s)
    · exact h.complete s u hu hb

/-- A base unit is entered unless there is one already. -/
theorem Collects.enter {d : String} (h : Collects (addBase c d symbol) c' us) (hq : q.IsBase d) :
    Collects c c' ((symbol, q) :: us) := by
  refine ⟨fun s name hname => ?_, fun s hs => ?_, fun s u hu hb => ?_⟩
  · rcases h.sound s name hname with hfound | ⟨p, hp, hb⟩
    · rw [find?_addBase] at hfound
      split at hfound
      · next hd =>
        cases hfound
        obtain ⟨rfl, -⟩ := hd
        exact .inr ⟨q, List.mem_cons_self, hq⟩
      · exact .inl hfound
    · exact .inr ⟨p, List.mem_cons_of_mem _ hp, hb⟩
  · exact h.kept s (isSome_find?_addBase (.inr hs))
  · rcases List.mem_cons.mp hu with rfl | hu
    · exact h.kept s (isSome_find?_addBase (.inl (hq.unique hb)))
    · exact h.complete s u hu hb

theorem collect_entries (hnumber : ∀ u ∈ us, u.2.magnitude.Number)
    (c : Catalog String) :
    ∃ c', us.foldlM (fun c (symbol, q) => do
        match ← baseSymbol? q with
        | some d => return addBase c d symbol
        | none => return c) c = (.ok c' : Except Fault (Catalog String)) ∧ Collects c c' us := by
  induction us generalizing c with
  | nil => exact ⟨c, rfl, collects_nil c⟩
  | cons u us ih =>
    obtain ⟨symbol, q⟩ := u
    obtain ⟨o, ho, hbase⟩ := baseSymbol?_of_isNumber (hnumber _ List.mem_cons_self)
    have hrest : ∀ u ∈ us, u.2.magnitude.Number :=
      fun u hu => hnumber u (List.mem_cons_of_mem _ hu)
    rw [List.foldlM_cons]
    dsimp only at ho ⊢
    rw [ho]
    cases o with
    | none =>
      obtain ⟨c', hc', hcollects⟩ := ih hrest c
      exact ⟨c', hc', hcollects.pass fun s hs => nomatch (hbase s).mpr hs⟩
    | some d =>
      obtain ⟨c', hc', hcollects⟩ := ih hrest (addBase c d symbol)
      exact ⟨c', hc', hcollects.enter ((hbase d).mp rfl)⟩

/-- The base units of a table: each has the value one and a dimension of its own, and there is one
for every dimension that has one. -/
theorem baseUnits_ok {t : UnitTable}
    (hnumber : ∀ u ∈ t.units.entries, u.2.magnitude.Number) :
    ∃ bases, baseUnits t = .ok bases ∧
      (∀ s name, bases.find? s = some name → ∃ q, (name, q) ∈ t.units.entries ∧ q.IsBase s) ∧
      ∀ s, ∀ u ∈ t.units.entries, u.2.IsBase s → ∃ name, bases.find? s = some name := by
  obtain ⟨bases, hbases, hcollects⟩ := collect_entries hnumber .empty
  refine ⟨bases, hbases, fun s name h => ?_, fun s u hu hb => ?_⟩
  · exact (hcollects.sound s name h).resolve_left (by rintro ⟨⟩)
  · exact Option.isSome_iff_exists.mp (hcollects.complete s u hu hb)

end Canonical

end UnitCalculus
