import UnitCalculus.Definitions.Load
import UnitCalculus.Proofs.Catalog
import UnitCalculus.Proofs.Dimension.Laws
import UnitCalculus.Proofs.Expression.Acceptance
import UnitCalculus.Proofs.Expression.Occurrences
import UnitCalculus.Proofs.Magnitude.Scalar

/-! # What a table and the quantities read against it keep

A quantity is sound when its value is a single number and its symbols have their ranks from `ρ`; a
table is when its units and factors are.  What is read against a sound table is sound
(`yields_read`), and so is the table with the definitions of a text loaded into it, whether the load
comes to its end or not (`UnitTable.Sound.load`). -/

namespace UnitCalculus

open Dimension Magnitude Expression Expression.Derivation

variable {ρ : String → Option Int}

/-! ### Quantities -/

/-- The value is a single number, and the dimension has the ranks of its symbols from `ρ`. -/
structure Quantity.Sound (ρ : String → Option Int) (q : Quantity) : Prop where
  number : q.magnitude.Number
  regular : Regular ρ q.dimension

namespace Quantity

variable {q r : Quantity}

theorem sound_bare {m : Magnitude} (hm : m.Number) : (bare m).Sound ρ := ⟨hm, Regular.one⟩

theorem yields_withQuantity {o : Operator} (ho : o = .mul ∨ o = .div) (hq : q.Sound ρ)
    (hr : r.Sound ρ) : Yields (Sound ρ) (q.withQuantity o r) := by
  rcases ho with rfl | rfl
  · exact (yields_liftNumber (yields_mul_number hq.number hr.number)).bind fun _ hm =>
      yields_ok ⟨hm, hq.regular.mul hr.regular⟩
  · exact (yields_liftNumber (yields_div_number hq.number hr.number)).bind fun _ hm =>
      yields_ok ⟨hm, hq.regular.div hr.regular⟩

theorem yields_times {m : Magnitude} (hm : m.Number) (hq : q.Sound ρ) :
    Yields (Sound ρ) (numberWith .mul m q) :=
  (yields_liftNumber (yields_mul_number hm hq.number)).bind fun _ hm =>
    yields_ok ⟨hm, hq.regular⟩

theorem yields_powerOfMagnitude {m : Magnitude} (hm : m.Number) (e : Rat) :
    Yields Number (powerOfMagnitude m e) := by
  unfold powerOfMagnitude
  split
  · exact yields_pow_number hm rfl
  · split
    · exact yields_pow_number hm rfl
    · exact yields_error _

theorem yields_pow_sound (hq : q.Sound ρ) (e : Rat) : Yields (Sound ρ) (q.pow e) :=
  (yields_liftNumber (yields_powerOfMagnitude hq.number e)).bind fun _ hm =>
    yields_ok ⟨hm, hq.regular.pow e⟩

end Quantity

/-! ### Tables -/

/-- Every unit has a symbol and is sound, and every factor is a single number. -/
structure UnitTable.Sound (ρ : String → Option Int) (t : UnitTable) : Prop where
  named : ∀ u ∈ t.units.entries, u.1 ≠ ""
  units : ∀ u ∈ t.units.entries, u.2.Sound ρ
  factors : ∀ f ∈ t.factors.entries, f.2.Number

section reading

variable {t : UnitTable}

/-- What holds of the units and is kept when a factor multiplies a quantity holds of what is looked
up. -/
theorem yields_lookup_of {P : Quantity → Prop} (hunits : ∀ u ∈ t.units.entries, P u.2)
    (hfactors : ∀ f ∈ t.factors.entries, ∀ q, P q → Yields P (q.numberWith .mul f.2))
    (symbol : String) : Yields P (t.lookup symbol) := by
  have split : ∀ n, Yields P (t.lookupSplit symbol n) := by
    intro n
    induction n with
    | zero => exact yields_error _
    | succ n ih =>
      unfold UnitTable.lookupSplit
      dsimp only
      split
      · exact ih
      · next m hm =>
        split
        · exact yields_error _
        · split
          · next q hq =>
            exact hfactors _ (Catalog.find?_eq_some_iff.mp hm) q
              (hunits _ (Catalog.find?_eq_some_iff.mp hq))
          · exact ih
  unfold UnitTable.lookup
  split
  · next q hq => exact yields_ok (hunits _ (Catalog.find?_eq_some_iff.mp hq))
  · exact split _

theorem yields_lookup (ht : t.Sound ρ) (symbol : String) :
    Yields (Quantity.Sound ρ) (t.lookup symbol) :=
  yields_lookup_of ht.units (fun f hf _ hq => Quantity.yields_times (ht.factors f hf) hq) symbol

theorem signOperator_eq (s : Option Sign) : signOperator s = .mul ∨ signOperator s = .div := by
  rcases s with _ | ⟨s | s⟩
  · exact .inl rfl
  · exact .inl rfl
  · exact .inr rfl

theorem compositional_sound (ht : t.Sound ρ) : Compositional t fun _ q => q.Sound ρ where
  symbol s := yields_lookup ht s.1.text
  pow _ _ e hq := Quantity.yields_pow_sound hq e.value
  sign s _ _ _ _ hq hr := Quantity.yields_withQuantity (signOperator_eq s) hq hr

/-- What is read as a unit expression is sound. -/
theorem yields_readUnit (ht : t.Sound ρ) (text : String) :
    Yields (Quantity.Sound ρ) (readUnit t text) := by
  intro q hq
  obtain ⟨p, -, hp⟩ := exists_derivation hq
  cases p with
  | none =>
    cases hp
    exact Quantity.sound_bare rfl
  | some p => exact (compositional_sound ht).product p q hp

/-- What is read is a number, the integer one if there is none, times a unit, unless nothing follows
the number. -/
theorem exists_of_read {text : String} {q : Quantity}
    (h : Expression.read t .decimal text = .ok q) :
    ∃ m rest, (m = integer 1 ∨ ∃ x, m = real x) ∧
      (q = .bare m ∨ ∃ u, readUnit t rest = .ok u ∧ u.numberWith .mul m = .ok q) := by
  obtain ⟨found, hfound, hread⟩ := bind_eq_ok h
  obtain ⟨r, hr, hpair⟩ := bind_eq_ok hfound
  cases hpair
  have hnumber : ∀ p ∈ r, ∃ x, p.1 = real x := by
    rintro p rfl
    unfold NumberReader.readDecimal at hr
    dsimp only at hr
    split at hr
    · cases hr
    · split at hr
      · cases hr
        exact ⟨_, rfl⟩
      · cases hr
  have hm : ((r.map fun p => (p.1, String.ofList p.2)).getD (integer 1, text)).1 = integer 1 ∨
      ∃ x, ((r.map fun p => (p.1, String.ofList p.2)).getD (integer 1, text)).1 = real x := by
    cases r with
    | none => exact .inl rfl
    | some p => exact .inr (hnumber p rfl)
  generalize (r.map fun p => (p.1, String.ofList p.2)).getD (integer 1, text) = p at hm hread
  obtain ⟨m, rest⟩ := p
  refine ⟨m, rest, hm, ?_⟩
  dsimp only at hread
  split at hread
  · cases hread
    exact .inl rfl
  · exact .inr (bind_eq_ok hread)

/-- What is read as a quantity is sound. -/
theorem yields_read (ht : t.Sound ρ) (text : String) :
    Yields (Quantity.Sound ρ) (Expression.read t .decimal text) := by
  intro q hq
  obtain ⟨m, rest, hm, hq⟩ := exists_of_read hq
  have hnumber : m.Number := by
    rcases hm with rfl | ⟨x, rfl⟩ <;> rfl
  rcases hq with rfl | ⟨u, hu, hq⟩
  · exact Quantity.sound_bare hnumber
  · exact Quantity.yields_times hnumber (yields_readUnit ht rest u hu) q hq

end reading

/-! ### Loading -/

namespace UnitTable

variable {t t' : UnitTable} {symbol : String}

theorem addUnit_eq_ok_iff {value : Operand} :
    t.addUnit symbol value = .ok t' ↔
      symbol ≠ "" ∧ t.frozen = false ∧
        ∃ q, value.quantity? = some q ∧ t' = t.insertUnit symbol q := by
  unfold addUnit requireMutable
  by_cases hs : symbol = ""
  · simp [hs, throw, throwThe, MonadExceptOf.throw, error_bind]
  · cases hv : value.quantity? with
    | none => simp [hs, throw, throwThe, MonadExceptOf.throw]
    | some q =>
      cases hf : t.frozen <;>
        simp [hs, ok_bind, error_bind, pure, Except.pure, @eq_comm _ t']

theorem addFactor_eq_ok_iff {value : Operand} :
    t.addFactor symbol value = .ok t' ↔
      symbol ≠ "" ∧ t.frozen = false ∧
        ∃ m, value = .magnitude m ∧ m.isScalar = true ∧ t' = t.insertFactor symbol m := by
  unfold addFactor requireMutable
  by_cases hs : symbol = ""
  · simp [hs, throw, throwThe, MonadExceptOf.throw, error_bind]
  · cases value with
    | magnitude m =>
      cases hm : m.isScalar <;> cases hf : t.frozen <;>
        simp [hs, hm, throw, throwThe, MonadExceptOf.throw, ok_bind, error_bind, pure, Except.pure,
          @eq_comm _ t']
    | _ => simp [hs, throw, throwThe, MonadExceptOf.throw]

end UnitTable

namespace UnitTable.Sound

variable {t : UnitTable}

theorem insertUnit (ht : t.Sound ρ) {symbol : String} {q : Quantity} (hs : symbol ≠ "")
    (hq : q.Sound ρ) : (t.insertUnit symbol q).Sound ρ := by
  refine ⟨fun u hu => ?_, fun u hu => ?_, ht.factors⟩
  · rcases Catalog.mem_entries_insert hu with rfl | hu
    · exact hs
    · exact ht.named u hu
  · rcases Catalog.mem_entries_insert hu with rfl | hu
    · exact hq
    · exact ht.units u hu

theorem insertFactor (ht : t.Sound ρ) {symbol : String} {m : Magnitude} (hm : m.Number) :
    (t.insertFactor symbol m).Sound ρ := by
  refine ⟨ht.named, ht.units, fun f hf => ?_⟩
  rcases Catalog.mem_entries_insert hf with rfl | hf
  · exact hm
  · exact ht.factors f hf

theorem yields_addUnit (ht : t.Sound ρ) (symbol : String) {q : Quantity} (hq : q.Sound ρ) :
    Yields (UnitTable.Sound ρ) (t.addUnit symbol (.quantity q)) := by
  intro t' h
  obtain ⟨hs, -, q', hq', rfl⟩ := addUnit_eq_ok_iff.mp h
  cases hq'
  exact ht.insertUnit hs hq

theorem yields_addFactor (ht : t.Sound ρ) (symbol : String) (x : Float) :
    Yields (UnitTable.Sound ρ) (t.addFactor symbol (.magnitude (.real x))) := by
  intro t' h
  obtain ⟨-, -, m, hm, -, rfl⟩ := addFactor_eq_ok_iff.mp h
  cases hm
  exact ht.insertFactor rfl

end UnitTable.Sound

namespace Loading

variable {l : Loading}

theorem andThen_keeps {P : Loading → Prop} {o : LoadOutcome} {next : Loading → LoadOutcome}
    (ho : P o.loading) (hnext : ∀ l, P l → P (next l).loading) : P (o.andThen next).loading := by
  unfold LoadOutcome.andThen
  split
  · exact hnext _ ho
  · exact ho

/-- What every step of a load keeps is kept by the steps together, also by those of a load that ends
early. -/
theorem runSteps_keeps {α : Type} {P : Loading → Prop} {step : Loading → α → LoadOutcome}
    (hstep : ∀ l a, P l → P (step l a).loading) {l : Loading} (hl : P l) (as : List α) :
    P (runSteps step l as).loading := by
  induction as generalizing l with
  | nil => exact hl
  | cons a as ih =>
    rw [runSteps]
    exact andThen_keeps (hstep l a hl) fun l hl => ih hl

theorem advance_keeps {P : UnitTable → Prop} {table : Except Fault UnitTable} (hl : P l.table)
    (ht : Yields P table) (report : LoadReport) : P (l.advance table report).loading.table := by
  unfold advance
  split
  · next t => exact ht t rfl
  · exact hl

theorem addUnit_keeps {P : UnitTable → Prop}
    (hunit : ∀ t symbol definition q, P t → Expression.read t .decimal definition = .ok q →
      Yields P (t.addUnit symbol (.quantity q)))
    (hl : P l.table) (symbol definition : String) :
    P (l.addUnit symbol definition).loading.table := by
  unfold addUnit
  dsimp only
  split
  · exact hl
  · exact hl
  · next q hq =>
    exact advance_keeps (l := l.logged (Expression.trace .decimal definition)) hl
      (hunit l.table symbol definition q hl hq) _

end Loading

/-- What the definition of a unit or of a factor keeps, a load keeps, also one that ends early. -/
theorem UnitTable.load_keeps {P : UnitTable → Prop}
    (hunit : ∀ t symbol definition q, P t → Expression.read t .decimal definition = .ok q →
      Yields P (t.addUnit symbol (.quantity q)))
    (hfactor : ∀ t symbol x, P t → Yields P (t.addFactor symbol (.magnitude (.real x))))
    {t : UnitTable} (ht : P t) (text : Option String) : P (t.load text).loading.table := by
  unfold UnitTable.load Definitions.loadInto
  generalize Definitions.ofText (text.getD "") = d
  have hfactors : P (Loading.runSteps (fun l e => l.addFactor e.1 e.2) (.start t d)
      d.factors.entries).loading.table :=
    Loading.runSteps_keeps (P := fun l => P l.table)
      (fun l e hl => Loading.advance_keeps hl (hfactor l.table e.1 e.2 hl) _) ht _
  have hunits : ∀ l : Loading, P l.table →
      P (Loading.runSteps (fun l e => l.addUnit e.1 e.2) l d.units.entries).loading.table :=
    fun l hl => Loading.runSteps_keeps (P := fun l => P l.table)
      (fun l e hl => Loading.addUnit_keeps hunit hl e.1 e.2) hl _
  exact Loading.andThen_keeps (P := fun l => P l.table)
    (Loading.andThen_keeps (P := fun l => P l.table) hfactors hunits) fun l hl => hl

/-- Loading definitions into a sound table leaves a sound table. -/
theorem UnitTable.Sound.load {t : UnitTable} (ht : t.Sound ρ) (text : Option String) :
    (t.load text).loading.table.Sound ρ :=
  UnitTable.load_keeps
    (fun _ symbol definition q ht hq => ht.yields_addUnit symbol (yields_read ht definition q hq))
    (fun _ symbol x ht => ht.yields_addFactor symbol x) ht text

end UnitCalculus
