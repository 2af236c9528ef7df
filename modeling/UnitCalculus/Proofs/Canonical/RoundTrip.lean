import UnitCalculus.Proofs.Canonical.UnitText
import UnitCalculus.Proofs.Decimal.Reading

/-! # Reading the text of a quantity back

In a table that starts as the international system and takes definitions, the text of a quantity is
its number, and behind a blank the first unit of value one that has its dimension, or powers of base
units.  The text is read back as an equal quantity when a unit can be written at all and the symbols
that it may be written with are read as symbols (`read_text`).

The loader puts no such demand on a symbol.  A unit that is defined by the name `m.s` is written by
that name, and read as the product of metre and second (`not_read_text`). -/

namespace UnitCalculus

open Dimension Token UnitTable Expression Expression.Derivation

/-! ### Numbers times one -/

namespace Magnitude

/-- The magnitude is the floating-point number, checked or unchecked. -/
def IsFloat (x : Float) (m : Magnitude) : Prop := m = real x ∨ m = unchecked x

variable {x y : Float} {m n : Magnitude}

theorem IsFloat.relate_eq {e : Decimal.Expansion} (hm : m.IsFloat y) (hn : n.IsFloat x)
    (hx : Decimal.expand x = .finite e) (hxy : Extended.ofFloat y = Extended.ofFloat x) :
    m.relate .eq n = .ok (truth true) := by
  have horder : (Extended.ofFloat y).order? (.ofFloat x) = some .eq := by
    rw [hxy, Extended.ofFloat, hx]
    exact Extended.order?_self_finite _
  have hrelate : m.relate .eq n =
      .ok (truth (Relation.eq.holds ((Extended.ofFloat y).order? (.ofFloat x)))) := by
    rcases hm with rfl | rfl <;> rcases hn with rfl | rfl <;> rfl
  rw [hrelate, horder]
  rfl

theorem IsOne.real_mul (hm : m.IsOne) (x : Float) : ∃ n, (real x).mul m = .ok n ∧ n.IsFloat x := by
  have hone := Decimal.mul_one_float x
  rw [mul_numeric]
  rcases hm with hm | hm | hm <;> rw [hm]
  · have hmul : (real x).mul (integer 1) = .ok (real x) := by
      simp [Magnitude.mul, align, numeric, floatOfInt_one, Operation.apply, multiplication, hone]
    exact ⟨_, hmul, .inl rfl⟩
  · have hmul : (real x).mul (real 1.0) = .ok (real x) := by
      simp [Magnitude.mul, align, numeric, Operation.apply, multiplication, hone]
    exact ⟨_, hmul, .inl rfl⟩
  · have hmul : (real x).mul (unchecked 1.0) = .ok (unchecked x) := by
      simp [Magnitude.mul, align, numeric, Operation.apply, multiplication, hone]
    exact ⟨_, hmul, .inr rfl⟩

end Magnitude

namespace Canonical

/-! ### A number in front of a unit -/

section number

variable {t : UnitTable} {x : Float} {e : Decimal.Expansion}

/-- The text of a finite number alone is read as a bare number of the same value. -/
theorem read_floatText (t : UnitTable) (hx : Decimal.expand x = .finite e)
    (hlaw : Decimal.wholeFloat? (Decimal.floatText x).toList = some x) :
    ∃ y, Expression.read t .decimal (floatText x) = .ok (.bare (.real y)) ∧
      Extended.ofFloat y = Extended.ofFloat x := by
  have hend : Decimal.Stops [] := by rintro c ⟨⟩
  obtain ⟨y, hread, hy⟩ := Decimal.readDecimal_floatText hx hlaw hend
  rw [List.append_nil] at hread
  have hnumber : NumberReader.read .decimal (floatText x) = .ok (some (.real y, "")) := by
    rw [NumberReader.read, hread]
    rfl
  refine ⟨y, ?_, hy⟩
  rw [Expression.read, hnumber]
  rfl

/-- The text of a finite number in front of a unit of value one is read as that multiple of the
unit. -/
theorem read_floatText_unit (hx : Decimal.expand x = .finite e)
    (hlaw : Decimal.wholeFloat? (Decimal.floatText x).toList = some x) {unit : String}
    {r : Quantity} (hr : readUnit t (" " ++ unit) = .ok r) (hone : r.magnitude.IsOne) :
    ∃ m y, Expression.read t .decimal (floatText x ++ " " ++ unit) = .ok ⟨m, r.dimension⟩ ∧
      m.IsFloat y ∧ Extended.ofFloat y = Extended.ofFloat x := by
  have hblank : Decimal.Stops (" " ++ unit).toList := by
    rw [String.toList_append]
    rintro c ⟨⟩
    rfl
  obtain ⟨y, hread, hy⟩ := Decimal.readDecimal_floatText hx hlaw hblank
  obtain ⟨m, hm, hfloat⟩ := hone.real_mul y
  have hnumber : NumberReader.read .decimal (floatText x ++ " " ++ unit) =
      .ok (some (.real y, " " ++ unit)) := by
    rw [String.append_assoc, NumberReader.read, String.toList_append]
    dsimp only
    rw [hread, ok_bind, Option.map_some, String.ofList_toList]
    rfl
  have hrest : (" " ++ unit == "") = false := by
    simp
  refine ⟨m, y, ?_, hfloat, hy⟩
  rw [Expression.read, hnumber, ok_bind, Option.getD_some]
  dsimp only
  rw [hrest, hr]
  simp only [Bool.false_eq_true, if_false, ok_bind, Quantity.numberWith,
    Operator.evaluate, Operator.compute, hm]
  rfl

end number

/-! ### Units that are written -/

/-- The unit can stand in a text of the dimension: it has the value one, and the dimension itself
where such units are preferred, or that of one of its symbols. -/
def Names (preferNamed : Bool) (d : Dimension) (u : String × Quantity) : Prop :=
  u.2.magnitude.EqualsOne ∧
    ((preferNamed = true ∧ u.2.dimension.same d = true) ∨
      ∃ f ∈ d.factors, u.2.dimension.key = [(f.symbol, 1)])

/-- There are units to write the dimension with: one that has it, where such units are preferred, or
one for each symbol, and the powers are not too large. -/
def Expressible (t : UnitTable) (preferNamed : Bool) (d : Dimension) : Prop :=
  (preferNamed = true ∧ ∃ u ∈ t.units.entries, u.2.magnitude.EqualsOne ∧
    u.2.dimension.same d = true) ∨ (Covers t d ∧ Bounded d)

instance (preferNamed : Bool) (d : Dimension) (u : String × Quantity) :
    Decidable (Names preferNamed d u) :=
  inferInstanceAs (Decidable (u.2.magnitude.EqualsOne ∧
    ((preferNamed = true ∧ u.2.dimension.same d = true) ∨
      ∃ f ∈ d.factors, u.2.dimension.key = [(f.symbol, 1)])))

instance (t : UnitTable) (preferNamed : Bool) (d : Dimension) :
    Decidable (Expressible t preferNamed d) :=
  inferInstanceAs (Decidable ((preferNamed = true ∧ ∃ u ∈ t.units.entries,
    u.2.magnitude.EqualsOne ∧ u.2.dimension.same d = true) ∨ (Covers t d ∧ Bounded d)))

/-- Among units that are numbers the first one that has the value one and the dimension is found,
unless there is none. -/
theorem named?_ok (d : Dimension) {us : List (String × Quantity)}
    (hnumber : ∀ u ∈ us, u.2.magnitude.Number) :
    ∃ o, named? d us = .ok o ∧
      (∀ name, o = some name →
        ∃ q, (name, q) ∈ us ∧ q.magnitude.EqualsOne ∧ q.dimension.same d = true) ∧
      (o = none → ∀ u ∈ us, ¬(u.2.magnitude.EqualsOne ∧ u.2.dimension.same d = true)) := by
  induction us with
  | nil => exact ⟨none, rfl, by simp, by simp⟩
  | cons u us ih =>
    obtain ⟨symbol, q⟩ := u
    obtain ⟨b, hb, -, hone⟩ := Magnitude.isUnity_of_isNumber (hnumber _ List.mem_cons_self)
    dsimp only at hb hone
    rw [named?, hb, ok_bind]
    by_cases hfound : b = true ∧ q.dimension.same d = true
    · rw [if_pos (by simpa using hfound)]
      refine ⟨some symbol, rfl, ?_, by simp⟩
      rintro name ⟨⟩
      exact ⟨q, List.mem_cons_self, hone.mp hfound.1, hfound.2⟩
    · obtain ⟨o, ho, hsome, hnone⟩ := ih fun u hu => hnumber u (List.mem_cons_of_mem _ hu)
      rw [if_neg (by simpa using hfound)]
      refine ⟨o, ho, fun name hname => ?_, fun h u hu => ?_⟩
      · obtain ⟨q', hq', h⟩ := hsome name hname
        exact ⟨q', List.mem_cons_of_mem _ hq', h⟩
      · rcases List.mem_cons.mp hu with rfl | hu
        · rwa [← hone]
        · exact hnone h u hu

section unit

variable {ρ : String → Option Int} {t : UnitTable} {preferNamed : Bool} {d : Dimension}

/-- The unit of the dimension that is written, where such units are preferred. -/
def preferred? (t : UnitTable) (preferNamed : Bool) (d : Dimension) :
    Except Fault (Option String) :=
  if preferNamed then named? d t.units.entries else .ok none

theorem text_of_isBare {q : Quantity} (hnumber : q.magnitude.isWritable = true)
    (hbare : q.isBare = true) : text t preferNamed q = .ok (magnitudeText q.magnitude) := by
  simp only [text, hnumber, hbare, Bool.not_true, Bool.false_eq_true, if_false, if_true]
  rfl

theorem text_eq {q : Quantity} (hnumber : q.magnitude.isWritable = true)
    (hbare : q.isBare = false) :
    text t preferNamed q = do
      match ← preferred? t preferNamed q.dimension with
      | some symbol => .ok (magnitudeText q.magnitude ++ " " ++ symbol)
      | none => return magnitudeText q.magnitude ++ " " ++ (← unitText t q.dimension) := by
  simp only [text, hnumber, hbare, Bool.not_true, Bool.false_eq_true, if_false]
  cases preferNamed <;> rfl

theorem preferred?_ok (preferNamed : Bool) (d : Dimension)
    (ht : ∀ u ∈ t.units.entries, u.2.Sound ρ) :
    ∃ o, preferred? t preferNamed d = .ok o ∧
      (∀ name, o = some name → ∃ q, (name, q) ∈ t.units.entries ∧
        preferNamed = true ∧ q.magnitude.EqualsOne ∧ q.dimension.same d = true) ∧
      (o = none → preferNamed = true →
        ∀ u ∈ t.units.entries, ¬(u.2.magnitude.EqualsOne ∧ u.2.dimension.same d = true)) := by
  cases preferNamed with
  | false => exact ⟨none, rfl, by simp, by simp⟩
  | true =>
    obtain ⟨o, ho, hsome, hnone⟩ := named?_ok d fun u hu => (ht u hu).number
    refine ⟨o, ho, fun name hname => ?_, fun h _ => hnone h⟩
    obtain ⟨q, hq, h⟩ := hsome name hname
    exact ⟨q, hq, rfl, h⟩

/-- A table of sound units has a text for every quantity whose number and powers can be written. -/
theorem exists_text (preferNamed : Bool) {q : Quantity} (hnumber : q.magnitude.isWritable = true)
    (hdimension : isWritable q.dimension = true) (ht : ∀ u ∈ t.units.entries, u.2.Sound ρ) :
    ∃ s, text t preferNamed q = .ok s := by
  cases hbare : q.isBare with
  | true => exact ⟨_, text_of_isBare hnumber hbare⟩
  | false =>
    rw [text_eq hnumber hbare]
    obtain ⟨o, ho, -⟩ := preferred?_ok preferNamed q.dimension ht
    rw [ho, ok_bind]
    cases o with
    | some symbol => exact ⟨_, rfl⟩
    | none =>
      obtain ⟨bases, hbases, -⟩ := baseUnits_ok fun u hu => (ht u hu).number
      dsimp only
      rw [unitText_of_isWritable hbases hdimension]
      exact ⟨_, rfl⟩

/-- A unit by its symbol alone, after a blank. -/
theorem readUnit_name {name : String} {q : Quantity} (hq : (name, q) ∈ t.units.entries)
    (hspoken : Spoken (name, q)) : readUnit t (" " ++ name) = .ok q := by
  obtain ⟨a, hlex, hmeaning, heval⟩ := lexFrom_unit (" " ++ name) 1 hq hspoken
  let p : Product := .mk (.mk a none) .nil
  have htokens : p.tokens = a.tokens := by
    simp [p, Product.tokens, Powered.tokens, Tail.tokens, powerTokens]
  have hpowers : p.powers = a.powers := by
    simp [p, Product.powers, Powered.powers, Tail.powers]
  have hvalue : p.eval t = .ok q := by
    simp only [p, Product.eval, Powered.eval, heval, ok_bind, Tail.evalFrom]
  have hlex' : lex (" " ++ name) = .ok p.tokens := by
    rw [lex_eq_lexFrom, String.toList_append, htokens]
    exact lexFrom_blank_cons _ 0 hlex
  rw [readUnit_of_lex t hlex', ← hvalue]
  refine ofTokens_product ⟨t, " " ++ name⟩ ?_ (valued_lex hlex')
  rwa [htokens, hpowers]

/-- Powers of base units, after a blank. -/
theorem readUnit_spelled (ht : ∀ u ∈ t.units.entries, u.2.Sound ρ) (hd : Regular ρ d)
    (hspoken : ∀ u ∈ t.units.entries, ∀ f ∈ d.factors, u.2.IsBase f.symbol → Spoken u)
    (hcovers : Covers t d) (hbounded : Bounded d) :
    ∃ unit r, unitText t d = .ok unit ∧ readUnit t (" " ++ unit) = .ok r ∧
      r.OneOf ρ d.powerOf := by
  obtain ⟨bases, hbases, hspells⟩ := spells_of_covers ht hspoken hcovers hbounded
  let unit := " ".intercalate (d.factors.map (factorText bases))
  have hunit : unitText t d = .ok unit :=
    unitText_of_isWritable hbases (isWritable_of_bounded hbounded)
  have hlex : ∀ ts, lexFrom (" " ++ unit) 1 unit.toList = .ok ts →
      lex (" " ++ unit) = .ok ts := by
    intro ts hts
    rw [lex_eq_lexFrom, String.toList_append]
    exact lexFrom_blank_cons _ 0 hts
  obtain ⟨r, hr, hone⟩ := readUnit_factors ht hd hspells 1 hlex
  exact ⟨unit, r, hunit, hr, hone⟩

/-- The unit behind the number of a text is read as a unit of value one and of the dimension. -/
theorem exists_unit (ht : ∀ u ∈ t.units.entries, u.2.Sound ρ) {q : Quantity}
    (hnumber : q.magnitude.isWritable = true) (hq : Regular ρ q.dimension)
    (hbare : q.isBare = false)
    (hexpressible : Expressible t preferNamed q.dimension)
    (hspoken : ∀ u ∈ t.units.entries, Names preferNamed q.dimension u → Spoken u) :
    ∃ unit r, text t preferNamed q = .ok (magnitudeText q.magnitude ++ " " ++ unit) ∧
      readUnit t (" " ++ unit) = .ok r ∧ r.magnitude.IsOne ∧
        r.dimension.same q.dimension = true := by
  obtain ⟨o, ho, hsome, hnone⟩ := preferred?_ok preferNamed q.dimension ht
  rw [text_eq hnumber hbare, ho, ok_bind]
  cases o with
  | some name =>
    obtain ⟨p, hp, hprefer, hone, hsame⟩ := hsome name rfl
    have hspeaks : Spoken (name, p) := hspoken _ hp ⟨hone, .inl ⟨hprefer, hsame⟩⟩
    exact ⟨name, p, rfl, readUnit_name hp hspeaks, (Magnitude.isOne_iff hspeaks.plain).mpr hone,
      hsame⟩
  | none =>
    obtain ⟨hcovers, hbounded⟩ : Covers t q.dimension ∧ Bounded q.dimension :=
      hexpressible.resolve_left fun ⟨hprefer, u, hu, h⟩ => hnone rfl hprefer u hu h
    obtain ⟨unit, r, hunit, hr, hone⟩ := readUnit_spelled ht hq
      (fun u hu f hf hb => hspoken u hu ⟨hb.1, .inr ⟨f, hf, hb.2⟩⟩) hcovers hbounded
    have hsame := (hone.hasPowers.regular.same_iff hq).mpr hone.hasPowers.powerOf
    refine ⟨unit, r, ?_, hr, hone.isOne, hsame⟩
    rw [hunit]
    rfl

end unit

/-! ### The text of a quantity -/

/-- What is read in a table with definitions loaded into it is read back from its text: as an equal
number and with an equal dimension.  The number is finite and obeys the law of the shortest digits,
a unit can be written for its dimension, and every unit that may be written is one symbol. -/
theorem read_text (preferNamed : Bool) {definitions source : String} {t : UnitTable}
    (ht : t = (SI.openTable.load (some definitions)).loading.table) {q : Quantity}
    (hq : Expression.read t .decimal source = .ok q) {x : Float} (hfloat : q.magnitude.IsFloat x)
    {e : Decimal.Expansion} (hx : Decimal.expand x = .finite e)
    (hlaw : Decimal.wholeFloat? (Decimal.floatText x).toList = some x)
    (hexpressible : Expressible t preferNamed q.dimension)
    (hspoken : ∀ u ∈ t.units.entries, Names preferNamed q.dimension u →
      IsRun .symbol u.1.toList ∧ u.2.magnitude.isPlain = true) :
    ∃ text r, Canonical.text t preferNamed q = .ok text ∧
      Expression.read t .decimal text = .ok r ∧
      r.dimension.same q.dimension = true ∧
      r.magnitude.relate .eq q.magnitude = .ok (.truth true) := by
  have hsound : t.Sound SI.rank := ht ▸ SI.sound_openTable.load (some definitions)
  have hregular : Regular SI.rank q.dimension := (yields_read hsound source q hq).regular
  have hvalue : magnitudeText q.magnitude = floatText x := by
    rcases hfloat with h | h <;> rw [h] <;> rfl
  have hnumber : q.magnitude.isWritable = true := by
    rcases hfloat with h | h <;> rw [h] <;> rfl
  by_cases hbare : q.isBare = true
  · obtain ⟨y, hread, hy⟩ := read_floatText t hx hlaw
    have hone : q.dimension = .one := by
      cases hd : q.dimension with
      | mk factors => simpa [Quantity.isBare, Dimension.isOne, hd, Dimension.one] using hbare
    refine ⟨floatText x, _, ?_, hread, ?_, ?_⟩
    · rw [text_of_isBare hnumber hbare, hvalue]
    · rw [hone]
      rfl
    · exact Magnitude.IsFloat.relate_eq (.inl rfl) hfloat hx hy
  · have hspeaks : ∀ u ∈ t.units.entries, Names preferNamed q.dimension u → Spoken u :=
      fun u hu hu' => ⟨by simpa using hsound.named u hu, (hspoken u hu hu').1, (hspoken u hu hu').2⟩
    obtain ⟨unit, r, htext, hr, hone, hsame⟩ :=
      exists_unit hsound.units hnumber hregular (Bool.eq_false_iff.mpr hbare) hexpressible hspeaks
    obtain ⟨m, y, hread, hm, hy⟩ := read_floatText_unit hx hlaw hr hone
    rw [hvalue] at htext
    exact ⟨_, _, htext, hread, hsame, hm.relate_eq hfloat hx hy⟩

/-- Two more units, as a text defines them. -/
def nauticalDefinitions : String := "knot: 0.5144444444444445 m/s\nfathom: 1.8288 m"

/-- The system with the two units. -/
def nauticalTable : UnitTable := (SI.openTable.load (some nauticalDefinitions)).loading.table

/-- Twelve knots. -/
def twelveKnots : Quantity := ⟨.real 6.173333333333334, SI.length.div SI.time⟩

theorem read_text_twelveKnots :
    Expression.read nauticalTable .decimal "12 knot" = .ok twelveKnots ∧
      ∃ text r, Canonical.text nauticalTable true twelveKnots = .ok text ∧
        Expression.read nauticalTable .decimal text = .ok r ∧
        r.dimension.same twelveKnots.dimension = true ∧
        r.magnitude.relate .eq twelveKnots.magnitude = .ok (.truth true) := by
  have hread : Expression.read nauticalTable .decimal "12 knot" = .ok twelveKnots := by
    decide +kernel
  have hfinite : Decimal.expand 6.173333333333334 = .finite ⟨false, 6950555424908466, -50⟩ := by
    decide +kernel
  have hlaw : Decimal.wholeFloat? (Decimal.floatText 6.173333333333334).toList =
      some 6.173333333333334 := by
    decide +kernel
  have hexpressible : Expressible nauticalTable true twelveKnots.dimension := by decide +kernel
  have hspoken : ∀ u ∈ nauticalTable.units.entries, Names true twelveKnots.dimension u →
      IsRun .symbol u.1.toList ∧ u.2.magnitude.isPlain = true := by
    decide +kernel
  exact ⟨hread, read_text (t := nauticalTable) true rfl hread (.inl rfl) hfinite hlaw hexpressible
    hspoken⟩

/-- Without a condition on the symbols the text is not always read back, though the load rejects
nothing. -/
theorem not_read_text :
    ¬ ∀ (definitions source : String) (q : Quantity) (x : Float) (e : Decimal.Expansion)
      (preferNamed : Bool),
      LoadReport.ok <$> (SI.openTable.load (some definitions)).report = .ok true →
      Expression.read (SI.openTable.load (some definitions)).loading.table .decimal source = .ok q →
      q.magnitude.IsFloat x → Decimal.expand x = .finite e →
      Decimal.wholeFloat? (Decimal.floatText x).toList = some x →
      ∃ text r,
        Canonical.text (SI.openTable.load (some definitions)).loading.table preferNamed q =
          .ok text ∧
        Expression.read (SI.openTable.load (some definitions)).loading.table .decimal text =
          .ok r ∧
        r.dimension.same q.dimension = true ∧
        r.magnitude.relate .eq q.magnitude = .ok (.truth true) := by
  intro h
  have hthree : Decimal.expand 3.0 = .finite ⟨false, 6755399441055744, -51⟩ := by decide +kernel
  obtain ⟨text, r, htext, hr, hsame, -⟩ := h "m.s: m/s" "3 m/s"
    ⟨.real 3.0, SI.length.div SI.time⟩ 3.0 _ true (by decide +kernel) (by decide +kernel)
    (.inl rfl) hthree (by decide +kernel)
  have hjoined : Canonical.text (SI.openTable.load (some "m.s: m/s")).loading.table true
      ⟨.real 3.0, SI.length.div SI.time⟩ = .ok "3 m.s" := by
    decide +kernel
  have hproduct : Expression.read (SI.openTable.load (some "m.s: m/s")).loading.table .decimal
      "3 m.s" = .ok ⟨.real 3.0, SI.length.mul SI.time⟩ := by
    decide +kernel
  obtain rfl : "3 m.s" = text := Except.ok.inj (hjoined.symm.trans htext)
  obtain rfl : _ = r := Except.ok.inj (hproduct.symm.trans hr)
  exact absurd hsame (by decide +kernel)

end Canonical

end UnitCalculus
