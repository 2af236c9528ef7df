import UnitCalculus.Proofs.Canonical.BaseUnits
import UnitCalculus.Proofs.Expression.Acceptance
import UnitCalculus.Proofs.Formula.DimensionalAnalysis
import UnitCalculus.Proofs.SI

/-! # Reading the text of a unit back

The text of a dimension is a row of powers of base units.  Its tokens are those of a product
without signs: a blank ends every factor, so that neither a negative power nor the denominator of
a fraction goes on into the next one (`lexFrom_power`, `lexFrom_factor`).  The product has the
value one and the powers of the dimension, whatever the order in which its factors are multiplied
(`readUnit_unitText`). -/

namespace UnitCalculus

open Dimension Token UnitTable Expression Expression.Derivation

/-! ### Quantities of value one -/

/-- The quantity has the value one and the powers `p`. -/
structure Quantity.OneOf (ρ : String → Option Int) (p : String → Rat) (q : Quantity) : Prop where
  isOne : q.magnitude.IsOne
  hasPowers : q.HasPowers ρ p

section oneOf

variable {ρ : String → Option Int} {p p' : String → Rat} {q r : Quantity}

theorem Quantity.OneOf.congr (h : q.OneOf ρ p) (hp : ∀ s, p s = p' s) : q.OneOf ρ p' :=
  ⟨h.isOne, h.hasPowers.regular, fun s => (h.hasPowers.powerOf s).trans (hp s)⟩

theorem oneOf_one (ρ : String → Option Int) : Quantity.one.OneOf ρ fun _ => 0 :=
  ⟨.inl rfl, Regular.one, powerOf_one⟩

theorem Quantity.OneOf.mul (hq : q.OneOf ρ p) (hr : r.OneOf ρ p') :
    ∃ x, q.withQuantity .mul r = .ok x ∧ x.OneOf ρ fun s => p s + p' s := by
  obtain ⟨m, hm, hone⟩ := hq.isOne.mul hr.isOne
  have hmul : q.withQuantity .mul r = .ok ⟨m, q.dimension.mul r.dimension⟩ := by
    simp only [withQuantity, Operator.evaluate, Operator.compute, hm]
    rfl
  refine ⟨_, hmul, hone, hq.hasPowers.regular.mul hr.hasPowers.regular, fun s => ?_⟩
  rw [powerOf_mul hq.hasPowers.regular.canonical hr.hasPowers.regular.canonical,
    hq.hasPowers.powerOf, hr.hasPowers.powerOf]

theorem Quantity.OneOf.pow (hq : q.OneOf ρ p) {e : Rat}
    (he : e.num.natAbs < Decimal.powTen 300) :
    ∃ x, q.pow e = .ok x ∧ x.OneOf ρ fun s => p s * e := by
  obtain ⟨m, hm, hone⟩ := hq.isOne.powerOfMagnitude he
  have hpow : q.pow e = .ok ⟨m, q.dimension.pow e⟩ := by
    simp only [Quantity.pow, hm]
    rfl
  refine ⟨_, hpow, hone, hq.hasPowers.regular.pow e, fun s => ?_⟩
  rw [powerOf_pow hq.hasPowers.regular.canonical, hq.hasPowers.powerOf]

/-- A base unit has the first power of its symbol and no other. -/
theorem Quantity.IsBase.oneOf {s : String} (h : q.IsBase s) (hm : q.magnitude.isPlain = true)
    (hr : Regular ρ q.dimension) :
    q.OneOf ρ fun s' => if s = s' then 1 else 0 := by
  obtain ⟨f, hfactors, hkey⟩ := List.map_eq_singleton_iff.mp h.2
  obtain ⟨rfl, hpower⟩ : f.symbol = s ∧ f.power = 1 := by simpa [Factor.key] using hkey
  refine ⟨(Magnitude.isOne_iff hm).mpr h.1, hr, fun s' => ?_⟩
  rw [powerOf_eq_total hr.canonical, hfactors, total_cons, total_nil, add_zero, hpower]

end oneOf

namespace Canonical

/-! ### Exponents -/

section text

variable (text : String) (n : Nat)

theorem lexFrom_sign {k : TokenKind} {c : Char} (hrun : runKind? c = none)
    (hk : singleKind? c = some k) (hv : hasValue k = false) :
    ∃ t : Terminal k, lexFrom text n [c] = .ok [t.1] :=
  ⟨⟨_, rfl⟩, lexFrom_single hrun hk hv⟩

theorem lexFrom_number {v : Int} (hv : Decimal.isWritable v = true) :
    ∃ t : Terminal .integer, lexFrom text n (toString v).toList = .ok [t.1] ∧ integerOf t.1 = v :=
  ⟨⟨_, rfl⟩, lexFrom_toString hv, rfl⟩

/-- An exponent is read as the fraction that it writes. -/
theorem lexFrom_power {e : Rat} (hnum : Decimal.isWritable e.num = true)
    (hden : Decimal.isWritable e.den = true) :
    ∃ w : Power, lexFrom text n ('^' :: (Exponent.text e).toList) = .ok w.tokens ∧
      w.value = e ∧ w.den ≠ 0 := by
  obtain ⟨hat, hhat⟩ : ∃ t : Terminal .exp, lexFrom text n ['^'] = .ok [t.1] :=
    lexFrom_sign text n rfl rfl rfl
  obtain ⟨num, hnum, hvalue⟩ := lexFrom_number text (n + 1) hnum
  unfold Exponent.text
  split
  · next hone =>
    refine ⟨⟨.raised hat num, none⟩, ?_, ?_, by simp [Power.den]⟩
    · have hpower := lexFrom_append (apart_of_runKind?_none rfl) hhat hnum
      exact hpower
    · simp only [Power.value, Power.den, Numerator.value, hvalue, Option.map_none,
        Option.getD_none]
      rw [Int.cast_one, div_one, Rat.coe_int_num_of_den_eq_one (by simpa using hone)]
  · let after := n + 1 + (toString e.num).toList.length
    obtain ⟨slash, hslash⟩ : ∃ t : Terminal .div, lexFrom text after ['/'] = .ok [t.1] :=
      lexFrom_sign text after rfl rfl rfl
    obtain ⟨den, hden, hdenominator⟩ := lexFrom_number text (after + 1) hden
    refine ⟨⟨.raised hat num, some ⟨slash, den⟩⟩, ?_, ?_, ?_⟩
    · have hquotient := lexFrom_append (apart_of_runKind?_none rfl) hslash hden
      have hfraction := lexFrom_append
        ((isRun_toString e.num).apart (by rintro c ⟨⟩; decide)) hnum hquotient
      have hpower := lexFrom_append (apart_of_runKind?_none rfl) hhat hfraction
      rw [String.toList_append, String.toList_append, List.append_assoc]
      exact hpower
    · simp only [Power.value, Power.den, Numerator.value, hvalue, hdenominator, Option.map_some,
        Option.getD_some]
      exact Rat.num_div_den e
    · simp [Power.den, hdenominator]

/-! ### Factors -/

variable {ρ : String → Option Int} {t : UnitTable}

/-- The symbol of a unit is read as the unit. -/
theorem lexFrom_unit {name : String} {q : Quantity} (hq : (name, q) ∈ t.units.entries)
    (hspoken : Spoken (name, q)) :
    ∃ a : Atom, lexFrom text n name.toList = .ok a.tokens ∧ Meaningful t a.tokens a.powers ∧
      a.eval t = .ok q := by
  have hlookup : t.lookup name = .ok q := by
    rw [UnitTable.lookup, Catalog.find?_eq_some_iff.mpr hq]
  have hlex : lexFrom text n name.toList = .ok [⟨.symbol, String.ofList name.toList, n, none⟩] :=
    lexFrom_symbol hspoken.symbolic hspoken.nonempty
  rw [String.ofList_toList] at hlex
  exact ⟨.symbol ⟨_, rfl⟩, hlex, meaningful_symbol hlookup, hlookup⟩

/-- There is a base unit for the factor whose symbol can be read, and its power is not too large for
a power of one to be computed. -/
structure Spells (t : UnitTable) (bases : Catalog String) (f : Factor) : Prop where
  unit : ∃ name q, bases.find? f.symbol = some name ∧ (name, q) ∈ t.units.entries ∧
    q.IsBase f.symbol ∧ Spoken (name, q)
  num : f.power.num.natAbs < Decimal.powTen 300
  den : f.power.den < Decimal.powTen 300

variable {bases : Catalog String} {f : Factor} {fs : List Factor}

/-- The power of a base unit is read as one factor. -/
theorem lexFrom_factor (ht : ∀ u ∈ t.units.entries, u.2.Sound ρ) (hf : Spells t bases f) :
    ∃ g : Powered, lexFrom text n (factorText bases f).toList = .ok g.tokens ∧
      Meaningful t g.tokens g.powers ∧
      ∃ x, g.eval t = .ok x ∧ x.OneOf ρ fun s => if f.symbol = s then f.power else 0 := by
  obtain ⟨⟨name, q, hname, hq, hbase, hspoken⟩, hnum, hden⟩ := hf
  obtain ⟨a, hlex, hmeaning, heval⟩ := lexFrom_unit text n hq hspoken
  have hone := hbase.oneOf hspoken.plain (ht _ hq).regular
  unfold factorText
  rw [hname, Option.getD_some]
  dsimp only
  split
  · next hpower =>
    have hpower : f.power = 1 := by simpa using hpower
    refine ⟨.mk a none, ?_, ?_, q, heval, ?_⟩
    · rw [Powered.tokens, hlex]
      simp [powerTokens]
    · rw [Powered.tokens, Powered.powers]
      simpa [powerTokens] using hmeaning
    · exact hone.congr fun s => by rw [hpower]
  · obtain ⟨w, hpower, hvalue, hw⟩ := lexFrom_power text (n + name.toList.length)
      (Decimal.isWritable_of_lt hnum) (Decimal.isWritable_of_lt hden)
    obtain ⟨x, hx, hxone⟩ := hone.pow hnum
    refine ⟨.mk a (some w), ?_, ?_, x, ?_, ?_⟩
    · have hfactor := lexFrom_append
        (hspoken.symbolic.apart (by rintro c ⟨⟩; decide)) hlex hpower
      rw [String.toList_append, String.toList_append, List.append_assoc]
      exact hfactor
    · rw [Powered.tokens, Powered.powers]
      exact hmeaning.append (meaningful_power (by simpa [Divides] using hw))
    · rw [Powered.eval, heval, hvalue]
      exact hx
    · exact hxone.congr fun s => by split <;> simp

/-! ### Products -/

/-- The powers of base units, each after a blank. -/
def spacedFactors (bases : Catalog String) (fs : List Factor) : List Char :=
  fs.flatMap fun f => ' ' :: (factorText bases f).toList

theorem intercalate_factors (f : Factor) (fs : List Factor) :
    (" ".intercalate ((f :: fs).map (factorText bases))).toList =
      (factorText bases f).toList ++ spacedFactors bases fs := by
  induction fs generalizing f with
  | nil => simp [spacedFactors]
  | cons g fs ih =>
    have hrest := ih g
    rw [List.map_cons] at hrest
    rw [List.map_cons, List.map_cons, String.intercalate_cons_cons, String.toList_append,
      String.toList_append, hrest]
    simp [spacedFactors]

/-- A blank ends every run. -/
theorem apart_blank (cs ds : List Char) : Apart cs (' ' :: ds) := by
  intro x _ y hy
  obtain rfl : ' ' = y := by simpa using hy
  have hblank : runKind? ' ' = none := by decide
  cases hx : runKind? x <;> simp [continues, hx, hblank]

theorem lexFrom_blank_cons {cs : List Char} {ts : List Token}
    (h : lexFrom text (n + 1) cs = .ok ts) : lexFrom text n (' ' :: cs) = .ok ts := by
  have hblank : lexFrom text n [' '] = .ok [] := lexFrom_blank (by decide) (by decide)
  exact lexFrom_append (apart_of_runKind?_none (by decide)) hblank h

theorem apart_spacedFactors (cs : List Char) (bases : Catalog String) (fs : List Factor) :
    Apart cs (spacedFactors bases fs) := by
  cases fs with
  | nil =>
    intro x _ y hy
    cases hy
  | cons f fs => exact apart_blank cs _

/-- The powers of base units after the first are read as the factors of a product. -/
theorem lexFrom_spacedFactors (ht : ∀ u ∈ t.units.entries, u.2.Sound ρ)
    (hfs : ∀ f ∈ fs, Spells t bases f) :
    ∃ m : Tail, lexFrom text n (spacedFactors bases fs) = .ok m.tokens ∧
      Meaningful t m.tokens m.powers ∧
      ∀ q p, q.OneOf ρ p → ∃ x, m.evalFrom t q = .ok x ∧ x.OneOf ρ fun s => p s + total s fs := by
  induction fs generalizing n with
  | nil =>
    refine ⟨.nil, rfl, meaningful_nil, fun q p hq => ⟨q, rfl, hq.congr fun s => ?_⟩⟩
    rw [total_nil, add_zero]
  | cons f fs ih =>
    let width := (factorText bases f).toList.length
    obtain ⟨g, hlex, hmeaning, r, hr, hone⟩ :=
      lexFrom_factor text (n + 1) ht (hfs f List.mem_cons_self)
    obtain ⟨m, hmore, hmeaning', heval⟩ :=
      ih (n + 1 + width) fun f hf => hfs f (List.mem_cons_of_mem _ hf)
    refine ⟨.cons none g m, ?_, ?_, fun q p hq => ?_⟩
    · have hfactors := lexFrom_append (apart_spacedFactors _ bases fs) hlex hmore
      rw [Tail.tokens, signTokens, Option.map_none, Option.toList_none, List.nil_append]
      exact lexFrom_blank_cons text n hfactors
    · rw [Tail.tokens, Tail.powers]
      exact (meaningful_sign none).append (hmeaning.append hmeaning')
    · obtain ⟨x, hx, hxone⟩ := hq.mul hone
      obtain ⟨y, hy, hyone⟩ := heval x _ hxone
      refine ⟨y, ?_, hyone.congr fun s => ?_⟩
      · rw [Tail.evalFrom, hr, ok_bind]
        show (q.withQuantity .mul r >>= m.evalFrom t) = .ok y
        rw [hx, ok_bind, hy]
      · rw [total_cons]
        ring

/-- The text of a unit is read as a product. -/
theorem lexFrom_factors (ht : ∀ u ∈ t.units.entries, u.2.Sound ρ)
    (hfs : ∀ f ∈ fs, Spells t bases f) (hne : fs ≠ []) :
    ∃ p : Product,
      lexFrom text n (" ".intercalate (fs.map (factorText bases))).toList = .ok p.tokens ∧
      Meaningful t p.tokens p.powers ∧ ∃ x, p.eval t = .ok x ∧ x.OneOf ρ fun s => total s fs := by
  obtain ⟨f, fs, rfl⟩ := List.exists_cons_of_ne_nil hne
  obtain ⟨g, hlex, hmeaning, q, hq, hone⟩ := lexFrom_factor text n ht (hfs f List.mem_cons_self)
  obtain ⟨m, hmore, hmeaning', heval⟩ :=
    lexFrom_spacedFactors text (n + (factorText bases f).toList.length) ht
      fun f hf => hfs f (List.mem_cons_of_mem _ hf)
  obtain ⟨x, hx, hxone⟩ := heval q _ hone
  refine ⟨.mk g m, ?_, ?_, x, ?_, hxone.congr fun s => (total_cons s f fs).symm⟩
  · rw [intercalate_factors]
    exact lexFrom_append (apart_spacedFactors _ bases fs) hlex hmore
  · rw [Product.tokens, Product.powers]
    exact hmeaning.append hmeaning'
  · rw [Product.eval, hq, ok_bind, hx]

end text

/-! ### Reading back -/

/-- A text with the tokens of a product of base units is read as that product. -/
theorem readUnit_factors {ρ : String → Option Int} {t : UnitTable} {bases : Catalog String}
    {d : Dimension} (ht : ∀ u ∈ t.units.entries, u.2.Sound ρ) (hd : Regular ρ d)
    (hspells : ∀ f ∈ d.factors, Spells t bases f)
    {text : String} (n : Nat) (hlex : ∀ ts,
      lexFrom text n (" ".intercalate (d.factors.map (factorText bases))).toList = .ok ts →
        lex text = .ok ts) :
    ∃ r, readUnit t text = .ok r ∧ r.OneOf ρ d.powerOf := by
  by_cases hnil : d.factors = []
  · rw [hnil] at hlex
    refine ⟨.one, ?_, (oneOf_one ρ).congr fun s => ?_⟩
    · rw [readUnit_of_lex t (hlex [] rfl)]
      rfl
    · rw [powerOf, hnil]
      rfl
  · obtain ⟨p, hp, hmeaning, r, hr, hone⟩ := lexFrom_factors text n ht hspells hnil
    have htokens := hlex _ hp
    refine ⟨r, ?_, hone.congr fun s => (powerOf_eq_total hd.canonical s).symm⟩
    rw [readUnit_of_lex t htokens, ← hr]
    exact ofTokens_product ⟨t, text⟩ hmeaning (valued_lex htokens)

/-- There is a unit of value one for the symbol of every factor. -/
def Covers (t : UnitTable) (d : Dimension) : Prop :=
  ∀ f ∈ d.factors, ∃ u ∈ t.units.entries, u.2.magnitude.EqualsOne ∧
    u.2.dimension.key = [(f.symbol, 1)]

/-- The powers are not too large for the powers of one to be computed. -/
def Bounded (d : Dimension) : Prop :=
  ∀ f ∈ d.factors, f.power.num.natAbs < Decimal.powTen 300 ∧ f.power.den < Decimal.powTen 300

instance (t : UnitTable) (d : Dimension) : Decidable (Covers t d) :=
  inferInstanceAs (Decidable (∀ f ∈ d.factors, ∃ u ∈ t.units.entries,
    u.2.magnitude.EqualsOne ∧ u.2.dimension.key = [(f.symbol, 1)]))

instance (d : Dimension) : Decidable (Bounded d) :=
  inferInstanceAs (Decidable (∀ f ∈ d.factors,
    f.power.num.natAbs < Decimal.powTen 300 ∧ f.power.den < Decimal.powTen 300))

/-- The base units that are found for a dimension with a base unit for each symbol. -/
theorem spells_of_covers {ρ : String → Option Int} {t : UnitTable} {d : Dimension}
    (ht : ∀ u ∈ t.units.entries, u.2.Sound ρ)
    (hspoken : ∀ u ∈ t.units.entries, ∀ f ∈ d.factors, u.2.IsBase f.symbol → Spoken u)
    (hcovers : Covers t d) (hbounded : Bounded d) :
    ∃ bases, baseUnits t = .ok bases ∧ ∀ f ∈ d.factors, Spells t bases f := by
  obtain ⟨bases, hbases, hsound, hcomplete⟩ := baseUnits_ok fun u hu => (ht u hu).number
  refine ⟨bases, hbases, fun f hf => ⟨?_, (hbounded f hf).1, (hbounded f hf).2⟩⟩
  obtain ⟨u, hu, hone, hkey⟩ := hcovers f hf
  have hbase : u.2.IsBase f.symbol := ⟨hone, hkey⟩
  obtain ⟨name, hname⟩ := hcomplete f.symbol u hu hbase
  obtain ⟨q, hq, hqbase⟩ := hsound f.symbol name hname
  exact ⟨name, q, hname, hq, hqbase, hspoken _ hq f hf hqbase⟩

/-- Powers that are not too large can be written. -/
theorem isWritable_of_bounded {d : Dimension} (h : Bounded d) : isWritable d = true := by
  refine List.all_eq_true.mpr fun f hf => ?_
  rw [Exponent.isWritable, Bool.and_eq_true]
  exact ⟨Decimal.isWritable_of_lt (h f hf).1, Decimal.isWritable_of_lt (h f hf).2⟩

theorem unitText_of_isWritable {t : UnitTable} {d : Dimension} {bases : Catalog String}
    (hbases : baseUnits t = .ok bases) (hd : isWritable d = true) :
    unitText t d = .ok (" ".intercalate (d.factors.map (factorText bases))) := by
  rw [unitText, hbases, ok_bind, hd]
  rfl

/-- The text of a unit is read back as a quantity of value one and of the same dimension. -/
theorem readUnit_unitText {ρ : String → Option Int} {t : UnitTable} (ht : t.Legible ρ)
    {q : Quantity} (hq : Regular ρ q.dimension) (hcovers : Covers t q.dimension)
    (hbounded : Bounded q.dimension) :
    ∃ text r, unitText t q.dimension = .ok text ∧ readUnit t text = .ok r ∧
      r.magnitude.EqualsOne ∧ r.dimension.same q.dimension = true ∧
      (q.isBare = true → text = "") := by
  obtain ⟨bases, hbases, hspells⟩ :=
    spells_of_covers ht.units (fun u hu _ _ _ => ht.spoken u hu) hcovers hbounded
  have htext := unitText_of_isWritable hbases (isWritable_of_bounded hbounded)
  obtain ⟨r, hr, hone⟩ := readUnit_factors ht.units hq hspells 0 fun _ h => h
  refine ⟨_, r, htext, hr, hone.isOne.equalsOne, ?_, ?_⟩
  · exact (hone.hasPowers.regular.same_iff hq).mpr hone.hasPowers.powerOf
  · intro hbare
    have hnil : q.dimension.factors = [] := List.isEmpty_iff.mp hbare
    rw [hnil]
    rfl

/-- A quantity with a negative and a fractional power: `m^-3/2 kg^-1 s^2`. -/
def mixedPowers : Quantity :=
  ⟨.real 2.5, ((SI.length.pow (-3 / 2)).mul (SI.time.pow 2)).div SI.mass⟩

theorem readUnit_unitText_mixedPowers :
    SI.table.Legible SI.rank ∧ Regular SI.rank mixedPowers.dimension ∧
      Covers SI.table mixedPowers.dimension ∧ Bounded mixedPowers.dimension ∧
      ∃ text r, unitText SI.table mixedPowers.dimension = .ok text ∧
        readUnit SI.table text = .ok r ∧
        r.magnitude.EqualsOne ∧ r.dimension.same mixedPowers.dimension = true ∧
        (mixedPowers.isBare = true → text = "") := by
  have hregular : Regular SI.rank mixedPowers.dimension := by decide +kernel
  have hcovers : Covers SI.table mixedPowers.dimension := by decide +kernel
  have hbounded : Bounded mixedPowers.dimension := by decide +kernel
  exact ⟨SI.legible_table, hregular, hcovers, hbounded,
    readUnit_unitText SI.legible_table hregular hcovers hbounded⟩

end Canonical

end UnitCalculus
