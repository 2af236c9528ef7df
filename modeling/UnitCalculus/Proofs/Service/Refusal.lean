import UnitCalculus.Proofs.Canonical.RoundTrip
import UnitCalculus.Proofs.Service.Conversion

/-! # What the service refuses

A request about a text is answered, refused with a reason, or ends with a fault that escapes.  In
the table of the international system every quantity has a number and a canonical text, so that
reading is answered unless a power of the dimension is too long to be written; it is refused for a
fault of the expression (`parseEnds`).  A conversion is answered if its value can be shown in a
specification without braces, and refused for every fault that it explains (`convertEnds`).  What
escapes is arithmetic, a number after blanks that are no padding, and a field that asks for a second
value. -/

namespace UnitCalculus.Service

open Expression

variable {t : UnitTable} {text target : String} {f : Fault}

/-! ### Reading -/

section reading

variable {ρ : String → Option Int}

theorem parse_eq_ok_iff {a : QuantityAnswer} :
    parse t text = .ok a ↔ ∃ q, Expression.read t .decimal text = .ok q ∧
      QuantityAnswer.ofQuantity t q = .ok a := by
  unfold parse
  split
  · next e h => simp [h]
  · next f _ h => simp [h]
  · next q h =>
    cases ha : QuantityAnswer.ofQuantity t q <;> simp [h, ha]

theorem parse_eq_refused_iff {r : Refusal} :
    parse t text = .error (.refused r) ↔
      ∃ e, Expression.read t .decimal text = .error (.expression e) ∧ r = .expression e := by
  unfold parse
  split
  · next e h => simp [h, @eq_comm _ r]
  · next f hf h =>
    rw [h]
    refine iff_of_false (by simp) ?_
    rintro ⟨e, he, -⟩
    exact hf e (Except.error.inj he)
  · next q h =>
    cases QuantityAnswer.ofQuantity t q <;> simp [h]

theorem parse_eq_escaped_iff :
    parse t text = .error (.escaped f) ↔
      (Expression.read t .decimal text = .error f ∧ ∀ e, f ≠ .expression e) ∨
        ∃ q, Expression.read t .decimal text = .ok q ∧
          QuantityAnswer.ofQuantity t q = .error f := by
  unfold parse
  split
  · next e h =>
    rw [h]
    refine iff_of_false (by simp) ?_
    rintro (⟨he, hne⟩ | ⟨q, hq, -⟩)
    · exact hne e (Except.error.inj he).symm
    · cases hq
  · next g hg h =>
    rw [h]
    constructor
    · rintro ⟨⟩
      exact .inl ⟨rfl, fun e he => hg e he⟩
    · rintro (⟨he, -⟩ | ⟨q, hq, -⟩)
      · rw [Except.error.inj he]
      · cases hq
  · next q h =>
    cases hq : QuantityAnswer.ofQuantity t q <;> simp [h, hq]

/-- A quantity is shown unless its dimension cannot be written. -/
theorem ofQuantity_cases (ht : ∀ u ∈ t.units.entries, u.2.Sound ρ) {P : Float → Prop}
    {q : Quantity} (hq : q.magnitude.OneOrFloat P) :
    (QuantityAnswer.isWritable q.dimension = true ∧
        ∃ a, QuantityAnswer.ofQuantity t q = .ok a) ∨
      (QuantityAnswer.isWritable q.dimension = false ∧
        QuantityAnswer.ofQuantity t q = .error (.number .outsideDomain)) := by
  obtain ⟨x, hx⟩ := hq.exists_toFloat
  unfold QuantityAnswer.ofQuantity
  rw [hx]
  cases hdimension : QuantityAnswer.isWritable q.dimension with
  | true =>
    obtain ⟨s, hs⟩ := Canonical.exists_text true hq.isWritable hdimension ht
    rw [hs]
    exact .inl ⟨rfl, _, rfl⟩
  | false => exact .inr ⟨rfl, rfl⟩

/-- How a request to read a text ends. -/
structure ParseEnds (t : UnitTable) (text : String) : Prop where
  /-- Every quantity is answered whose dimension can be written. -/
  answered : (∃ a, parse t text = .ok a) ↔ ∃ q, Expression.read t .decimal text = .ok q ∧
    QuantityAnswer.isWritable q.dimension = true
  /-- The refusal is that of the expression. -/
  refused (r : Refusal) : parse t text = .error (.refused r) ↔
    ∃ e, Expression.read t .decimal text = .error (.expression e) ∧ r = .expression e
  /-- What escapes is arithmetic, or a number after blanks that are no padding. -/
  escaped (f : Fault) : parse t text = .error (.escaped f) →
    Arithmetic f ∨ ∃ s, f = .value (.unreadableNumber s)

theorem parseEnds (ht : t.Unsigned) (hsound : ∀ u ∈ t.units.entries, u.2.Sound ρ)
    (text : String) : ParseEnds t text where
  answered := by
    constructor
    · rintro ⟨a, ha⟩
      obtain ⟨q, hq, ha⟩ := parse_eq_ok_iff.mp ha
      rcases ofQuantity_cases hsound (ht.yields_read text q hq) with ⟨h, -⟩ | ⟨-, hf⟩
      · exact ⟨q, hq, h⟩
      · rw [hf] at ha
        cases ha
    · rintro ⟨q, hq, hdimension⟩
      rcases ofQuantity_cases hsound (ht.yields_read text q hq) with ⟨-, a, ha⟩ | ⟨h, -⟩
      · exact ⟨a, parse_eq_ok_iff.mpr ⟨q, hq, ha⟩⟩
      · rw [hdimension] at h
        cases h
  refused _ := parse_eq_refused_iff
  escaped f h := by
    rcases parse_eq_escaped_iff.mp h with ⟨hread, hexpression⟩ | ⟨q, hq, hf⟩
    · rcases onlyFaults_read_any t text f hread with ⟨⟨e, rfl⟩ | hnumber⟩ | s
      · exact absurd rfl (hexpression e)
      · exact .inl hnumber
      · exact .inr ⟨s, rfl⟩
    · rcases ofQuantity_cases hsound (ht.yields_read text q hq) with ⟨-, a, ha⟩ | ⟨-, hf'⟩
      · rw [ha] at hf
        cases hf
      · rw [hf'] at hf
        cases hf
        exact .inl ⟨_, rfl⟩

end reading

/-! ### Conversions -/

section conversion

variable {format : Option String}

/-- How a request to convert a text ends. -/
structure ConvertEnds (t : UnitTable) (text target : String) (format : Option String) : Prop where
  /-- The answer has the value and the line that shows it, in a specification without braces. -/
  answered (a : ConversionAnswer) : convert t text target format = .ok a ↔
    Unbraced (format.getD "").toList ∧ ∃ m x shown, converted t text target = .ok m ∧
      m.toFloat = .ok x ∧ m.inField (format.getD "") = .ok shown ∧
      a = ⟨x, target, shown ++ " " ++ target⟩
  /-- Without braces in the specification nothing but the arithmetic of the value escapes. -/
  escaped_of_unbraced (hspec : Unbraced (format.getD "").toList) (f : Fault) :
    convert t text target format = .error (.escaped f) ↔
      converted t text target = .error f ∧ Arithmetic f
  /-- With braces, fields that ask for another value escape as well. -/
  escaped (f : Fault) : convert t text target format = .error (.escaped f) →
    Arithmetic f ∨ f = .unknownName ∨ f = .unknownPosition

/-- Only the value of a conversion may fail without an explanation. -/
theorem convertText_eq_error_iff (ht : t.Presentable) {spec : String}
    (hspec : Unbraced spec.toList) (hf : isExplained f = false) :
    convertText t text target spec = .error f ↔ converted t text target = .error f := by
  rw [convertText_of_unbraced ht hspec]
  cases hm : converted t text target with
  | error g => simp [error_bind]
  | ok m =>
    rw [ok_bind]
    refine iff_of_false ?_ (by simp)
    cases hshown : m.inField spec with
    | ok shown => simp [liftDisplay, ok_bind, pure, Except.pure]
    | error d =>
      obtain ⟨g, rfl⟩ := Magnitude.field_of_inField (yields_converted ht text target m hm) hshown
      rintro ⟨⟩
      cases hf

theorem convertEnds (ht : t.Presentable) (text target : String) (format : Option String) :
    ConvertEnds t text target format where
  answered a := by
    rw [convert_eq_ok_iff]
    constructor
    · rintro ⟨m, x, line, h, hx, rfl⟩
      obtain ⟨hspec, hm, shown, hshown, rfl⟩ := (convertText_eq_ok_iff ht).mp h
      exact ⟨hspec, m, x, shown, hm, hx, hshown, rfl⟩
    · rintro ⟨hspec, m, x, shown, hm, hx, hshown, rfl⟩
      exact ⟨m, x, _, (convertText_eq_ok_iff ht).mpr ⟨hspec, hm, shown, hshown, rfl⟩, hx, rfl⟩
  escaped_of_unbraced hspec f := by
    rw [convert_eq_escaped_iff ht]
    constructor
    · rintro ⟨h, hf⟩
      have hvalue := (convertText_eq_error_iff ht hspec hf).mp h
      exact ⟨hvalue, arithmetic_of_ofConversion (onlyFaults_converted t text target f hvalue) hf⟩
    · rintro ⟨h, harithmetic⟩
      have hf := isExplained_of_arithmetic harithmetic
      exact ⟨(convertText_eq_error_iff ht hspec hf).mpr h, hf⟩
  escaped f h := by
    obtain ⟨h, hf⟩ := (convert_eq_escaped_iff ht).mp h
    rcases onlyFaults_convertText ht text target _ f h with hvalue | htemplate | ⟨g, rfl⟩
    · exact .inl (arithmetic_of_ofConversion hvalue hf)
    · rcases htemplate with g | _ | _
      · cases hf
      · exact .inr (.inl rfl)
      · exact .inr (.inr rfl)
    · cases hf

end conversion

/-! ### The international system -/

/-- **How the requests about SI quantities end.** Reading answers or refuses unless arithmetic
fails, the number follows blanks that are no padding, or a power is too long to be written;
conversion answers or refuses unless arithmetic fails or a field in the specification asks for a
value. -/
theorem si_requests_end (text target : String) (format : Option String) :
    ParseEnds SI.table text ∧ ConvertEnds SI.table text target format :=
  ⟨parseEnds SI.unsigned_table SI.legible_table.units text,
    convertEnds SI.presentable_table text target format⟩

theorem si_requests_end_kilometresPerHour :
    (∃ a, parse SI.table "72 km/h" = .ok a) ∧
      ∃ a, convert SI.table "72 km/h" "m/s" (some ".1f") = .ok a ∧ a.formatted = "20.0 m/s" := by
  obtain ⟨hparse, hconvert⟩ := si_requests_end "72 km/h" "m/s" (some ".1f")
  have hread : Expression.read SI.table .decimal "72 km/h" =
      .ok ⟨.real 20.0, SI.length.div SI.time⟩ := by
    decide +kernel
  have hvalue : converted SI.table "72 km/h" "m/s" = .ok (.real 20.0) := by decide +kernel
  refine ⟨hparse.answered.mpr ⟨_, hread, by decide +kernel⟩, _,
    (hconvert.answered _).mpr ⟨by decide, .real 20.0, 20.0, "20.0", hvalue, rfl, ?_, rfl⟩, ?_⟩
  · decide +kernel
  · decide +kernel

/-- A field inside the specification asks for a second value, and its fault is neither an answer nor
a refusal. -/
theorem not_explained_secondField :
    ¬((∃ a, convert SI.table "1 m" "m" (some "\x7b\x7d") = .ok a) ∨
      ∃ r, convert SI.table "1 m" "m" (some "\x7b\x7d") = .error (.refused r)) := by
  have h : convertText SI.table "1 m" "m" "\x7b\x7d" = .error .unknownPosition := by decide +kernel
  rintro (⟨a, ha⟩ | ⟨r, hr⟩)
  · obtain ⟨m, x, line, hline, -⟩ := convert_eq_ok_iff.mp ha
    rw [Option.getD_some, h] at hline
    cases hline
  · obtain ⟨f, hf, hr⟩ := (convert_eq_error_iff SI.presentable_table).mp hr
    rw [Option.getD_some, h] at hf
    cases hf
    cases hr

end UnitCalculus.Service
