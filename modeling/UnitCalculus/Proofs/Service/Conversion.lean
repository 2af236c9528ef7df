import UnitCalculus.Proofs.Definitions.Readings
import UnitCalculus.Proofs.Template.Conversion

/-! # Conversions

A conversion first computes a value (`converted`) and then shows it in the template that is made
from the specification and the target.  It succeeds for a specification without braces in which the
value can be shown (`convertText_eq_ok_iff`).  Its faults are those of the value, of the template
and of the specification (`onlyFaults_convertText`), of which the caller is told about all but those
of arithmetic and those of fields that ask for a value that there is not. -/

namespace UnitCalculus

open Expression

/-! ### Tables -/

namespace UnitTable

variable {t : UnitTable}

/-- No unit and no factor is a number with a sign, and no symbol has braces. -/
structure Presentable (t : UnitTable) : Prop where
  unsigned : t.Unsigned
  units : ∀ u ∈ t.units.entries, Unbraced u.1.toList
  factors : ∀ f ∈ t.factors.entries, Unbraced f.1.toList

theorem Presentable.not_writes (ht : t.Presentable) {c : Char} (hc : IsBrace c) :
    ¬t.Writes c := by
  rintro (⟨u, hu, hmem⟩ | ⟨f, hf, hmem⟩)
  · exact ht.units u hu c hmem hc
  · exact ht.factors f hf c hmem hc

end UnitTable

theorem SI.presentable_table : SI.table.Presentable :=
  ⟨SI.unsigned_table, by decide +kernel, by decide +kernel⟩

namespace Service

variable {t : UnitTable} {text target spec : String}

/-! ### Values -/

/-- The value of the quantity of a text in the unit of a target. -/
def converted (t : UnitTable) (text target : String) : Except Fault Magnitude := do
  let q ← Expression.read t .decimal text
  let unit ← readUnit t target
  q.inUnitsOf unit

/-- The fault is one of a quantity or of dimensions. -/
inductive OfConversion : Fault → Prop
  | quantity {f : Fault} (h : OfQuantity f) : OfConversion f
  | dimension (f : DimensionFault) : OfConversion (.dimension f)

theorem onlyFaults_inUnitsOf (q u : Quantity) : OnlyFaults OfConversion (q.inUnitsOf u) := by
  have hsame : OnlyFaults OfConversion (q.requireSame u.dimension) := by
    unfold Quantity.requireSame
    split
    · exact onlyFaults_ok _
    · exact onlyFaults_error (.dimension _)
  exact hsame.bind fun _ _ =>
    (onlyFaults_liftNumber _).imp fun _ h => .quantity (.reading (.inr h))

theorem onlyFaults_converted (t : UnitTable) (text target : String) :
    OnlyFaults OfConversion (converted t text target) :=
  ((onlyFaults_read_any t text).imp fun _ h => .quantity h).bind fun q _ =>
    ((onlyFaults_readUnit_any t target).imp fun _ h => .quantity (.reading h)).bind fun u _ =>
      onlyFaults_inUnitsOf q u

theorem yields_converted (ht : t.Presentable) (text target : String) :
    Yields (Magnitude.Floating fun _ => True) (converted t text target) :=
  (ht.unsigned.yields_read text).bind fun _ hq =>
    (ht.unsigned.yields_readUnit target).bind fun _ hu => yields_inUnitsOf hq hu

/-! ### Lines -/

theorem unbraced_of_readUnit (ht : t.Presentable) {u : Quantity} (h : readUnit t target = .ok u) :
    Unbraced target.toList := fun _ hc hbrace =>
  ht.not_writes hbrace (writes_of_readUnit h hc (Template.runKind?_of_isBrace hbrace))

theorem readUnit_trim {u : Quantity} (h : readUnit t target = .ok u) :
    readUnit t (Text.trim target) = .ok u := by
  have htrim := lockstep_readUnit_trim t target
  rw [h] at htrim
  generalize readUnit t (Text.trim target) = x at htrim
  cases htrim with
  | ok hu => rw [hu]

/-- Without braces in the specification a conversion shows its value in the field before the
target. -/
theorem convertText_of_unbraced (ht : t.Presentable) (hspec : Unbraced spec.toList) :
    convertText t text target spec = (do
      let m ← converted t text target
      let shown ← liftDisplay (m.inField spec)
      return (m, shown ++ " " ++ target)) := by
  unfold convertText converted
  cases Expression.read t .decimal text with
  | error f => rfl
  | ok q =>
    cases hu : readUnit t target with
    | error f => rfl
    | ok u =>
      -- The target was read, so it has no braces, and the template reads the same unit from it.
      simp only [ok_bind]
      rw [Template.showIn_of_unbraced hspec (unbraced_of_readUnit ht hu), readUnit_trim hu, ok_bind]
      cases q.inUnitsOf u with
      | error f => rfl
      | ok m =>
        simp only [ok_bind]
        cases liftDisplay (m.inField spec) <;> rfl

/-- What is shown of a quantity that was read has no braces in its specification or its target. -/
theorem unbraced_of_shown (ht : t.Presentable) {q : Quantity} {line : String}
    (hq : Expression.read t .decimal text = .ok q)
    (h : Template.showIn t (conversionTemplate spec target) q.inUnitsOf = .ok line) :
    Unbraced spec.toList ∧ Unbraced target.toList := by
  have hfloat (s : String) (u : Quantity) (hu : readUnit t s = .ok u) :
      Yields (Magnitude.Floating fun _ => True) (q.inUnitsOf u) :=
    yields_inUnitsOf (ht.unsigned.yields_read text q hq) (ht.unsigned.yields_readUnit s u hu)
  exact Template.unbraced_of_showIn (fun c => ht.not_writes) hfloat h

theorem convertText_eq_ok_iff (ht : t.Presentable) {m : Magnitude} {line : String} :
    convertText t text target spec = .ok (m, line) ↔
      Unbraced spec.toList ∧ converted t text target = .ok m ∧
        ∃ shown, m.inField spec = .ok shown ∧ line = shown ++ " " ++ target := by
  constructor
  · intro h
    have hspec : Unbraced spec.toList := by
      obtain ⟨q, hq, h⟩ := bind_eq_ok h
      obtain ⟨u, -, h⟩ := bind_eq_ok h
      obtain ⟨m', -, h⟩ := bind_eq_ok h
      obtain ⟨line', hline, -⟩ := bind_eq_ok h
      exact (unbraced_of_shown ht hq hline).1
    rw [convertText_of_unbraced ht hspec] at h
    obtain ⟨m', hm, h⟩ := bind_eq_ok h
    obtain ⟨shown, hshown, h⟩ := bind_eq_ok h
    cases h
    exact ⟨hspec, hm, shown, liftDisplay_eq_ok hshown, rfl⟩
  · rintro ⟨hspec, hm, shown, hshown, rfl⟩
    rw [convertText_of_unbraced ht hspec, hm, ok_bind, hshown]
    rfl

/-! ### Faults -/

/-- Whether the fault is one that the caller is told about. -/
def isExplained : Fault → Bool
  | .expression _ | .dimension _ | .value _ | .template _ | .display (.field _) => true
  | _ => false

theorem namedFault_cases (f : Fault) : namedFault f = f ∨
    (∃ d, f = .dimension d) ∧ namedFault f = .display (.field .digitLimit) := by
  cases f with
  | dimension d =>
    unfold namedFault
    dsimp only
    split
    · exact .inl rfl
    · exact .inr ⟨⟨d, rfl⟩, rfl⟩
  | _ => exact .inl rfl

/-- The fault of a conversion is refused or escapes as it is explained or not. -/
theorem conversionFault_cases (f : Fault) :
    (isExplained f = true ∧ ∃ r, conversionFault f = .refused r) ∨
      (isExplained f = false ∧ conversionFault f = .escaped f) := by
  unfold conversionFault
  rcases namedFault_cases f with h | ⟨⟨d, rfl⟩, h⟩
  · rw [h]
    cases f with
    | expression | dimension | value | template => exact .inl ⟨rfl, _, rfl⟩
    | display d =>
      cases d with
      | field g => exact .inl ⟨rfl, _, rfl⟩
      | _ => exact .inr ⟨rfl, rfl⟩
    | _ => exact .inr ⟨rfl, rfl⟩
  · rw [h]
    exact .inl ⟨rfl, _, rfl⟩

theorem conversionFault_eq_refused_iff {f : Fault} :
    (∃ r, conversionFault f = .refused r) ↔ isExplained f = true := by
  rcases conversionFault_cases f with ⟨hf, r, hr⟩ | ⟨hf, he⟩
  · simp [hf, hr]
  · simp [hf, he]

theorem conversionFault_eq_escaped_iff {f g : Fault} :
    conversionFault f = .escaped g ↔ f = g ∧ isExplained f = false := by
  rcases conversionFault_cases f with ⟨hf, r, hr⟩ | ⟨hf, he⟩
  · simp [hf, hr]
  · simp [hf, he]

theorem arithmetic_of_ofConversion {f : Fault} (h : OfConversion f)
    (hf : isExplained f = false) : Arithmetic f := by
  rcases h with ⟨(⟨e, rfl⟩ | h) | s⟩ | d
  · cases hf
  · exact h
  · cases hf
  · cases hf

theorem isExplained_of_arithmetic {f : Fault} (h : Arithmetic f) : isExplained f = false := by
  obtain ⟨n, rfl⟩ := h
  rfl

/-- Whatever the specification, only arithmetic and the values that a template asks for end a
conversion without an explanation. -/
theorem onlyFaults_convertText (ht : t.Presentable) (text target spec : String) :
    OnlyFaults (fun f => OfConversion f ∨ Template.OfTemplate f ∨ ∃ g, f = .display (.field g))
      (convertText t text target spec) := by
  have hread (s : String) : OnlyFaults OfConversion (readUnit t s) :=
    (onlyFaults_readUnit_any t s).imp fun _ h => .quantity (.reading h)
  refine ((onlyFaults_read_any t text).imp fun _ h => .inl (.quantity h)).bind fun q hq => ?_
  refine ((hread target).imp fun _ h => .inl h).bind fun u _ => ?_
  refine ((onlyFaults_inUnitsOf q u).imp fun _ h => .inl h).bind fun m _ => ?_
  refine OnlyFaults.bind ?_ fun _ _ => onlyFaults_ok _
  rw [Template.showIn_conversionTemplate]
  refine ((Template.onlyFaults_liftTemplate _).imp fun _ h => .inr (.inl h)).bind fun p _ => ?_
  refine ((Template.onlyFaults_liftTemplate _).imp fun _ h => .inr (.inl h)).bind fun ps _ => ?_
  refine ((hread _).imp fun _ h => .inl h).bind fun u' hu' => ?_
  refine ((onlyFaults_inUnitsOf q u').imp fun _ h => .inl h).bind fun m' hm' => ?_
  have hfloat := yields_inUnitsOf (ht.unsigned.yields_read text q hq)
    (ht.unsigned.yields_readUnit _ u' hu') m' hm'
  exact (Template.onlyFaults_showField hfloat _ _ _).imp fun _ h => .inr h

/-! ### The endpoint -/

variable {format : Option String}

theorem convert_eq_ok_iff {a : ConversionAnswer} :
    convert t text target format = .ok a ↔ ∃ m x line,
      convertText t text target (format.getD "") = .ok (m, line) ∧ m.toFloat = .ok x ∧
        a = ⟨x, target, line⟩ := by
  unfold convert
  cases h : convertText t text target (format.getD "") with
  | error f => simp
  | ok p =>
    obtain ⟨m, line⟩ := p
    dsimp only
    cases hx : m.toFloat with
    | error f => simp [hx]
    | ok x => simp [hx, @eq_comm _ a]

theorem convert_eq_error_iff (ht : t.Presentable) {e : EndpointFault} :
    convert t text target format = .error e ↔ ∃ f,
      convertText t text target (format.getD "") = .error f ∧ e = conversionFault f := by
  unfold convert
  cases h : convertText t text target (format.getD "") with
  | error f => simp [@eq_comm _ e]
  | ok p =>
    obtain ⟨m, line⟩ := p
    obtain ⟨-, hm, -⟩ := (convertText_eq_ok_iff ht).mp h
    obtain ⟨x, hx⟩ := (yields_converted ht text target m hm).oneOrFloat.exists_toFloat
    simp [hx]

theorem exists_refused_iff (ht : t.Presentable) :
    (∃ r, convert t text target format = .error (.refused r)) ↔
      ∃ f, convertText t text target (format.getD "") = .error f ∧ isExplained f = true := by
  simp only [convert_eq_error_iff ht]
  constructor
  · rintro ⟨r, f, hf, hr⟩
    exact ⟨f, hf, conversionFault_eq_refused_iff.mp ⟨r, hr.symm⟩⟩
  · rintro ⟨f, hf, hexplained⟩
    obtain ⟨r, hr⟩ := conversionFault_eq_refused_iff.mpr hexplained
    exact ⟨r, f, hf, hr.symm⟩

theorem convert_eq_escaped_iff (ht : t.Presentable) {f : Fault} :
    convert t text target format = .error (.escaped f) ↔
      convertText t text target (format.getD "") = .error f ∧ isExplained f = false := by
  rw [convert_eq_error_iff ht]
  constructor
  · rintro ⟨g, hg, h⟩
    obtain ⟨rfl, hf⟩ := conversionFault_eq_escaped_iff.mp h.symm
    exact ⟨hg, hf⟩
  · rintro ⟨hf, hexplained⟩
    exact ⟨f, hf, (conversionFault_eq_escaped_iff.mpr ⟨rfl, hexplained⟩).symm⟩

end Service

end UnitCalculus
