import UnitCalculus.Proofs.Service.Conversion

/-! # What a conversion shows

A conversion reads its target twice: as it was given, for the value, and once more out of the
template that is made from the specification and the target.  The template has one field, and behind
it the target after a blank (`pieces_of_unbraced`).  So the second reading gives the same unit, and
the line of an answer is its value in the field, with the target behind it (`convert_iff_shows`). -/

namespace UnitCalculus

open Expression

/-- Without braces the template of a conversion is one field with the target behind it. -/
theorem Template.pieces_of_unbraced {spec target : String} (hspec : Unbraced spec.toList)
    (htarget : Unbraced target.toList) :
    pieces (Service.conversionTemplate spec target) =
      .ok [⟨[], some ⟨[], none, spec.toList⟩⟩, ⟨' ' :: target.toList, none⟩] := by
  have hrest : Unbraced (' ' :: target.toList) :=
    List.forall_mem_cons.mpr ⟨by decide, htarget⟩
  rw [pieces_conversionTemplate, afterColon, specPart_of_unbraced hspec]
  simp only [ok_bind, piecesFrom_of_unbraced hrest]
  rfl

namespace Service

variable {t : UnitTable} {text target : String} {format : Option String} {a : ConversionAnswer}

/-- The answer to a conversion shows the value `m` of `q` in the unit `u`, which the target names. -/
structure Shows (t : UnitTable) (target spec : String) (q u : Quantity) (m : Magnitude)
    (a : ConversionAnswer) : Prop where
  quotient : q.inUnitsOf u = .ok m
  value : m.toFloat = .ok a.value
  unit : a.target = target
  line : ∃ shown, m.inField spec = .ok shown ∧ a.formatted = shown ++ " " ++ target
  /-- The template has one field, and the text after it is read as the same unit. -/
  template : ∃ field unit, Template.pieces (conversionTemplate spec target) =
      .ok [⟨[], some field⟩, ⟨unit, none⟩] ∧
    field.spec = spec.toList ∧ readUnit t (String.ofList (Text.trimBlank unit)) = .ok u

theorem converted_eq_ok_iff {m : Magnitude} :
    converted t text target = .ok m ↔ ∃ q u, Expression.read t .decimal text = .ok q ∧
      readUnit t target = .ok u ∧ q.inUnitsOf u = .ok m := by
  unfold converted
  cases Expression.read t .decimal text with
  | error f => simp [error_bind]
  | ok q =>
    rw [ok_bind]
    cases readUnit t target with
    | error f => simp [error_bind]
    | ok u => simp [ok_bind]

/-- The text after the field is read as the target is. -/
theorem exists_template (ht : t.Presentable) {spec : String} (hspec : Unbraced spec.toList)
    {u : Quantity} (hu : readUnit t target = .ok u) :
    ∃ field unit, Template.pieces (conversionTemplate spec target) =
        .ok [⟨[], some field⟩, ⟨unit, none⟩] ∧
      field.spec = spec.toList ∧ readUnit t (String.ofList (Text.trimBlank unit)) = .ok u := by
  refine ⟨_, _, Template.pieces_of_unbraced hspec (unbraced_of_readUnit ht hu), rfl, ?_⟩
  have hblank : Text.trimBlank (' ' :: target.toList) = Text.trimBlank target.toList := by
    rw [Text.trimBlank, Text.trimLeft, List.dropWhile_cons_of_pos (by decide)]
    rfl
  rw [hblank]
  exact readUnit_trim hu

/-- **The formatted conversion shows the converted value in the unit of the target.**  With a
specification without braces an answer is given exactly for texts that are read as a quantity and a
unit; it has their quotient, as a number and in the field, and the template names the same unit. -/
theorem convert_iff_shows (hspec : Unbraced (format.getD "").toList) :
    convert SI.table text target format = .ok a ↔
      ∃ q u m, Expression.read SI.table .decimal text = .ok q ∧ readUnit SI.table target = .ok u ∧
        Shows SI.table target (format.getD "") q u m a := by
  have ht := SI.presentable_table
  rw [convert_eq_ok_iff]
  constructor
  · rintro ⟨m, x, line, h, hx, rfl⟩
    obtain ⟨-, hm, hline⟩ := (convertText_eq_ok_iff ht).mp h
    obtain ⟨q, u, hq, hu, hquotient⟩ := converted_eq_ok_iff.mp hm
    exact ⟨q, u, m, hq, hu, hquotient, hx, rfl, hline, exists_template ht hspec hu⟩
  · rintro ⟨q, u, m, hq, hu, hshows⟩
    have hm : converted SI.table text target = .ok m :=
      converted_eq_ok_iff.mpr ⟨q, u, hq, hu, hshows.quotient⟩
    refine ⟨m, a.value, a.formatted, ?_, hshows.value, ?_⟩
    · exact (convertText_eq_ok_iff ht).mpr ⟨hspec, hm, hshows.line⟩
    · obtain ⟨value, target', formatted⟩ := a
      rw [← hshows.unit]

theorem convert_iff_shows_superscript :
    Unbraced ">8.2f".toList ∧ ∃ q u m a,
      convert SI.table "72 km/h" "  m⋅s⁻¹ " (some ">8.2f") = .ok a ∧
        Expression.read SI.table .decimal "72 km/h" = .ok q ∧
        readUnit SI.table "  m⋅s⁻¹ " = .ok u ∧
        Shows SI.table "  m⋅s⁻¹ " ">8.2f" q u m a ∧
        a.formatted = "   20.00   m⋅s⁻¹ " := by
  have hspec : Unbraced ">8.2f".toList := by decide
  have hline : convertText SI.table "72 km/h" "  m⋅s⁻¹ " ">8.2f" =
      .ok (.real 20.0, "   20.00   m⋅s⁻¹ ") := by
    decide +kernel
  have hanswer : convert SI.table "72 km/h" "  m⋅s⁻¹ " (some ">8.2f") =
      .ok ⟨20.0, "  m⋅s⁻¹ ", "   20.00   m⋅s⁻¹ "⟩ :=
    convert_eq_ok_iff.mpr ⟨_, _, _, hline, rfl, rfl⟩
  obtain ⟨q, u, m, hq, hu, hshows⟩ :=
    (@convert_iff_shows "72 km/h" "  m⋅s⁻¹ " (some ">8.2f") _ hspec).mp hanswer
  exact ⟨hspec, q, u, m, _, hanswer, hq, hu, hshows, rfl⟩

end Service

end UnitCalculus
