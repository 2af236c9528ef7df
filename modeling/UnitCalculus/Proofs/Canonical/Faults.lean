import UnitCalculus.Proofs.Canonical.RoundTrip

/-! # Faults of canonical texts

The text of a quantity can fail by arithmetic only (`onlyFaults_text`): the units of a table are
compared with one to find those that it may be written by, and a number or a power with too many
digits has no text. -/

namespace UnitCalculus.Canonical

open Expression

theorem onlyFaults_isUnity (m : Magnitude) : OnlyFaults Arithmetic (isUnity m) :=
  (onlyFaults_liftNumber _).bind fun _ _ => onlyFaults_liftNumber _

theorem onlyFaults_isNotUnity (m : Magnitude) : OnlyFaults Arithmetic (isNotUnity m) :=
  (onlyFaults_liftNumber _).bind fun _ _ => onlyFaults_liftNumber _

theorem onlyFaults_baseSymbol? (q : Quantity) : OnlyFaults Arithmetic (baseSymbol? q) := by
  unfold baseSymbol?
  split
  · split
    · exact onlyFaults_ok _
    · refine (onlyFaults_isNotUnity _).bind fun b _ => ?_
      cases b <;> exact onlyFaults_ok _
  · exact onlyFaults_ok _

theorem onlyFaults_baseUnits (t : UnitTable) : OnlyFaults Arithmetic (baseUnits t) := by
  refine OnlyFaults.foldlM (fun c u => ?_) _ _
  refine (onlyFaults_baseSymbol? u.2).bind fun o _ => ?_
  cases o <;> exact onlyFaults_ok _

theorem onlyFaults_named? (d : Dimension) (us : List (String × Quantity)) :
    OnlyFaults Arithmetic (named? d us) := by
  induction us with
  | nil => exact onlyFaults_ok _
  | cons u us ih =>
    refine (onlyFaults_isUnity _).bind fun b _ => ?_
    split
    · exact onlyFaults_ok _
    · exact ih

theorem onlyFaults_unitText (t : UnitTable) (d : Dimension) :
    OnlyFaults Arithmetic (unitText t d) := by
  refine (onlyFaults_baseUnits t).bind fun bases _ => ?_
  cases isWritable d with
  | true => exact onlyFaults_ok _
  | false => exact onlyFaults_error ⟨_, rfl⟩

/-- The text of a quantity fails by arithmetic only, digits that cannot be written included. -/
theorem onlyFaults_text (t : UnitTable) (preferNamed : Bool) (q : Quantity) :
    OnlyFaults Arithmetic (text t preferNamed q) := by
  cases hnumber : q.magnitude.isWritable with
  | false =>
    rw [text, hnumber]
    exact onlyFaults_error ⟨_, rfl⟩
  | true =>
    cases hbare : q.isBare with
    | true =>
      rw [text_of_isBare hnumber hbare]
      exact onlyFaults_ok _
    | false =>
      rw [text_eq hnumber hbare]
      have hpreferred : OnlyFaults Arithmetic (preferred? t preferNamed q.dimension) := by
        cases preferNamed with
        | false => exact onlyFaults_ok _
        | true => exact onlyFaults_named? _ _
      refine hpreferred.bind fun o _ => ?_
      cases o with
      | some symbol => exact onlyFaults_ok _
      | none => exact (onlyFaults_unitText t _).bind fun _ _ => onlyFaults_ok _

end UnitCalculus.Canonical
