import UnitCalculus.Proofs.Outcome
import UnitCalculus.Quantity

/-! # What arithmetic gives

Whatever an operation on magnitudes is applied to, its result is a number or a vector of numbers: no
text, no truth value and not the absent value (`yields_compute`, `yields_pow`, `yields_neg`).
Products, quotients and powers of single numbers are single numbers again (`yields_mul_number`,
`yields_div_number`, `yields_pow_number`).

Both come from what an operation gives for two aligned magnitudes (`Aligned.Gives`). -/

namespace UnitCalculus.Magnitude

/-- The magnitude is a number or a vector of numbers. -/
abbrev Scalar (m : Magnitude) : Prop := m.isScalar = true

/-- The magnitude is a single number, a truth value being one. -/
abbrev Number (m : Magnitude) : Prop := m.numeric.isNumber = true

/-! ### Two aligned magnitudes -/

/-- The two aligned magnitudes are single numbers. -/
def Aligned.Single : Aligned → Prop
  | .vectors _ _ => False
  | _ => True

/-- The result is a number or a vector, and for single numbers a single number. -/
structure Aligned.Gives (a : Aligned) (m : Magnitude) : Prop where
  scalar : m.Scalar
  number : a.Single → m.Number

theorem gives_apply (o : Operation) (a : Aligned) : a.Gives (o.apply a) := by
  cases a with
  | vectors xs ys => exact ⟨rfl, False.elim⟩
  | _ => exact ⟨rfl, fun _ => rfl⟩

theorem yields_quotient (a : Aligned) : Yields a.Gives a.quotient := by
  fun_cases Aligned.quotient a
  all_goals first
    | exact yields_error _
    | exact yields_ok ⟨rfl, fun _ => rfl⟩
    | exact yields_ok ⟨rfl, False.elim⟩

theorem yields_remainder (a : Aligned) : Yields Scalar a.remainder := by
  fun_cases Aligned.remainder a
  all_goals first | exact yields_ok rfl | exact yields_error _

theorem yields_checkedPow (a : Aligned) (x y : Float) : Yields a.Gives (checkedPow x y) := by
  unfold checkedPow
  split
  · exact yields_error _
  · split
    · exact (yields_any _).map fun z _ => ⟨rfl, fun _ => rfl⟩
    · dsimp only
      split
      · exact yields_error _
      · exact yields_ok ⟨rfl, fun _ => rfl⟩

theorem yields_power (a : Aligned) : Yields a.Gives a.power := by
  unfold Aligned.power
  split
  · split
    · exact yields_ok ⟨rfl, fun _ => rfl⟩
    · exact (yields_any _).bind fun x _ => (yields_any _).bind fun y _ => yields_checkedPow _ x y
  · split
    · exact (yields_any _).map fun r _ => ⟨rfl, fun _ => rfl⟩
    · exact (yields_any _).bind fun x _ => (yields_any _).bind fun y _ => yields_checkedPow _ x y
  · exact yields_checkedPow _ _ _
  · exact yields_ok ⟨rfl, fun _ => rfl⟩
  · exact (yields_any _).map fun w _ => ⟨rfl, fun _ => rfl⟩
  · exact (yields_any _).map fun z _ => ⟨rfl, fun _ => rfl⟩
  · exact yields_ok ⟨rfl, fun _ => rfl⟩
  · exact yields_ok ⟨rfl, False.elim⟩

theorem yields_integerRatioPow (m : Int) (q : Rat) :
    Yields (Aligned.ratios m q).Gives (integerRatioPow m q) := by
  unfold integerRatioPow
  split
  · exact yields_ok ⟨rfl, fun _ => rfl⟩
  · exact yields_power _

/-! ### Any magnitudes -/

theorem yields_div (a b : Magnitude) : Yields Scalar (a.div b) :=
  (yields_any _).bind fun x _ => (yields_quotient x).imp fun _ h => h.scalar

theorem yields_mod (a b : Magnitude) : Yields Scalar (a.mod b) := by
  unfold Magnitude.mod
  split
  · exact yields_error _
  · exact yields_error _
  · exact (yields_any _).bind fun x _ => yields_remainder x

theorem yields_compute (o : Operator) (a b : Magnitude) : Yields Scalar (o.compute a b) := by
  cases o with
  | add => exact (yields_any _).map fun x _ => (gives_apply addition x).scalar
  | sub => exact (yields_any _).map fun x _ => (gives_apply subtraction x).scalar
  | mul => exact (yields_any _).map fun x _ => (gives_apply multiplication x).scalar
  | div => exact yields_div a b
  | mod => exact yields_mod a b

theorem yields_vectorPow (xs ys : List Float) : Yields Scalar (vectorPow xs ys) := by
  unfold vectorPow
  split
  · split
    · exact yields_ok rfl
    · exact yields_ok rfl
  · exact (yields_any _).bind fun p _ => yields_ok rfl

theorem yields_pow (a b : Magnitude) : Yields Scalar (a.pow b) := by
  unfold Magnitude.pow
  split
  · exact (yields_integerRatioPow _ _).imp fun _ h => h.scalar
  · exact (yields_integerRatioPow _ _).imp fun _ h => h.scalar
  · exact yields_ok rfl
  · exact yields_ok rfl
  · exact yields_vectorPow _ _
  · exact (yields_any _).bind fun y _ => yields_ok rfl
  · exact (yields_any _).bind fun x _ => (yields_power x).imp fun _ h => h.scalar

theorem numeric_numeric (m : Magnitude) : m.numeric.numeric = m.numeric := by
  cases m <;> rfl

theorem numeric_ne_truth (m : Magnitude) (b : Bool) : m.numeric ≠ truth b := by
  intro h
  cases m <;> cases h

theorem yields_neg (m : Magnitude) : Yields Scalar m.neg := by
  fun_cases Magnitude.neg m
  all_goals first | exact yields_ok rfl | exact yields_error _

theorem yields_pos (m : Magnitude) : Yields Scalar m.pos := by
  unfold Magnitude.pos
  split
  · exact yields_error _
  · exact yields_error _
  · exact yields_error _
  · next hmask htext habsent =>
    refine yields_ok ?_
    cases h : m.numeric with
    | truth b => exact absurd h (numeric_ne_truth m b)
    | text s => exact absurd h (htext s)
    | absent => exact absurd h habsent
    | _ => rfl

theorem yields_abs (m : Magnitude) : Yields Scalar m.abs := by
  fun_cases Magnitude.abs m
  all_goals first | exact yields_ok rfl | exact yields_error _

/-! ### Single numbers -/

theorem yields_align {a b : Magnitude} (ha : a.Number) (hb : b.Number) :
    Yields Aligned.Single (align a b) := by
  unfold Number at ha hb
  unfold align
  generalize a.numeric = m at ha
  generalize b.numeric = n at hb
  cases m with
  | vector xs | mask bs | truth b | text s | absent => cases ha
  | _ =>
    cases n with
    | vector xs | mask bs | truth b | text s | absent => cases hb
    | _ => first | exact yields_ok trivial | exact (yields_any _).map fun _ _ => trivial

theorem yields_mul_number {a b : Magnitude} (ha : a.Number) (hb : b.Number) :
    Yields Number (a.mul b) :=
  (yields_align ha hb).map fun x hx => (gives_apply multiplication x).number hx

theorem yields_div_number {a b : Magnitude} (ha : a.Number) (hb : b.Number) :
    Yields Number (a.div b) :=
  (yields_align ha hb).bind fun x hx => (yields_quotient x).imp fun _ h => h.number hx

theorem yields_pow_number {a b : Magnitude} (ha : a.Number) (hb : b.Number) :
    Yields Number (a.pow b) := by
  unfold Magnitude.pow
  split
  · exact (yields_integerRatioPow _ _).imp fun _ h => h.number trivial
  · exact (yields_integerRatioPow _ _).imp fun _ h => h.number trivial
  · exact yields_ok rfl
  · exact yields_ok rfl
  · next hvector _ =>
    rw [Number, hvector] at ha
    cases ha
  · next hvector _ =>
    rw [Number, hvector] at ha
    cases ha
  · have ha' : a.numeric.Number := by rwa [Number, numeric_numeric]
    have hb' : b.numeric.Number := by rwa [Number, numeric_numeric]
    exact (yields_align ha' hb').bind fun x hx => (yields_power x).imp fun _ h => h.number hx

end UnitCalculus.Magnitude
