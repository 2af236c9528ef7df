import UnitCalculus.Proofs.Magnitude.Sign
import UnitCalculus.Template

/-! # Braces in field specifications

Braces mean nothing in the specification of a floating-point number, so that one can only be the
fill character in front (`head?_of_inField`); a specification with both braces is refused. -/

namespace UnitCalculus

/-- The character is a brace. -/
def IsBrace (c : Char) : Prop := c = openBrace ∨ c = closeBrace

instance (c : Char) : Decidable (IsBrace c) := inferInstanceAs (Decidable (_ ∨ _))

namespace FieldSpec

open UnitCalculus.Text

theorem ne_of_isBrace {c d : Char} (hc : IsBrace c) (hd : ¬IsBrace d) :
    c ≠ d := by
  rintro rfl
  exact hd hc

variable {c : Char} {cs r : List Char}

theorem mem_fillAlign (hc : IsBrace c) (h : c ∈ cs) :
    cs.head? = some c ∨ c ∈ (fillAlign cs).2.2 := by
  have halign : alignment? c = none := by rcases hc with rfl | rfl <;> rfl
  unfold fillAlign
  split
  · next f a r =>
    split
    · next al hal =>
      rcases List.mem_cons.mp h with rfl | h
      · exact .inl rfl
      · rcases List.mem_cons.mp h with rfl | h
        · rw [halign] at hal
          cases hal
        · exact .inr h
    · split
      · next al hal =>
        rcases List.mem_cons.mp h with rfl | h
        · exact .inl rfl
        · exact .inr h
      · exact .inr h
  · split
    · next f al hal =>
      rw [List.mem_singleton.mp h]
      exact .inl rfl
    · exact .inr h
  · cases h

theorem mem_signPart (hc : IsBrace c) (h : c ∈ cs) :
    c ∈ (match cs with
      | c :: r => if c == '+' || c == '-' || c == ' ' then (some c, r) else (none, cs)
      | [] => (none, cs)).2 := by
  split
  · split
    · next d r hd =>
      rcases List.mem_cons.mp h with rfl | h
      · rcases hc with rfl | rfl <;> cases hd
      · exact h
    · exact h
  · exact h

theorem mem_flag {d : Char} (hd : c ≠ d) (h : c ∈ cs) : c ∈ (flag d cs).2 := by
  unfold flag
  split
  · split
    · next e r heq =>
      rcases List.mem_cons.mp h with rfl | h
      · exact absurd (beq_iff_eq.mp heq) hd
      · exact h
    · exact h
  · cases h

theorem mem_ifFlag {d : Char} {b : Bool} (hd : c ≠ d) (h : c ∈ cs) :
    c ∈ (if b then flag d cs else (false, cs)).2 := by
  split
  · exact mem_flag hd h
  · exact h

theorem mem_number {n : Option Nat} (hc : IsBrace c) (hn : number cs = .ok (n, r)) (h : c ∈ cs) :
    c ∈ r := by
  have hdigit : isDecimalDigit c = false := by rcases hc with rfl | rfl <;> rfl
  have hrest := (mem_dropWhile_iff hdigit).mpr h
  unfold number at hn
  dsimp only at hn
  split at hn
  · cases hn
    exact hrest
  · split at hn
    · cases hn
    · cases hn
      exact hrest

theorem mem_groupingPart {g : Grouping} (hc : IsBrace c) (hg : groupingPart cs = .ok (g, r))
    (h : c ∈ cs) : c ∈ r := by
  have hcomma : c ≠ ',' := by rcases hc with rfl | rfl <;> decide
  have hunderscore : c ≠ '_' := by rcases hc with rfl | rfl <;> decide
  have hrest := mem_flag hunderscore (mem_flag hcomma h)
  unfold groupingPart at hg
  dsimp only at hg
  split at hg
  · cases hg
  · split at hg
    · cases hg
      exact hrest
    · split at hg
      · split at hg
        · cases hg
        · cases hg
          exact hrest
      · cases hg
        exact hrest

theorem mem_precisionPart {p : Option Nat} (hc : IsBrace c) (hp : precisionPart cs = .ok (p, r))
    (h : c ∈ cs) : c ∈ r := by
  unfold precisionPart at hp
  split at hp
  · next r' =>
    rcases List.mem_cons.mp h with rfl | h
    · rcases hc with hc | hc <;> cases hc
    · split at hp
      · cases hp
      · cases hp
      · next hn =>
        cases hp
        exact mem_number hc hn h
  · cases hp
    exact h

/-- A brace in a specification is the fill character, in front, or the code. -/
theorem head?_or_code_of_parse {typeName text : String} {side : Alignment}
    {standard : Option Char} {s : FieldSpec} (h : parse typeName side standard text = .ok s)
    (hc : IsBrace c) (hmem : c ∈ text.toList) :
    text.toList.head? = some c ∨ s.code = some c := by
  unfold parse at h
  dsimp only at h
  rcases mem_fillAlign hc hmem with hhead | hrest
  · exact .inl hhead
  right
  -- A brace passes through the sign, the flags, the numbers and the grouping to the code.
  generalize fillAlign text.toList = fa at h hrest
  obtain ⟨fill, align, cs⟩ := fa
  dsimp only at h hrest
  obtain ⟨⟨width, r₁⟩, hwidth, h⟩ := bind_eq_ok h
  have hwidth := mem_number hc hwidth (mem_ifFlag (ne_of_isBrace hc (by decide))
    (mem_flag (ne_of_isBrace hc (by decide)) (mem_flag (ne_of_isBrace hc (by decide))
      (mem_signPart hc hrest))))
  obtain ⟨⟨grouping, r₂⟩, hgrouping, h⟩ := bind_eq_ok h
  have hgrouping := mem_groupingPart hc hgrouping hwidth
  obtain ⟨⟨precision, r₃⟩, hprecision, h⟩ := bind_eq_ok h
  have hprecision := mem_precisionPart hc hprecision hgrouping
  dsimp only at h hprecision
  split at h
  · cases hprecision
  · next d _ =>
    rw [List.mem_singleton.mp hprecision]
    obtain ⟨code, hcode, h⟩ := bind_eq_ok h
    cases hcode
    by_cases hallowed : (!groupingAllowed grouping (some d)) = true
    · rw [if_pos hallowed] at h
      cases h
    · rw [if_neg hallowed] at h
      cases h
      rfl
  · cases h

theorem codeStyle?_brace {c : Char} (hc : IsBrace c) : codeStyle? (some c) = none := by
  rcases hc with rfl | rfl <;> rfl

/-- A floating-point number is shown only where a brace is at most the fill character. -/
theorem head?_of_formatFloat {spec s : String} {x : Float} (h : formatFloat spec x = .ok s)
    {c : Char} (hc : IsBrace c) (hmem : c ∈ spec.toList) : spec.toList.head? = some c := by
  obtain ⟨f, hparse, h⟩ := bind_eq_ok h
  refine (head?_or_code_of_parse hparse hc hmem).resolve_right fun hcode => ?_
  dsimp only at h
  rw [hcode, codeStyle?_brace hc, if_pos (by rcases hc with rfl | rfl <;> decide)] at h
  cases h

end FieldSpec

namespace Magnitude

variable {P : Float → Prop} {m : Magnitude} {spec : String}

theorem head?_of_inField (hm : m.Floating P) {s : String} (h : m.inField spec = .ok s) {c : Char}
    (hc : IsBrace c) (hmem : c ∈ spec.toList) : spec.toList.head? = some c := by
  have hspec : (spec == "") = false := by
    rw [beq_eq_false_iff_ne]
    rintro rfl
    cases hmem
  unfold inField at h
  rw [hspec] at h
  cases hm with
  | @real x _ | @unchecked x _ =>
    dsimp only at h
    cases hformat : FieldSpec.formatFloat spec x with
    | error f =>
      rw [hformat] at h
      cases h
    | ok t => exact FieldSpec.head?_of_formatFloat hformat hc hmem

/-- Only the specification can keep a floating-point number from being shown. -/
theorem field_of_inField (hm : m.Floating P) {f : DisplayFault} (h : m.inField spec = .error f) :
    ∃ g, f = .field g := by
  unfold inField at h
  split at h
  · split at h
    · cases h
    · cases h
      exact ⟨_, rfl⟩
  · cases hm with
    | @real x _ | @unchecked x _ =>
      dsimp only at h
      cases hformat : FieldSpec.formatFloat spec x with
      | error g =>
        rw [hformat] at h
        cases h
        exact ⟨g, rfl⟩
      | ok t =>
        rw [hformat] at h
        cases h

end Magnitude

end UnitCalculus
