import Mathlib
import UnitCalculus.Decimal.Literal
import UnitCalculus.Proofs.Decimal.LongestPrefix
import UnitCalculus.Proofs.Decimal.Reading

/-! # The forms of numbers

The decimals and the integers that a text may start with, as languages (`decimalForm`,
`integerForm`), and the readers as takers of their longest prefixes: of digits, of groups of digits
with underscores between them, of signs, of powers of ten and of numbers without signs.  None goes
back, so that each part must not start with what a shorter prefix of the part before it leaves. -/

namespace UnitCalculus.Decimal

open UnitCalculus.Text
open scoped Computability

variable {cs rest : List Char} {c : Char}

/-! ### The forms of numbers -/

/-- A sign. -/
def isSign (c : Char) : Bool := c == '+' || c == '-'

/-- The mark in front of a power of ten. -/
def isMark (c : Char) : Bool := c == 'e' || c == 'E'

/-- `digit+` -/
def digitsForm : Language Char := char isDecimalDigit * (char isDecimalDigit)∗

/-- `digits ("_" digits)*` -/
def groupsForm : Language Char := digitsForm * (char (· == '_') * digitsForm)∗

/-- `sign?` -/
def signForm : Language Char := 1 + char isSign

/-- `groups ("." groups?)? | "." groups` -/
def unsignedForm : Language Char :=
  groupsForm * (1 + char (· == '.') * (1 + groupsForm)) + char (· == '.') * groupsForm

/-- `mark sign? digits` -/
def exponentForm : Language Char := char isMark * (signForm * digitsForm)

/-- `blank* sign? unsigned exponent?` -/
def decimalForm : Language Char :=
  (char isBlank)∗ * (signForm * (unsignedForm * (1 + exponentForm)))

/-- `blank* sign? groups` -/
def integerForm : Language Char := (char isBlank)∗ * (signForm * groupsForm)

/-! ### The characters of numbers -/

/-- A digit is an ASCII digit, or far behind them and no blank. -/
theorem isDecimalDigit_bounds (h : isDecimalDigit c = true) :
    48 ≤ c.toNat ∧ c.toNat ≤ 57 ∨ 0x660 ≤ c.toNat ∧ isBlank c = false := by
  unfold isDecimalDigit digitValue? at h
  split at h
  · next hdigit =>
    left
    simpa [Char.isDigit, UInt32.le_iff_toNat_le] using hdigit
  · split at h
    · cases h
    · next hascii =>
      right
      have hzeros : ∀ z ∈ digitZeros, (z + 10 ≤ 0x80 ∨ 0x660 ≤ z) ∧
          (z + 10 ≤ 0x1680 ∨ 0x1680 < z) ∧ (z + 10 ≤ 0x2000 ∨ 0x205f < z) ∧
          (z + 10 ≤ 0x3000 ∨ 0x3000 < z) := by
        decide +kernel
      rw [Option.isSome_map] at h
      obtain ⟨z, hz⟩ := Option.isSome_iff_exists.mp h
      have hbounds := List.find?_some hz
      have hzero := hzeros z (List.mem_of_find?_eq_some hz)
      simp only [Bool.and_eq_true, decide_eq_true_eq] at hbounds
      refine ⟨by omega, ?_⟩
      simp [isBlank]
      omega

theorem isBlank_of_isDecimalDigit (h : isDecimalDigit c = true) : isBlank c = false := by
  rcases isDecimalDigit_bounds h with hascii | ⟨-, hblank⟩
  · simp [isBlank]
    omega
  · exact hblank

theorem not_underscore_of_isDecimalDigit (h : isDecimalDigit c = true) : (c == '_') = false := by
  rw [beq_eq_false_iff_ne]
  rintro rfl
  exact absurd h (by decide)

/-- The characters of groups of digits. -/
def isGroupChar (c : Char) : Bool := isDecimalDigit c || c == '_'

/-- The characters of numbers without signs and powers of ten. -/
def isUnsignedChar (c : Char) : Bool := isGroupChar c || c == '.'

theorem isGroupChar_of_isDecimalDigit (h : isDecimalDigit c = true) : isGroupChar c = true :=
  Bool.or_eq_true_iff.mpr (.inl h)

theorem subset_unsigned : charsOf isGroupChar ⊆ charsOf isUnsignedChar := fun _ hc =>
  Bool.or_eq_true_iff.mpr (.inl hc)

/-! No two parts of a number that may stand side by side share a character. -/

theorem disjoint_digit_point : Disjoint (charsOf isDecimalDigit) (charsOf (· == '.')) :=
  disjoint_literal (by decide)

theorem disjoint_group_point : Disjoint (charsOf isGroupChar) (charsOf (· == '.')) :=
  disjoint_literal (by decide)

theorem disjoint_digit_sign : Disjoint (charsOf isDecimalDigit) (charsOf isSign) :=
  disjoint_pair (by decide) (by decide)

theorem disjoint_group_sign : Disjoint (charsOf isGroupChar) (charsOf isSign) :=
  disjoint_pair (by decide) (by decide)

theorem disjoint_unsigned_sign : Disjoint (charsOf isUnsignedChar) (charsOf isSign) :=
  disjoint_pair (by decide) (by decide)

theorem disjoint_unsigned_mark : Disjoint (charsOf isUnsignedChar) (charsOf isMark) :=
  disjoint_pair (by decide) (by decide)

theorem disjoint_mark_sign : Disjoint (charsOf isMark) (charsOf isSign) :=
  disjoint_pair (by decide) (by decide)

theorem disjoint_sign_start :
    Disjoint (charsOf isSign) (charsOf isDecimalDigit ∪ charsOf (· == '.')) :=
  Set.disjoint_union_right.mpr ⟨disjoint_digit_sign.symm, disjoint_literal (by decide)⟩

theorem disjoint_blank_digit : Disjoint (charsOf isBlank) (charsOf isDecimalDigit) :=
  Set.disjoint_right.mpr fun _ hdigit hblank =>
    Bool.false_ne_true ((isBlank_of_isDecimalDigit hdigit).symm.trans hblank)

theorem disjoint_blank_signed :
    Disjoint (charsOf isBlank) (charsOf isSign ∪ (charsOf isDecimalDigit ∪ charsOf (· == '.'))) :=
  Set.disjoint_union_right.mpr ⟨disjoint_pair (by decide) (by decide),
    Set.disjoint_union_right.mpr ⟨disjoint_blank_digit, disjoint_literal (by decide)⟩⟩

/-! ### Digits -/

theorem isDecimalDigit_of_some {d : ℕ} (h : digitValue? c = some d) : isDecimalDigit c = true := by
  rw [isDecimalDigit, h]
  rfl

theorem isDecimalDigit_of_none (h : digitValue? c = none) : isDecimalDigit c = false := by
  rw [isDecimalDigit, h]
  rfl

theorem starts_digitsForm : Starts digitsForm (charsOf isDecimalDigit) := (starts_char _).mul _

theorem plainDigits_snd (cs : List Char) : (plainDigits cs).2 = cs.dropWhile isDecimalDigit := by
  induction cs with
  | nil => rfl
  | cons c cs ih =>
    rw [plainDigits, List.dropWhile_cons, isDecimalDigit]
    cases digitValue? c with
    | none => rfl
    | some d => exact ih

/-- Digits are read to their end. -/
theorem longest_digitsForm (h : Heads (charsOf isDecimalDigit) cs) :
    Longest digitsForm (charsOf isDecimalDigit) cs (plainDigits cs).2 := by
  obtain ⟨c, r, rfl, hc⟩ := h
  rw [plainDigits_snd, List.dropWhile_cons_of_pos hc]
  exact ((longest_char hc r).mul (longest_kstar_char _ r) (idle_empty _)).mono (by simp)

theorem plainDigits_ne_nil (h : Heads (charsOf isDecimalDigit) cs) : (plainDigits cs).1 ≠ [] := by
  obtain ⟨c, r, rfl, hc⟩ := h
  obtain ⟨d, hd⟩ := Option.isSome_iff_exists.mp hc
  simp [plainDigits, hd]

theorem plainDigits_of_not_heads (h : ¬ Heads (charsOf isDecimalDigit) cs) :
    plainDigits cs = ([], cs) := by
  unfold plainDigits
  split
  · rfl
  · next c r =>
    split
    · next d hd => exact absurd ⟨c, r, rfl, isDecimalDigit_of_some hd⟩ h
    · rfl

/-- What may follow a digit in a group of digits. -/
def moreForm : Language Char := (char isDecimalDigit)∗ * (char (· == '_') * digitsForm)∗

/-- One more digit of a group, maybe after an underscore. -/
def stepForm : Language Char :=
  char isDecimalDigit + char (· == '_') * char isDecimalDigit

theorem groupsForm_eq : groupsForm = char isDecimalDigit * moreForm := mul_assoc _ _ _

theorem moreForm_eq : moreForm = 1 + stepForm * moreForm := by
  have hdigits : (char isDecimalDigit)∗ = 1 + digitsForm :=
    (Language.one_add_self_mul_kstar_eq_kstar _).symm
  have hgroups : (char (· == '_') * digitsForm)∗ =
      1 + char (· == '_') * digitsForm * (char (· == '_') * digitsForm)∗ :=
    (Language.one_add_self_mul_kstar_eq_kstar _).symm
  calc moreForm
    _ = (char (· == '_') * digitsForm)∗ + digitsForm * (char (· == '_') * digitsForm)∗ := by
      rw [moreForm, hdigits, add_mul, one_mul]
    _ = 1 + char (· == '_') * (digitsForm * (char (· == '_') * digitsForm)∗) +
        digitsForm * (char (· == '_') * digitsForm)∗ := by
      rw [← mul_assoc, ← hgroups]
    _ = 1 + stepForm * moreForm := by
      rw [stepForm, add_mul, mul_assoc, ← groupsForm_eq, groupsForm, add_assoc,
        add_comm (char (· == '_') * _)]

theorem longest_more_of_step {s : List Char} (hstep : Longest stepForm ∅ (c :: cs) s)
    (hc : isGroupChar c = true) (hs : Longest moreForm (charsOf isGroupChar) s rest) :
    Longest moreForm (charsOf isGroupChar) (c :: cs) rest := by
  rw [moreForm_eq]
  exact ((hstep.mul hs (idle_empty _)).mono (by simp)).opt ⟨c, cs, rfl, hc⟩

theorem longest_more_of_fails (h : Fails stepForm cs) :
    Longest moreForm (charsOf isGroupChar) cs cs := by
  rw [moreForm_eq]
  exact (h.mul _).opt _

theorem longest_stepForm_digit (hc : isDecimalDigit c = true) (cs : List Char) :
    Longest stepForm ∅ (c :: cs) cs :=
  (longest_char hc cs).add_fails
    (((starts_char (· == '_')).mul _).fails_cons (not_underscore_of_isDecimalDigit hc) cs)

theorem longest_stepForm_underscore {e : Char} (he : isDecimalDigit e = true) (cs : List Char) :
    Longest stepForm ∅ ('_' :: e :: cs) cs := by
  have hfails : Fails (char isDecimalDigit) ('_' :: e :: cs) :=
    (starts_char _).fails_cons (by decide) _
  have hpair : Longest (char (· == '_') * char isDecimalDigit) (∅ ∪ ∅) ('_' :: e :: cs) cs :=
    (longest_literal '_' (e :: cs)).mul (longest_char he cs) (idle_empty _)
  exact hfails.add_longest (hpair.mono (by simp))

theorem fails_stepForm (hc : isDecimalDigit c = false)
    (hcs : c = '_' → Fails (char isDecimalDigit) cs) : Fails stepForm (c :: cs) := by
  refine Fails.add ((starts_char _).fails_cons hc cs) fun r hr => ?_
  obtain ⟨s, hs, hr⟩ := leaves_mul_iff.mp hr
  obtain ⟨d, hd, heq⟩ := leaves_char_iff.mp hs
  cases heq
  exact hcs (beq_iff_eq.mp hd) r hr

theorem longest_moreForm (cs : List Char) :
    Longest moreForm (charsOf isGroupChar) cs (moreDigits cs).2 := by
  have hnil : Longest moreForm (charsOf isGroupChar) [] [] :=
    longest_more_of_fails ((starts_char _).fails_nil.add ((starts_char _).mul _).fails_nil)
  -- A branch of the reader takes one more digit, or no digit can be taken.
  fun_induction moreDigits cs with
  | case1 => exact hnil
  | case2 c d hc =>
    have hdigit := isDecimalDigit_of_some hc
    exact longest_more_of_step (longest_stepForm_digit hdigit [])
      (isGroupChar_of_isDecimalDigit hdigit) hnil
  | case3 c hc =>
    exact longest_more_of_fails
      (fails_stepForm (isDecimalDigit_of_none hc) fun _ => (starts_char _).fails_nil)
  | case4 c e r d hc p ih =>
    have hdigit := isDecimalDigit_of_some hc
    exact longest_more_of_step (longest_stepForm_digit hdigit _)
      (isGroupChar_of_isDecimalDigit hdigit) ih
  | case5 c e r hc hunderscore d he p ih =>
    obtain rfl := beq_iff_eq.mp hunderscore
    exact longest_more_of_step (longest_stepForm_underscore (isDecimalDigit_of_some he) r) rfl ih
  | case6 c e r hc hunderscore he =>
    exact longest_more_of_fails (fails_stepForm (isDecimalDigit_of_none hc) fun _ =>
      (starts_char _).fails_cons (isDecimalDigit_of_none he) r)
  | case7 c e r hc hunderscore =>
    exact longest_more_of_fails (fails_stepForm (isDecimalDigit_of_none hc) fun heq =>
      absurd (beq_iff_eq.mpr heq) hunderscore)

theorem starts_groupsForm : Starts groupsForm (charsOf isDecimalDigit) := starts_digitsForm.mul _

/-- A group of digits is read to its end. -/
theorem longest_groupsForm (h : Heads (charsOf isDecimalDigit) cs) :
    Longest groupsForm (charsOf isGroupChar) cs (groupedDigits cs).2 := by
  obtain ⟨c, r, rfl, hc⟩ := h
  obtain ⟨d, hd⟩ := Option.isSome_iff_exists.mp hc
  rw [groupsForm_eq, groupedDigits, hd]
  exact ((longest_char hc r).mul (longest_moreForm r) (idle_empty _)).mono (by simp)

theorem groupedDigits_ne_nil (h : Heads (charsOf isDecimalDigit) cs) :
    (groupedDigits cs).1 ≠ [] := by
  obtain ⟨c, r, rfl, hc⟩ := h
  obtain ⟨d, hd⟩ := Option.isSome_iff_exists.mp hc
  simp [groupedDigits, hd]

theorem groupedDigits_of_not_heads (h : ¬ Heads (charsOf isDecimalDigit) cs) :
    groupedDigits cs = ([], cs) := by
  unfold groupedDigits
  split
  · rfl
  · next c r =>
    split
    · next d hd => exact absurd ⟨c, r, rfl, isDecimalDigit_of_some hd⟩ h
    · rfl

theorem longest_opt_groupsForm (cs : List Char) :
    Longest (1 + groupsForm) (charsOf isGroupChar) cs (groupedDigits cs).2 := by
  by_cases h : Heads (charsOf isDecimalDigit) cs
  · exact (longest_groupsForm h).opt (h.mono fun _ => isGroupChar_of_isDecimalDigit)
  · rw [groupedDigits_of_not_heads h]
    exact (starts_groupsForm.fails h).opt _

/-! ### Signs and powers of ten -/

theorem longest_signForm (cs : List Char) :
    Longest signForm (charsOf isSign) cs (leadingSign cs).2 := by
  unfold leadingSign signForm
  split
  · next r => exact ((longest_char rfl r).mono (Set.empty_subset _)).opt ⟨_, _, rfl, rfl⟩
  · next r => exact ((longest_char rfl r).mono (Set.empty_subset _)).opt ⟨_, _, rfl, rfl⟩
  · next hplus hminus =>
    refine ((starts_char _).fails ?_).opt _
    rintro ⟨c, r, rfl, hc⟩
    have hsign : c = '+' ∨ c = '-' := by simpa [isSign] using show isSign c = true from hc
    rcases hsign with rfl | rfl
    · exact hplus r rfl
    · exact hminus r rfl

theorem starts_exponentForm : Starts exponentForm (charsOf isMark) := (starts_char _).mul _

/-- A power of ten is read to its end, or not at all. -/
theorem longest_exponentForm (cs : List Char) :
    Longest (1 + exponentForm) Set.univ cs (leadingExponentPart plainDigits cs).2 := by
  have hstarts : Starts (signForm * digitsForm) _ := (starts_char _).opt_mul starts_digitsForm
  unfold leadingExponentPart
  split
  · exact starts_exponentForm.fails_nil.opt _
  · next m r =>
    split
    · next hm =>
      have hmark : Longest (char isMark) ∅ (m :: r) r := longest_char hm r
      have hsign := longest_signForm r
      dsimp only
      generalize (leadingSign r).2 = s at hsign ⊢
      by_cases hs : Heads (charsOf isDecimalDigit) s
      · have hdigits := plainDigits_ne_nil hs
        have hpower := hsign.mul (longest_digitsForm hs)
          (starts_digitsForm.idle disjoint_digit_sign.symm)
        have hlongest := (hmark.mul hpower (idle_empty _)).mono (Set.subset_univ _)
        generalize plainDigits s = p at hdigits hlongest
        obtain ⟨ds, left⟩ := p
        cases ds with
        | nil => exact absurd rfl hdigits
        | cons d ds => exact hlongest.opt ⟨m, r, rfl, trivial⟩
      · -- A mark stays in the text, with its sign, if no digit follows.
        rw [plainDigits_of_not_heads hs]
        have hpower := hsign.fails_mul (starts_digitsForm.fails hs) starts_digitsForm
          disjoint_digit_sign.symm
        exact (hmark.fails_mul hpower hstarts (Set.empty_disjoint _)).opt _
    · next hm => exact (starts_exponentForm.fails_cons (Bool.not_eq_true _ ▸ hm) r).opt _

/-! ### Unsigned numbers -/

/-- The text starts with a digit, or with a point and a digit. -/
def StartsNumber (cs : List Char) : Prop :=
  Heads (charsOf isDecimalDigit) cs ∨ ∃ r, cs = '.' :: r ∧ Heads (charsOf isDecimalDigit) r

theorem StartsNumber.heads (h : StartsNumber cs) :
    Heads (charsOf isDecimalDigit ∪ charsOf (· == '.')) cs := by
  rcases h with hdigit | ⟨r, rfl, -⟩
  · exact hdigit.mono Set.subset_union_left
  · exact ⟨'.', r, rfl, .inr rfl⟩

/-- What a number without sign leaves in front of its power of ten. -/
def unsignedRest (cs : List Char) : List Char :=
  match groupedDigits cs with
  | (_, '.' :: r) => (groupedDigits r).2
  | (_, left) => left

theorem starts_fractionForm : Starts (char (· == '.') * (1 + groupsForm)) (charsOf (· == '.')) :=
  (starts_char _).mul _

theorem longest_unsignedForm (h : StartsNumber cs) :
    Longest unsignedForm (charsOf isUnsignedChar) cs (unsignedRest cs) := by
  unfold unsignedRest
  rcases h with hdigit | ⟨r, rfl, hr⟩
  · -- A number that starts with a digit may have a fraction, which may be empty.
    have hgroups := longest_groupsForm hdigit
    have hpoint : Fails (char (· == '.') * groupsForm) cs :=
      ((starts_char _).mul _).fails (hdigit.not disjoint_digit_point)
    have hidle : Idle (1 + char (· == '.') * (1 + groupsForm)) (charsOf isGroupChar) :=
      starts_fractionForm.idle_opt disjoint_group_point
    generalize groupedDigits cs = p at hgroups
    obtain ⟨ds, left⟩ := p
    dsimp only at hgroups ⊢
    split
    · next r heq =>
      cases heq
      have hfraction := ((longest_literal '.' r).mul (longest_opt_groupsForm r)
        (idle_empty _)).mono (D := charsOf isUnsignedChar) (by simpa using subset_unsigned)
      have hwhole := hgroups.mul (hfraction.opt ⟨'.', r, rfl, rfl⟩) hidle
      exact (hwhole.mono (by simpa using subset_unsigned)).add_fails hpoint
    · next hleft heq =>
      cases heq
      have hfraction : Fails (char (· == '.') * (1 + groupsForm)) left := by
        refine starts_fractionForm.fails ?_
        rintro ⟨c, r, rfl, hc⟩
        exact hleft r (by rw [beq_iff_eq.mp hc])
      have hwhole := hgroups.mul (hfraction.opt ∅) hidle
      exact (hwhole.mono (by simpa using subset_unsigned)).add_fails hpoint
  · have hpoint : groupedDigits ('.' :: r) = ([], '.' :: r) := rfl
    rw [hpoint]
    have hwhole : Fails groupsForm ('.' :: r) := starts_groupsForm.fails_cons (by decide) r
    have hfraction := (longest_literal '.' r).mul (longest_groupsForm hr) (idle_empty _)
    exact (hwhole.mul _).add_longest (hfraction.mono (by simpa using subset_unsigned))

theorem fails_unsignedForm (h : ¬ StartsNumber cs) : Fails unsignedForm cs := by
  rw [StartsNumber, not_or] at h
  refine ((starts_groupsForm.fails h.1).mul _).add fun rest hrest => ?_
  obtain ⟨r, hr, hrest⟩ := leaves_mul_iff.mp hrest
  obtain ⟨c, hc, heq⟩ := leaves_char_iff.mp hr
  rw [beq_iff_eq.mp hc] at heq
  exact starts_groupsForm.fails (fun hdigit => h.2 ⟨r, heq, hdigit⟩) rest hrest

/-! ### Numbers after blanks and a sign -/

theorem starts_unsignedForm :
    Starts unsignedForm (charsOf isDecimalDigit ∪ charsOf (· == '.')) :=
  (starts_groupsForm.mul _).add ((starts_char _).mul _)

section signed

variable {M : Language Char}

/-- The text after its blanks and its sign. -/
def unsignedPart (cs : List Char) : List Char := (leadingSign (trimLeft cs)).2

variable (hM : Starts M (charsOf isDecimalDigit ∪ charsOf (· == '.')))
include hM

/-- Blanks and a sign are read to their end. -/
theorem longest_signed (h : Longest M Set.univ (unsignedPart cs) rest) :
    Longest ((char isBlank)∗ * (signForm * M)) Set.univ cs rest := by
  have hsigned := (longest_signForm (trimLeft cs)).mul h (hM.idle disjoint_sign_start)
  have hstarts : Starts (signForm * M) _ := (starts_char _).opt_mul hM
  exact ((longest_kstar_char isBlank cs).mul hsigned (hstarts.idle disjoint_blank_signed)).mono
    (Set.subset_univ _)

theorem fails_signed (h : Fails M (unsignedPart cs)) :
    Fails ((char isBlank)∗ * (signForm * M)) cs := by
  have hsigned := (longest_signForm (trimLeft cs)).fails_mul h hM disjoint_sign_start
  have hstarts : Starts (signForm * M) _ := (starts_char _).opt_mul hM
  exact (longest_kstar_char isBlank cs).fails_mul hsigned hstarts disjoint_blank_signed

end signed

theorem longest_decimalForm (h : StartsNumber (unsignedPart cs)) :
    Longest decimalForm Set.univ cs
      (leadingExponentPart plainDigits (unsignedRest (unsignedPart cs))).2 := by
  refine longest_signed (starts_unsignedForm.mul _) ?_
  exact ((longest_unsignedForm h).mul (longest_exponentForm _)
    (starts_exponentForm.idle_opt disjoint_unsigned_mark)).mono (Set.subset_univ _)

theorem fails_decimalForm (h : ¬ StartsNumber (unsignedPart cs)) : Fails decimalForm cs :=
  fails_signed (starts_unsignedForm.mul _) ((fails_unsignedForm h).mul _)

theorem longest_integerForm (h : Heads (charsOf isDecimalDigit) (unsignedPart cs)) :
    Longest integerForm Set.univ cs (groupedDigits (unsignedPart cs)).2 :=
  longest_signed (fun w hw => (starts_groupsForm w hw).mono Set.subset_union_left)
    ((longest_groupsForm h).mono (Set.subset_univ _))

theorem fails_integerForm (h : ¬ Heads (charsOf isDecimalDigit) (unsignedPart cs)) :
    Fails integerForm cs :=
  fails_signed (fun w hw => (starts_groupsForm w hw).mono Set.subset_union_left)
    (starts_groupsForm.fails h)

end UnitCalculus.Decimal
