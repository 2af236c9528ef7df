import UnitCalculus.Expression.Number
import UnitCalculus.Proofs.Decimal.NumberForms

/-! # The number that a text starts with

The number in front of a text is the longest decimal or integer that the text starts with, and its
value is that of its own text without the underscores (`read_longest`).  What is read as one number
in front of a text is read as the same number on its own: the digits, the sign, the point and the
power of ten are followed one after the other through the underscores (`exists_decimal`,
`exists_integer`).

Blanks may stand in front of a number, but only padding is trimmed off a text before it is read as a
number: after an information separator there is a number in front of the text, and no value. -/

namespace UnitCalculus.Decimal

open UnitCalculus.Text NumberReader

variable {cs rest : List Char} {c : Char}

/-! ### The parts of a number -/

/-- The digits on either side of the point. -/
def unsignedParts (cs : List Char) : List ℕ × List ℕ :=
  match groupedDigits cs with
  | (whole, '.' :: r) => (whole, (groupedDigits r).1)
  | (whole, _) => (whole, [])

theorem unsigned_point {whole : List ℕ} {r : List Char}
    (h : groupedDigits cs = (whole, '.' :: r)) :
    unsignedParts cs = (whole, (groupedDigits r).1) ∧ unsignedRest cs = (groupedDigits r).2 := by
  unfold unsignedParts unsignedRest
  rw [h]
  exact ⟨rfl, rfl⟩

theorem unsigned_whole {whole : List ℕ} {left : List Char} (h : groupedDigits cs = (whole, left))
    (hpoint : left.head? ≠ some '.') : unsignedParts cs = (whole, []) ∧ unsignedRest cs = left := by
  unfold unsignedParts unsignedRest
  rw [h]
  cases left with
  | nil => exact ⟨rfl, rfl⟩
  | cons c left =>
    have hc : c ≠ '.' := by simpa using hpoint
    simp [hc]

theorem leadingUnsigned_eq (digits : List Char → List ℕ × List Char) (negative : Bool)
    (cs : List Char) :
    leadingUnsigned digits negative cs =
      if unsignedParts cs = ([], []) then none
      else
        let (exponent, rest) := leadingExponentPart digits (unsignedRest cs)
        some (⟨negative, (unsignedParts cs).1, (unsignedParts cs).2, exponent⟩, rest) := by
  rcases h : groupedDigits cs with ⟨whole, left⟩
  by_cases hpoint : left.head? = some '.'
  · obtain ⟨r, rfl⟩ := List.head?_eq_some_iff.mp hpoint
    obtain ⟨hparts, hrest⟩ := unsigned_point h
    rw [leadingUnsigned_point _ _ h, hparts, hrest]
    simp
  · obtain ⟨hparts, hrest⟩ := unsigned_whole h hpoint
    rw [leadingUnsigned_whole _ _ h hpoint, hparts, hrest]
    simp

/-- There are digits exactly if the text starts with one, or with a point and one. -/
theorem unsignedParts_eq_nil_iff : unsignedParts cs = ([], []) ↔ ¬ StartsNumber cs := by
  unfold StartsNumber
  by_cases hdigit : Heads (charsOf isDecimalDigit) cs
  · have hwhole := groupedDigits_ne_nil hdigit
    refine iff_of_false (fun hparts => hwhole ?_) (not_not.mpr (.inl hdigit))
    rcases h : groupedDigits cs with ⟨whole, left⟩
    by_cases hpoint : left.head? = some '.'
    · obtain ⟨r, rfl⟩ := List.head?_eq_some_iff.mp hpoint
      exact (Prod.mk.inj ((unsigned_point h).1.symm.trans hparts)).1
    · exact (Prod.mk.inj ((unsigned_whole h hpoint).1.symm.trans hparts)).1
  · have hgroups := groupedDigits_of_not_heads hdigit
    by_cases hpoint : cs.head? = some '.'
    · obtain ⟨r, rfl⟩ := List.head?_eq_some_iff.mp hpoint
      rw [(unsigned_point hgroups).1]
      by_cases hr : Heads (charsOf isDecimalDigit) r
      · have hfraction := groupedDigits_ne_nil hr
        exact iff_of_false (fun h => hfraction (Prod.mk.inj h).2) (not_not.mpr (.inr ⟨r, rfl, hr⟩))
      · rw [groupedDigits_of_not_heads hr]
        refine iff_of_true rfl (not_or.mpr ⟨hdigit, ?_⟩)
        rintro ⟨_, heq, hr'⟩
        cases heq
        exact hr hr'
    · rw [(unsigned_whole hgroups hpoint).1]
      refine iff_of_true rfl (not_or.mpr ⟨hdigit, ?_⟩)
      rintro ⟨r, rfl, -⟩
      exact hpoint rfl

theorem exists_leadingUnsigned (h : StartsNumber cs) (digits : List Char → List ℕ × List Char)
    (negative : Bool) : ∃ l, leadingUnsigned digits negative cs =
      some (l, (leadingExponentPart digits (unsignedRest cs)).2) := by
  rw [leadingUnsigned_eq, if_neg (unsignedParts_eq_nil_iff.not.mpr (not_not.mpr h))]
  exact ⟨_, rfl⟩

theorem leadingUnsigned_of_not_starts (h : ¬ StartsNumber cs)
    (digits : List Char → List ℕ × List Char) (negative : Bool) :
    leadingUnsigned digits negative cs = none := by
  rw [leadingUnsigned_eq, if_pos (unsignedParts_eq_nil_iff.mpr h)]

theorem leadingExponentPart_of_digits {digits : List Char → List ℕ × List Char} {r : List Char}
    {d : ℕ} {ds : List ℕ} (hc : isMark c = true)
    (h : digits (leadingSign r).2 = (d :: ds, rest)) :
    leadingExponentPart digits (c :: r) =
      (if (leadingSign r).1 then -(ofDigits (d :: ds) : ℤ) else ofDigits (d :: ds), rest) := by
  dsimp only [leadingExponentPart]
  rw [h]
  exact if_pos hc

/-- There is no power of ten, or a mark with digits after it. -/
theorem leadingExponentPart_cases (digits : List Char → List ℕ × List Char) (cs : List Char) :
    leadingExponentPart digits cs = (0, cs) ∨ ∃ m r d ds rest, cs = m :: r ∧ isMark m = true ∧
      digits (leadingSign r).2 = (d :: ds, rest) := by
  cases cs with
  | nil => exact .inl rfl
  | cons m r =>
    by_cases hm : isMark m = true
    · rcases hdigits : digits (leadingSign r).2 with ⟨_ | ⟨d, ds⟩, left⟩
      · left
        dsimp only [leadingExponentPart]
        rw [hdigits]
        exact ite_self _
      · exact .inr ⟨m, r, d, ds, left, rfl, hm, hdigits⟩
    · exact .inl (if_neg hm)

/-! ### The texts of numbers -/

/-- The text without its underscores. -/
def withoutUnderscores (cs : List Char) : List Char := cs.filter (· != '_')

/-- The text is made of characters for the digits, and of underscores. -/
inductive Spells : List Char → List ℕ → Prop
  | nil : Spells [] []
  | digit {c : Char} {d : ℕ} {w : List Char} {ds : List ℕ} (hc : digitValue? c = some d)
      (h : Spells w ds) : Spells (c :: w) (d :: ds)
  | underscore {w : List Char} {ds : List ℕ} (h : Spells w ds) : Spells ('_' :: w) ds

theorem exists_spells_moreDigits (cs : List Char) :
    ∃ w, w ++ (moreDigits cs).2 = cs ∧ Spells w (moreDigits cs).1 := by
  fun_induction moreDigits cs with
  | case1 => exact ⟨[], rfl, .nil⟩
  | case2 c d hc => exact ⟨[c], rfl, Spells.digit hc .nil⟩
  | case3 c hc => exact ⟨[], rfl, .nil⟩
  | case4 c e r d hc p ih =>
    obtain ⟨w, hw, hspells⟩ := ih
    exact ⟨c :: w, congrArg (c :: ·) hw, .digit hc hspells⟩
  | case5 c e r hc hunderscore d he p ih =>
    obtain ⟨w, hw, hspells⟩ := ih
    obtain rfl := beq_iff_eq.mp hunderscore
    exact ⟨'_' :: e :: w, congrArg ('_' :: e :: ·) hw, .underscore (.digit he hspells)⟩
  | case6 c e r hc hunderscore he => exact ⟨[], rfl, .nil⟩
  | case7 c e r hc hunderscore => exact ⟨[], rfl, .nil⟩

/-- Digits are read back without the underscores, up to what cannot belong to them. -/
theorem moreDigits_of_spells {w k : List Char} {ds : List ℕ} (h : Spells w ds)
    (hk : ¬ Heads (charsOf isGroupChar) k) :
    moreDigits (withoutUnderscores w ++ k) = (ds, k) := by
  induction h with
  | nil =>
    cases k with
    | nil => rfl
    | cons c k =>
      have hc : isGroupChar c = false := Bool.not_eq_true _ ▸ fun hc => hk ⟨c, k, rfl, hc⟩
      obtain ⟨hdigit, hunderscore⟩ := Bool.or_eq_false_iff.mp hc
      have hnone : digitValue? c = none := by
        simpa [isDecimalDigit] using hdigit
      show moreDigits (c :: k) = _
      rw [moreDigits_cons (by simpa using hunderscore), hnone]
  | @digit c d w ds hc h ih =>
    have hunderscore := not_underscore_of_isDecimalDigit (isDecimalDigit_of_some hc)
    rw [withoutUnderscores, List.filter_cons_of_pos (by simpa using hunderscore), List.cons_append,
      moreDigits_cons (by simpa using hunderscore), hc]
    dsimp only
    rw [← withoutUnderscores, ih]
  | underscore h ih => exact ih

theorem groupedDigits_of_spells {w k : List Char} {ds : List ℕ} (h : Spells w ds)
    (hk : ¬ Heads (charsOf isGroupChar) k) :
    groupedDigits (withoutUnderscores w ++ k) = (ds, k) := by
  induction h with
  | nil =>
    exact groupedDigits_of_not_heads fun hdigit =>
      hk (hdigit.mono fun _ => isGroupChar_of_isDecimalDigit)
  | @digit c d w ds hc h ih =>
    have hunderscore := not_underscore_of_isDecimalDigit (isDecimalDigit_of_some hc)
    rw [withoutUnderscores, List.filter_cons_of_pos (by simpa using hunderscore), List.cons_append,
      groupedDigits, hc]
    dsimp only
    rw [← withoutUnderscores, moreDigits_of_spells h hk]
  | underscore h ih => exact ih

theorem exists_spells_groupedDigits (cs : List Char) :
    ∃ w, w ++ (groupedDigits cs).2 = cs ∧ Spells w (groupedDigits cs).1 := by
  unfold groupedDigits
  split
  · exact ⟨[], rfl, .nil⟩
  · next c r =>
    split
    · next d hd =>
      obtain ⟨w, hw, hspells⟩ := exists_spells_moreDigits r
      exact ⟨c :: w, congrArg (c :: ·) hw, .digit hd hspells⟩
    · exact ⟨[], rfl, .nil⟩

theorem exists_spells_plainDigits (cs : List Char) :
    ∃ w, w ++ (plainDigits cs).2 = cs ∧ Spells w (plainDigits cs).1 := by
  induction cs with
  | nil => exact ⟨[], rfl, .nil⟩
  | cons c cs ih =>
    rw [plainDigits]
    cases hc : digitValue? c with
    | none => exact ⟨[], rfl, .nil⟩
    | some d =>
      obtain ⟨w, hw, hspells⟩ := ih
      exact ⟨c :: w, congrArg (c :: ·) hw, .digit hc hspells⟩

theorem Spells.chars {w : List Char} {ds : List ℕ} (h : Spells w ds) :
    ∀ c ∈ w, isGroupChar c = true := by
  induction h with
  | nil => exact fun _ h => nomatch h
  | digit hc h ih =>
    exact List.forall_mem_cons.mpr ⟨isGroupChar_of_isDecimalDigit (isDecimalDigit_of_some hc), ih⟩
  | underscore h ih => exact List.forall_mem_cons.mpr ⟨rfl, ih⟩

theorem Spells.digits_eq {w : List Char} {ds : List ℕ} (h : Spells w ds) :
    w.filterMap digitValue? = ds := by
  induction h with
  | nil => rfl
  | digit hc h ih => rw [List.filterMap_cons_some hc, ih]
  | underscore h ih => rw [List.filterMap_cons_none (by decide), ih]

/-- The characters of numbers after their blanks. -/
def isNumeric (c : Char) : Bool := isUnsignedChar c || isSign c || isMark c

theorem leadingSign_of_not_heads {k : List Char} (hk : ¬ Heads (charsOf isSign) k) :
    leadingSign k = (false, k) := by
  unfold leadingSign
  split
  · next r => exact absurd ⟨'+', r, rfl, rfl⟩ hk
  · next r => exact absurd ⟨'-', r, rfl, rfl⟩ hk
  · rfl

/-- A sign is read back in front of anything else. -/
theorem exists_sign (cs : List Char) :
    ∃ w, w ++ (leadingSign cs).2 = cs ∧ (∀ c ∈ w, isSign c = true) ∧
      ((leadingSign cs).1 = true ↔ '-' ∈ w) ∧ ∀ k, ¬ Heads (charsOf isSign) k →
        leadingSign (withoutUnderscores w ++ k) = ((leadingSign cs).1, k) := by
  unfold leadingSign
  split
  · exact ⟨['+'], rfl, by simp [isSign], by simp, fun k _ => rfl⟩
  · exact ⟨['-'], rfl, by simp [isSign], by simp, fun k _ => rfl⟩
  · exact ⟨[], rfl, by simp, by simp, fun k hk => leadingSign_of_not_heads hk⟩

/-- The digits and the point are read back in front of anything else. -/
theorem exists_unsigned (cs : List Char) :
    ∃ w, w ++ unsignedRest cs = cs ∧ (∀ c ∈ w, isUnsignedChar c = true) ∧
      ∀ k, ¬ Heads (charsOf isUnsignedChar) k →
        unsignedParts (withoutUnderscores w ++ k) = unsignedParts cs ∧
          unsignedRest (withoutUnderscores w ++ k) = k := by
  obtain ⟨whole, hwhole, hspells⟩ := exists_spells_groupedDigits cs
  have hchars : ∀ c ∈ whole, isUnsignedChar c = true := fun c hc =>
    subset_unsigned (hspells.chars c hc)
  rcases hgroups : groupedDigits cs with ⟨ds, left⟩
  rw [hgroups] at hwhole hspells
  by_cases hpoint : left.head? = some '.'
  · obtain ⟨r, rfl⟩ := List.head?_eq_some_iff.mp hpoint
    obtain ⟨fraction, hfraction, hspells'⟩ := exists_spells_groupedDigits r
    obtain ⟨hparts, hrest⟩ := unsigned_point hgroups
    rw [hparts, hrest]
    refine ⟨whole ++ '.' :: fraction, by simpa [hfraction] using hwhole, ?_, fun k hk => ?_⟩
    · refine List.forall_mem_append.mpr ⟨hchars, List.forall_mem_cons.mpr ⟨rfl, fun c hc => ?_⟩⟩
      exact subset_unsigned (hspells'.chars c hc)
    · -- The point ends the digits before it, so that each group is read back on its own.
      have hstop : ¬ Heads (charsOf isGroupChar) ('.' :: (withoutUnderscores fraction ++ k)) :=
        fun h => h.not disjoint_group_point ⟨_, _, rfl, rfl⟩
      have hread := groupedDigits_of_spells hspells' fun h => hk (h.mono subset_unsigned)
      have hclean : withoutUnderscores (whole ++ '.' :: fraction) ++ k =
          withoutUnderscores whole ++ '.' :: (withoutUnderscores fraction ++ k) := by
        simp [withoutUnderscores]
      obtain ⟨hparts', hrest'⟩ := unsigned_point (groupedDigits_of_spells hspells hstop)
      rw [hclean, hparts', hrest', hread]
      exact ⟨rfl, rfl⟩
  · obtain ⟨hparts, hrest⟩ := unsigned_whole hgroups hpoint
    rw [hparts, hrest]
    refine ⟨whole, hwhole, hchars, fun k hk => ?_⟩
    refine unsigned_whole (groupedDigits_of_spells hspells fun h => hk (h.mono subset_unsigned)) ?_
    intro hk'
    obtain ⟨r, rfl⟩ := List.head?_eq_some_iff.mp hk'
    exact hk ⟨_, _, rfl, rfl⟩

/-- A power of ten is read back at the end of a text. -/
theorem exists_exponent (cs : List Char) :
    ∃ w, w ++ (leadingExponentPart plainDigits cs).2 = cs ∧ (∀ c ∈ w, isNumeric c = true) ∧
      (withoutUnderscores w = [] ∨ Heads (charsOf isMark) (withoutUnderscores w)) ∧
      leadingExponentPart groupedDigits (withoutUnderscores w) =
        ((leadingExponentPart plainDigits cs).1, []) := by
  rcases leadingExponentPart_cases plainDigits cs with hnone | ⟨m, r, d, ds, left, rfl, hm, hplain⟩
  · rw [hnone]
    exact ⟨[], rfl, by simp, .inl rfl, rfl⟩
  · obtain ⟨sign, hsign, hsigns, -, hread⟩ := exists_sign r
    obtain ⟨power, hpower, hspells⟩ := exists_spells_plainDigits (leadingSign r).2
    rw [hplain] at hpower hspells
    have hclean : withoutUnderscores (m :: (sign ++ power)) =
        m :: (withoutUnderscores sign ++ withoutUnderscores power) := by
      have hmark : m ≠ '_' := fun h => absurd hm (by rw [h]; decide)
      simp [withoutUnderscores, hmark]
    have hsignless : ¬ Heads (charsOf isSign) (withoutUnderscores power) :=
      not_heads_of_forall fun c hc => Set.disjoint_left.mp disjoint_group_sign
        (hspells.chars c (List.mem_of_mem_filter hc))
    have hsigned := hread _ hsignless
    have hgrouped : groupedDigits
        (leadingSign (withoutUnderscores sign ++ withoutUnderscores power)).2 = (d :: ds, []) := by
      rw [hsigned]
      simpa using groupedDigits_of_spells hspells not_heads_nil
    rw [leadingExponentPart_of_digits hm hplain]
    refine ⟨m :: (sign ++ power), by simp [hpower, hsign], ?_, .inr ⟨m, _, hclean, hm⟩, ?_⟩
    · refine List.forall_mem_cons.mpr ⟨?_, List.forall_mem_append.mpr ⟨fun c hc => ?_, fun c hc => ?_⟩⟩
      · simp [isNumeric, hm]
      · simp [isNumeric, hsigns c hc]
      · simp [isNumeric, isUnsignedChar, hspells.chars c hc]
    · rw [hclean, leadingExponentPart_of_digits hm hgrouped, hsigned]

/-- A number without sign is read back as the same number. -/
theorem exists_unsigned_literal {negative : Bool} {l : DecimalLiteral}
    (h : leadingUnsigned plainDigits negative cs = some (l, rest)) :
    ∃ w, w ++ rest = cs ∧ (∀ c ∈ w, isNumeric c = true) ∧
      ¬ Heads (charsOf isSign) (withoutUnderscores w) ∧
      leadingUnsigned groupedDigits negative (withoutUnderscores w) = some (l, []) := by
  obtain ⟨number, hnumber, hchars, hread⟩ := exists_unsigned cs
  obtain ⟨power, hpower, hchars', hmark, hread'⟩ := exists_exponent (unsignedRest cs)
  rw [leadingUnsigned_eq] at h
  generalize leadingExponentPart plainDigits (unsignedRest cs) = p at h hpower hread'
  obtain ⟨exponent, left⟩ := p
  split at h
  · cases h
  next hparts =>
  cases h
  have hother {C : Set Char} (hC : Disjoint (charsOf isMark) C) :
      ¬ Heads C (withoutUnderscores power) := by
    rcases hmark with hnil | hmark
    · rw [hnil]
      exact not_heads_nil
    · exact hmark.not hC
  have hclean : withoutUnderscores (number ++ power) =
      withoutUnderscores number ++ withoutUnderscores power := List.filter_append _ _
  obtain ⟨hparts', hrest⟩ := hread _ (hother disjoint_unsigned_mark.symm)
  refine ⟨number ++ power, by rw [List.append_assoc, hpower, hnumber], ?_, ?_, ?_⟩
  · refine List.forall_mem_append.mpr ⟨fun c hc => ?_, hchars'⟩
    simp [isNumeric, hchars c hc]
  · rw [hclean]
    intro h
    rcases h.of_append with h | h
    · refine not_heads_of_forall (fun c hc => ?_) h
      exact Set.disjoint_left.mp disjoint_unsigned_sign (hchars c (List.mem_of_mem_filter hc))
    · exact hother disjoint_mark_sign h
  · rw [hclean, leadingUnsigned_eq, hparts', hrest, if_neg hparts, hread']

/-! ### The values of numbers -/

/-- The characters of numbers are neither blanks nor those of names. -/
theorem isNumeric_spec (h : isNumeric c = true) : isBlank c = false ∧ c.toLower ≠ 'n' := by
  by_cases hdigit : isDecimalDigit c = true
  · refine ⟨isBlank_of_isDecimalDigit hdigit, toLower_ne_n ?_⟩
    have hbounds := isDecimalDigit_bounds hdigit
    omega
  · have hmark : c = '_' ∨ c = '.' ∨ c = '+' ∨ c = '-' ∨ c = 'e' ∨ c = 'E' := by
      simpa [isNumeric, isUnsignedChar, isGroupChar, isSign, isMark, hdigit, or_assoc] using h
    rcases hmark with rfl | rfl | rfl | rfl | rfl | rfl <;> decide

/-- Padding is trimmed off the front of a number, and no more than padding. -/
theorem trimPadding_append {v : List Char} (hne : v ≠ []) (hv : ∀ c ∈ v, isPadding c = false)
    (b : List Char) : trimPadding (b ++ v) = b.dropWhile isPadding ++ v := by
  have hfront : (b ++ v).dropWhile isPadding = b.dropWhile isPadding ++ v := by
    rw [List.dropWhile_append]
    split
    · next hnil =>
      have hstays : v.dropWhile isPadding = v :=
        List.dropWhile_eq_self_iff.mpr fun hpos => by simp [hv _ (List.getElem_mem hpos)]
      rw [List.isEmpty_iff.mp hnil, hstays, List.nil_append]
    · rfl
  obtain ⟨v', c, rfl⟩ := (List.eq_nil_or_concat' v).resolve_left hne
  rw [trimPadding, hfront, ← List.append_assoc, List.reverse_append, List.reverse_singleton,
    List.singleton_append, List.dropWhile_cons_of_neg (by simp [hv c (by simp)])]
  simp

/-- After padding a number is read as it is. -/
theorem wholeFloat?_padded {b v k : List Char} {negative : Bool} {l : DecimalLiteral}
    (hb : b.all isPadding = true) (hv : ∀ c ∈ v, isNumeric c = true) (hne : v ≠ [])
    (hsign : leadingSign v = (negative, k))
    (hread : leadingUnsigned groupedDigits negative k = some (l, [])) :
    wholeFloat? (b ++ v) = some l.toFloat := by
  have hpadding : ∀ c ∈ v, isPadding c = false := fun c hc =>
    isPadding_of_isBlank (isNumeric_spec (hv c hc)).1
  have hdrop : b.dropWhile isPadding = [] :=
    List.dropWhile_eq_nil_iff.mpr (List.all_eq_true.mp hb)
  rw [wholeFloat?, trimPadding_append hne hpadding, hdrop, List.nil_append, hsign]
  dsimp only
  rw [hread]

/-- After other blanks nothing is a number. -/
theorem wholeFloat?_not_padded {b v : List Char} (hblank : ∀ c ∈ b, isBlank c = true)
    (hb : b.all isPadding = false) (hv : ∀ c ∈ v, isNumeric c = true) (hne : v ≠ []) :
    wholeFloat? (b ++ v) = none := by
  have hpadding : ∀ c ∈ v, isPadding c = false := fun c hc =>
    isPadding_of_isBlank (isNumeric_spec (hv c hc)).1
  rw [wholeFloat?, trimPadding_append hne hpadding]
  cases hdrop : b.dropWhile isPadding with
  | nil =>
    rw [List.all_eq_true.mpr (List.dropWhile_eq_nil_iff.mp hdrop)] at hb
    cases hb
  | cons c b' =>
    -- The first blank that is no padding stays in front, where no number and no name may start.
    have hmem : ∀ x ∈ c :: b', isBlank x = true := fun x hx =>
      hblank x ((List.dropWhile_suffix _).subset (hdrop ▸ hx))
    have hhead : Heads (charsOf isBlank) (c :: b' ++ v) :=
      ⟨c, b' ++ v, rfl, hmem c List.mem_cons_self⟩
    have hother := hhead.not disjoint_blank_signed
    have hname : ∀ x ∈ c :: b' ++ v, x.toLower ≠ 'n' := by
      intro x hx
      rcases List.mem_append.mp hx with hx | hx
      · have hx := hmem x hx
        refine toLower_ne_n ?_
        simp [isBlank] at hx
        omega
      · exact (isNumeric_spec (hv x hx)).2
    rw [leadingSign_of_not_heads fun h => hother (h.mono Set.subset_union_left)]
    dsimp only
    rw [leadingUnsigned_of_not_starts fun h => hother (h.heads.mono Set.subset_union_right)]
    exact namedNumber_eq_none hname false

/-! ### The readers -/

/-- The value of the digits of an integer, below zero if there is a minus among them. -/
def integerOf (cs : List Char) : ℤ :=
  if '-' ∈ cs then -(ofDigits (cs.filterMap digitValue?) : ℤ) else ofDigits (cs.filterMap digitValue?)

/-- The blanks, the sign and the rest of a text. -/
theorem exists_front (cs : List Char) :
    ∃ b w, (b ++ w) ++ unsignedPart cs = cs ∧ (∀ c ∈ b, isBlank c = true) ∧
      (b.all isPadding = isPadded cs) ∧ (∀ c ∈ w, isSign c = true) ∧
      ((leadingSign (trimLeft cs)).1 = true ↔ '-' ∈ w) ∧ ∀ k, ¬ Heads (charsOf isSign) k →
        leadingSign (withoutUnderscores w ++ k) = ((leadingSign (trimLeft cs)).1, k) := by
  obtain ⟨w, hw, hsigns, hminus, hread⟩ := exists_sign (trimLeft cs)
  refine ⟨cs.takeWhile isBlank, w, ?_, fun c hc => List.mem_takeWhile_imp hc, rfl, hsigns, hminus,
    hread⟩
  rw [List.append_assoc, unsignedPart, hw, trimLeft, List.takeWhile_append_dropWhile]

theorem consumed_append (pre rest : List Char) : consumed (pre ++ rest) rest = pre := by
  rw [consumed, List.length_append, Nat.add_sub_cancel, List.take_left]

theorem withoutUnderscores_blanks {b : List Char} (hb : ∀ c ∈ b, isBlank c = true) :
    withoutUnderscores b = b := by
  refine List.filter_eq_self.mpr fun c hc => ?_
  rw [bne_iff_ne]
  rintro rfl
  exact absurd (hb _ hc) (by decide)

/-- The text of a decimal, cut at its blanks and its sign. -/
theorem exists_decimal {l : DecimalLiteral}
    (h : leadingUnsigned plainDigits (leadingSign (trimLeft cs)).1 (unsignedPart cs) =
      some (l, rest)) :
    ∃ pre, pre ++ rest = cs ∧
      wholeFloat? (withoutUnderscores pre) = if isPadded cs then some l.toFloat else none := by
  obtain ⟨b, w, hfront, hblank, hpadded, hsigns, -, hsign⟩ := exists_front cs
  obtain ⟨u, hu, hchars, hsignless, hread⟩ := exists_unsigned_literal h
  have hclean : withoutUnderscores (b ++ w ++ u) =
      b ++ (withoutUnderscores w ++ withoutUnderscores u) := by
    rw [withoutUnderscores, List.filter_append, List.filter_append, List.append_assoc]
    exact congrArg (· ++ _) (withoutUnderscores_blanks hblank)
  have hnumeric : ∀ c ∈ withoutUnderscores w ++ withoutUnderscores u, isNumeric c = true := by
    refine List.forall_mem_append.mpr ⟨fun c hc => ?_, fun c hc => ?_⟩
    · simp [isNumeric, hsigns c (List.mem_of_mem_filter hc)]
    · exact hchars c (List.mem_of_mem_filter hc)
  have hne : withoutUnderscores w ++ withoutUnderscores u ≠ [] := by
    intro hnil
    rw [(List.append_eq_nil_iff.mp hnil).2] at hread
    cases hread
  refine ⟨b ++ w ++ u, by rw [List.append_assoc, hu, hfront], ?_⟩
  rw [hclean]
  cases hpad : isPadded cs with
  | true =>
    exact wholeFloat?_padded (hpadded.trans hpad) hnumeric hne (hsign _ hsignless) hread
  | false => exact wholeFloat?_not_padded hblank (hpadded.trans hpad) hnumeric hne

theorem readDecimal_of_some {l : DecimalLiteral}
    (h : leadingUnsigned plainDigits (leadingSign (trimLeft cs)).1 (unsignedPart cs) =
      some (l, rest)) :
    readDecimal cs =
      if isPadded cs then .ok (some (.real l.toFloat, rest))
      else .error (.value (.unreadableNumber
        (String.ofList (withoutUnderscores (consumed cs rest))))) := by
  unfold readDecimal
  rw [unsignedPart] at h
  generalize leadingSign (trimLeft cs) = sign at h ⊢
  dsimp only
  rw [h]
  rfl

theorem readDecimal_of_not_starts (h : ¬ StartsNumber (unsignedPart cs)) :
    readDecimal cs = .ok none := by
  have hnone := leadingUnsigned_of_not_starts h plainDigits (leadingSign (trimLeft cs)).1
  unfold readDecimal
  rw [unsignedPart] at hnone
  generalize leadingSign (trimLeft cs) = sign at hnone ⊢
  dsimp only
  rw [hnone]

/-- A decimal is read up to the end of the longest one, with the value of its text. -/
theorem readDecimal_longest (cs : List Char) :
    (Fails decimalForm cs ∧ readDecimal cs = .ok none) ∨
      ∃ pre rest, pre ++ rest = cs ∧ Longest decimalForm Set.univ cs rest ∧
        (isPadded cs = true → ∃ x, wholeFloat? (withoutUnderscores pre) = some x ∧
          readDecimal cs = .ok (some (.real x, rest))) ∧
        (isPadded cs = false → wholeFloat? (withoutUnderscores pre) = none ∧
          readDecimal cs = .error (.value (.unreadableNumber
            (String.ofList (withoutUnderscores pre))))) := by
  by_cases hs : StartsNumber (unsignedPart cs)
  · right
    have hlongest := longest_decimalForm hs
    obtain ⟨l, hl⟩ := exists_leadingUnsigned hs plainDigits (leadingSign (trimLeft cs)).1
    generalize (leadingExponentPart plainDigits (unsignedRest (unsignedPart cs))).2 = rest
      at hl hlongest
    have hread := readDecimal_of_some hl
    obtain ⟨pre, rfl, hvalue⟩ := exists_decimal hl
    rw [consumed_append] at hread
    refine ⟨pre, rest, rfl, hlongest, fun hpad => ?_, fun hpad => ?_⟩
    · rw [hpad] at hvalue hread
      exact ⟨l.toFloat, hvalue, hread⟩
    · rw [hpad] at hvalue hread
      exact ⟨hvalue, hread⟩
  · exact .inl ⟨fails_decimalForm hs, readDecimal_of_not_starts hs⟩

theorem signedValue_eq (negative : Bool) (ds : List ℕ) :
    signedValue negative ds =
      if ds.length ≤ maxDigits then some (if negative then -(ofDigits ds : ℤ) else ofDigits ds)
      else none := by
  unfold signedValue
  by_cases h : ds.length ≤ maxDigits
  · rw [if_neg (Nat.not_lt.mpr h), if_pos h]
  · rw [if_pos (Nat.lt_of_not_le h), if_neg h]

/-- The text of an integer, cut at its blanks and its sign. -/
theorem exists_integer {ds : List ℕ} (h : groupedDigits (unsignedPart cs) = (ds, rest)) :
    ∃ pre, pre ++ rest = cs ∧ pre.filterMap digitValue? = ds ∧
      integerOf pre =
        if (leadingSign (trimLeft cs)).1 then -(ofDigits ds : ℤ) else ofDigits ds := by
  obtain ⟨b, w, hfront, hblank, -, hsigns, hminus, -⟩ := exists_front cs
  obtain ⟨u, hu, hspells⟩ := exists_spells_groupedDigits (unsignedPart cs)
  rw [h] at hu hspells
  have hnone : ∀ c ∈ b ++ w, digitValue? c = none := by
    intro c hc
    refine Option.not_isSome_iff_eq_none.mp fun hdigit => ?_
    rcases List.mem_append.mp hc with hc | hc
    · exact Set.disjoint_left.mp disjoint_blank_digit (hblank c hc) hdigit
    · exact Set.disjoint_left.mp disjoint_digit_sign hdigit (hsigns c hc)
  have hdigits : (b ++ w ++ u).filterMap digitValue? = ds := by
    rw [List.filterMap_append, List.filterMap_eq_nil_iff.mpr hnone, List.nil_append,
      hspells.digits_eq]
  have hsign : '-' ∈ b ++ w ++ u ↔ (leadingSign (trimLeft cs)).1 = true := by
    have hb : '-' ∉ b := fun h => absurd (hblank _ h) (by decide)
    have hu : '-' ∉ u := fun h => absurd (hspells.chars _ h) (by decide)
    rw [hminus, List.mem_append, List.mem_append, or_iff_left hu, or_iff_right hb]
  refine ⟨b ++ w ++ u, by rw [List.append_assoc, hu, hfront], hdigits, ?_⟩
  rw [integerOf, hdigits]
  exact if_congr hsign rfl rfl

theorem readInteger_of_digits {ds : List ℕ} (h : groupedDigits (unsignedPart cs) = (ds, rest))
    (hne : ds ≠ []) :
    readInteger cs =
      if isPadded cs = true ∧ ds.length ≤ maxDigits then
        .ok (some (.integer
          (if (leadingSign (trimLeft cs)).1 then -(ofDigits ds : ℤ) else ofDigits ds), rest))
      else .error (.value (.unreadableInteger
        (String.ofList (withoutUnderscores (consumed cs rest))))) := by
  obtain ⟨d, ds, rfl⟩ := List.exists_cons_of_ne_nil hne
  unfold readInteger
  rw [unsignedPart] at h
  generalize leadingSign (trimLeft cs) = sign at h ⊢
  dsimp only
  rw [h]
  dsimp only
  rw [signedValue_eq]
  cases isPadded cs with
  | false => rfl
  | true =>
    by_cases hlength : (d :: ds).length ≤ maxDigits
    · rw [if_pos hlength, if_pos (And.intro rfl hlength)]
    · rw [if_neg hlength, if_neg fun hgood => hlength hgood.2]
      rfl

theorem readInteger_of_not_heads (h : ¬ Heads (charsOf isDecimalDigit) (unsignedPart cs)) :
    readInteger cs = .ok none := by
  have hgroups := groupedDigits_of_not_heads h
  unfold readInteger
  rw [unsignedPart] at hgroups
  generalize leadingSign (trimLeft cs) = sign at hgroups ⊢
  dsimp only
  rw [hgroups]

/-- An integer is read up to the end of the longest one, with the value of its digits. -/
theorem readInteger_longest (cs : List Char) :
    (Fails integerForm cs ∧ readInteger cs = .ok none) ∨
      ∃ pre rest, pre ++ rest = cs ∧ Longest integerForm Set.univ cs rest ∧
        (isPadded cs = true → (pre.filterMap digitValue?).length ≤ maxDigits →
          readInteger cs = .ok (some (.integer (integerOf pre), rest))) ∧
        (isPadded cs = false ∨ maxDigits < (pre.filterMap digitValue?).length →
          readInteger cs = .error (.value (.unreadableInteger
            (String.ofList (withoutUnderscores pre))))) := by
  by_cases hs : Heads (charsOf isDecimalDigit) (unsignedPart cs)
  · right
    have hlongest := longest_integerForm hs
    have hne := groupedDigits_ne_nil hs
    obtain ⟨ds, rest, hgroups⟩ : ∃ ds rest, groupedDigits (unsignedPart cs) = (ds, rest) :=
      ⟨_, _, rfl⟩
    rw [hgroups] at hlongest hne
    have hread := readInteger_of_digits hgroups hne
    obtain ⟨pre, rfl, hdigits, hvalue⟩ := exists_integer hgroups
    rw [consumed_append, ← hvalue, ← hdigits] at hread
    refine ⟨pre, rest, rfl, hlongest, fun hpad hlength => ?_, fun hbad => ?_⟩
    · rw [hread, if_pos ⟨hpad, hlength⟩]
    · rw [hread, if_neg]
      rintro ⟨hpad, hlength⟩
      rcases hbad with hother | hlong
      · exact Bool.false_ne_true (hother.symm.trans hpad)
      · exact absurd hlength (Nat.not_le.mpr hlong)
  · exact .inl ⟨fails_integerForm hs, readInteger_of_not_heads hs⟩

theorem read_decimal (text : String) :
    NumberReader.read .decimal text = (readDecimal text.toList).map
      (Option.map fun (m, rest) => (m, String.ofList rest)) := by
  unfold NumberReader.read
  dsimp only
  cases readDecimal text.toList <;> rfl

theorem read_integer (text : String) :
    NumberReader.read .integer text = (readInteger text.toList).map
      (Option.map fun (m, rest) => (m, String.ofList rest)) := by
  unfold NumberReader.read
  dsimp only
  cases readInteger text.toList <;> rfl

/-- **Leading numbers are the longest ones.**  A text that starts with no decimal is read without a
number.  Of any other text the longest decimal is read, and what is left is the rest; its value is
that of the decimal without its underscores, on its own. -/
theorem read_longest (text : String) :
    (NumberReader.read .decimal text = .ok none ↔ ∀ w, w <+: text.toList → w ∉ decimalForm) ∧
    ((∃ w, w <+: text.toList ∧ w ∈ decimalForm) →
      ∃ pre rest, IsLongestPrefix decimalForm text.toList pre rest ∧
        (isPadded text.toList = true → ∃ x, wholeFloat? (withoutUnderscores pre) = some x ∧
          NumberReader.read .decimal text = .ok (some (.real x, String.ofList rest))) ∧
        (isPadded text.toList = false → wholeFloat? (withoutUnderscores pre) = none ∧
          NumberReader.read .decimal text =
            .error (.value (.unreadableNumber (String.ofList (withoutUnderscores pre)))))) ∧
    (NumberReader.read .integer text = .ok none ↔ ∀ w, w <+: text.toList → w ∉ integerForm) ∧
    ((∃ w, w <+: text.toList ∧ w ∈ integerForm) →
      ∃ pre rest, IsLongestPrefix integerForm text.toList pre rest ∧
        (isPadded text.toList = true → (pre.filterMap digitValue?).length ≤ maxDigits →
          NumberReader.read .integer text = .ok (some (.integer (integerOf pre), String.ofList rest))) ∧
        (isPadded text.toList = false ∨ maxDigits < (pre.filterMap digitValue?).length →
          NumberReader.read .integer text =
            .error (.value (.unreadableInteger (String.ofList (withoutUnderscores pre)))))) := by
  rw [read_decimal, read_integer]
  refine and_assoc.mp ⟨longest_or_fails (C := Set.univ) ?_ ?_,
    longest_or_fails (C := Set.univ) ?_ ?_⟩
  · refine (readDecimal_longest text.toList).imp
      (fun ⟨hfails, hread⟩ => ⟨hfails, by rw [hread]; rfl⟩) ?_
    rintro ⟨pre, rest, happend, hlongest, hpadded, hother⟩
    refine ⟨pre, rest, happend, hlongest, fun hpad => ?_, fun hpad => ?_⟩
    · obtain ⟨x, hx, hread⟩ := hpadded hpad
      exact ⟨x, hx, by rw [hread]; rfl⟩
    · obtain ⟨hx, hread⟩ := hother hpad
      exact ⟨hx, by rw [hread]; rfl⟩
  · rintro pre rest ⟨hpadded, hother⟩ hnone
    cases hpad : isPadded text.toList with
    | true =>
      obtain ⟨x, -, hread⟩ := hpadded hpad
      cases hnone.symm.trans hread
    | false => cases hnone.symm.trans (hother hpad).2
  · refine (readInteger_longest text.toList).imp
      (fun ⟨hfails, hread⟩ => ⟨hfails, by rw [hread]; rfl⟩) ?_
    rintro ⟨pre, rest, happend, hlongest, hvalue, hother⟩
    refine ⟨pre, rest, happend, hlongest, fun hpad hlength => ?_, fun hbad => ?_⟩
    · rw [hvalue hpad hlength]
      rfl
    · rw [hother hbad]
      rfl
  · rintro pre rest ⟨hvalue, hother⟩ hnone
    by_cases hgood : isPadded text.toList = true ∧
        (pre.filterMap digitValue?).length ≤ maxDigits
    · cases hnone.symm.trans (hvalue hgood.1 hgood.2)
    · rw [not_and_or, Bool.not_eq_true, Nat.not_le] at hgood
      cases hnone.symm.trans (hother hgood)

/-- Ten and a half thousand electronvolts: neither the underscore nor the second `e` ends the number
too early or too late. -/
theorem read_longest_electronvolts :
    ∃ pre rest, IsLongestPrefix decimalForm "1_0.5e3eV".toList pre rest ∧
      ∃ x, wholeFloat? (withoutUnderscores pre) = some x ∧
        NumberReader.read .decimal "1_0.5e3eV" = .ok (some (.real x, String.ofList rest)) := by
  have hsome : NumberReader.read .decimal "1_0.5e3eV" ≠ .ok none := by decide +kernel
  obtain ⟨hnone, hlongest, -⟩ := read_longest "1_0.5e3eV"
  have hprefix : ∃ w, w <+: "1_0.5e3eV".toList ∧ w ∈ decimalForm := by
    have hform := hnone.not.mp hsome
    push Not at hform
    exact hform
  obtain ⟨pre, rest, hpre, hread, -⟩ := hlongest hprefix
  exact ⟨pre, rest, hpre, hread (by decide +kernel)⟩

/-- An information separator is a blank, but no number is readable after it. -/
theorem not_read_longest :
    ¬ ∀ text : String, text.length ≤ maxDigits →
      (∃ w, w <+: text.toList ∧ w ∈ integerForm) →
        ∃ n rest, NumberReader.read .integer text = .ok (some (.integer n, rest)) := by
  intro h
  have hread : readInteger ['\x1c', '1'] = .error (.value (.unreadableInteger "\x1c1")) := by
    decide +kernel
  have hprefix : ∃ w, w <+: "\x1c1".toList ∧ w ∈ integerForm := by
    rcases readInteger_longest ['\x1c', '1'] with ⟨-, hnone⟩ | ⟨pre, rest, happend, hlongest, -⟩
    · cases hnone.symm.trans hread
    · rw [← happend] at hlongest
      exact ⟨pre, ⟨rest, happend⟩, hlongest.isLongestPrefix.mem⟩
  obtain ⟨n, rest, hok⟩ := h "\x1c1" (by decide) hprefix
  rw [read_integer, show "\x1c1".toList = ['\x1c', '1'] from rfl, hread] at hok
  cases hok

end UnitCalculus.Decimal
