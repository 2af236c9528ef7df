import UnitCalculus.Canonical
import UnitCalculus.Expression.Number
import UnitCalculus.Proofs.Decimal.Digits
import UnitCalculus.Proofs.Decimal.Exact

/-! # Reading the text of a number back

The canonical text of a floating-point number is an integer or the shortest decimal, and a number
that a text starts with ends at a blank.  So the text of a finite number is read back as a number
of the same value, whatever follows it after a blank (`readDecimal_floatText`).  For decimals this
rests on the law of the shortest digits, that the text on its own reads back as the number. -/

namespace UnitCalculus.Decimal

open UnitCalculus.Text

/-- There is no more text, or it starts with a space. -/
def Stops (rest : List Char) : Prop := ∀ c ∈ rest.head?, c = ' '

variable {cs rest : List Char}

/-! ### Digit groups before a space -/

theorem moreDigits_cons {c : Char} (hc : c ≠ '_') (r : List Char) :
    moreDigits (c :: r) =
      match digitValue? c with
      | some d => (d :: (moreDigits r).1, (moreDigits r).2)
      | none => ([], c :: r) := by
  cases r with
  | nil => cases h : digitValue? c <;> simp [moreDigits, h]
  | cons e r => cases h : digitValue? c <;> simp [moreDigits, h, hc]

theorem digits_stop (hr : Stops rest) :
    moreDigits rest = ([], rest) ∧ groupedDigits rest = ([], rest) ∧
      plainDigits rest = ([], rest) := by
  cases rest with
  | nil => exact ⟨rfl, rfl, rfl⟩
  | cons c r =>
    obtain rfl : c = ' ' := hr c rfl
    have hspace : digitValue? ' ' = none := by decide
    exact ⟨by simp [moreDigits_cons, hspace], by simp [groupedDigits, hspace],
      by simp [plainDigits, hspace]⟩

/-- What was read from the front of a text, with more after the text. -/
def extend {α : Type} (p : α × List Char) (rest : List Char) : α × List Char :=
  (p.1, p.2 ++ rest)

theorem extend_fst {α : Type} (p : α × List Char) : (extend p rest).1 = p.1 := rfl

theorem extend_snd {α : Type} (p : α × List Char) : (extend p rest).2 = p.2 ++ rest := rfl

theorem plainDigits_append (hr : Stops rest) (cs : List Char) :
    plainDigits (cs ++ rest) = extend (plainDigits cs) rest := by
  induction cs with
  | nil => exact (digits_stop hr).2.2
  | cons c cs ih =>
    rw [List.cons_append, plainDigits, plainDigits]
    cases digitValue? c with
    | none => rfl
    | some d => simp [ih, extend]

theorem moreDigits_append (hr : Stops rest) (hcs : ∀ c ∈ cs, c ≠ '_') :
    moreDigits (cs ++ rest) = extend (plainDigits cs) rest := by
  induction cs with
  | nil => exact (digits_stop hr).1
  | cons c cs ih =>
    have hrest := ih fun c hc => hcs c (List.mem_cons_of_mem _ hc)
    rw [List.cons_append, moreDigits_cons (hcs c List.mem_cons_self), plainDigits]
    cases digitValue? c with
    | none => rfl
    | some d => simp [hrest, extend]

/-- Without underscores a group of digits is a plain run of digits. -/
theorem groupedDigits_append (hr : Stops rest) (hcs : ∀ c ∈ cs, c ≠ '_') :
    groupedDigits (cs ++ rest) = extend (plainDigits cs) rest := by
  cases cs with
  | nil => exact (digits_stop hr).2.1
  | cons c cs =>
    have hrest := moreDigits_append hr fun c hc => hcs c (List.mem_cons_of_mem _ hc)
    rw [List.cons_append, groupedDigits, plainDigits]
    cases digitValue? c with
    | none => rfl
    | some d => simp [hrest, extend]

theorem groupedDigits_eq_plainDigits (hcs : ∀ c ∈ cs, c ≠ '_') :
    groupedDigits cs = plainDigits cs := by
  have hend : Stops [] := by rintro c ⟨⟩
  have h := groupedDigits_append hend hcs
  simpa [extend] using h

theorem mem_of_mem_plainDigits {c : Char} (h : c ∈ (plainDigits cs).2) : c ∈ cs := by
  induction cs with
  | nil => cases h
  | cons b cs ih =>
    rw [plainDigits] at h
    cases hb : digitValue? b with
    | none =>
      rw [hb] at h
      exact h
    | some d =>
      rw [hb] at h
      exact List.mem_cons_of_mem _ (ih h)

/-! ### Decimals before a space -/

theorem leadingSign_append (hr : Stops rest) (cs : List Char) :
    leadingSign (cs ++ rest) = extend (leadingSign cs) rest := by
  cases cs with
  | nil =>
    cases rest with
    | nil => rfl
    | cons c r =>
      obtain rfl : c = ' ' := hr c rfl
      rfl
  | cons c cs =>
    rw [List.cons_append]
    unfold leadingSign
    split
    · next heq =>
      cases heq
      rfl
    · next heq =>
      cases heq
      rfl
    · next hplus hminus =>
      split
      · next heq =>
        cases heq
        exact absurd rfl (hplus _)
      · next heq =>
        cases heq
        exact absurd rfl (hminus _)
      · rfl

theorem mem_of_mem_leadingSign {c : Char} (h : c ∈ (leadingSign cs).2) : c ∈ cs := by
  unfold leadingSign at h
  split at h
  · exact List.mem_cons_of_mem _ h
  · exact List.mem_cons_of_mem _ h
  · exact h

theorem leadingExponentPart_append (hr : Stops rest) (hcs : ∀ c ∈ cs, c ≠ '_') :
    leadingExponentPart plainDigits (cs ++ rest) =
      extend (leadingExponentPart groupedDigits cs) rest := by
  cases cs with
  | nil =>
    cases rest with
    | nil => rfl
    | cons c r =>
      obtain rfl : c = ' ' := hr c rfl
      rfl
  | cons m cs =>
    have hrest : ∀ c ∈ (leadingSign cs).2, c ≠ '_' := fun c hc =>
      hcs c (List.mem_cons_of_mem _ (mem_of_mem_leadingSign hc))
    unfold leadingExponentPart
    rw [List.cons_append]
    dsimp only
    split
    · rw [leadingSign_append hr]
      dsimp only [extend]
      rw [groupedDigits_eq_plainDigits hrest, plainDigits_append hr]
      generalize plainDigits (leadingSign cs).2 = p
      obtain ⟨ds, left⟩ := p
      cases ds <;> rfl
    · rfl

/-- A literal with a point: there must be digits on one side of it. -/
theorem leadingUnsigned_point (digits : List Char → List Nat × List Char) (negative : Bool)
    {whole : List Nat} {r : List Char} (h : groupedDigits cs = (whole, '.' :: r)) :
    leadingUnsigned digits negative cs =
      if whole = [] ∧ (groupedDigits r).1 = [] then none
      else
        let (exponent, rest) := leadingExponentPart digits (groupedDigits r).2
        some (⟨negative, whole, (groupedDigits r).1, exponent⟩, rest) := by
  unfold leadingUnsigned
  rw [h]
  rcases hr : groupedDigits r with ⟨fractional, left⟩
  cases whole <;> cases fractional <;> simp [hr]

/-- A literal without a point. -/
theorem leadingUnsigned_whole (digits : List Char → List Nat × List Char) (negative : Bool)
    {whole : List Nat} {left : List Char} (h : groupedDigits cs = (whole, left))
    (hpoint : left.head? ≠ some '.') :
    leadingUnsigned digits negative cs =
      if whole = [] then none
      else
        let (exponent, rest) := leadingExponentPart digits left
        some (⟨negative, whole, [], exponent⟩, rest) := by
  unfold leadingUnsigned
  rw [h]
  cases left with
  | nil => cases whole <;> rfl
  | cons c left =>
    have hc : c ≠ '.' := by simpa using hpoint
    cases whole <;> simp [hc]

theorem leadingUnsigned_append (hr : Stops rest) (hcs : ∀ c ∈ cs, c ≠ '_') (negative : Bool) :
    leadingUnsigned plainDigits negative (cs ++ rest) =
      (leadingUnsigned groupedDigits negative cs).map (extend · rest) := by
  have hleft : ∀ c ∈ (plainDigits cs).2, c ≠ '_' := fun c hc =>
    hcs c (mem_of_mem_plainDigits hc)
  have happend := groupedDigits_append hr hcs
  have hgroup := groupedDigits_eq_plainDigits hcs
  generalize plainDigits cs = p at hleft happend hgroup
  obtain ⟨whole, left⟩ := p
  dsimp only [extend] at happend
  by_cases hpoint : left.head? = some '.'
  · obtain ⟨r, rfl⟩ : ∃ r, left = '.' :: r := List.head?_eq_some_iff.mp hpoint
    have hafter : ∀ c ∈ r, c ≠ '_' := fun c hc => hleft c (List.mem_cons_of_mem _ hc)
    have hend : ∀ c ∈ (plainDigits r).2, c ≠ '_' := fun c hc =>
      hafter c (mem_of_mem_plainDigits hc)
    rw [List.cons_append] at happend
    rw [leadingUnsigned_point _ _ happend, leadingUnsigned_point _ _ hgroup,
      groupedDigits_append hr hafter, groupedDigits_eq_plainDigits hafter, extend_fst, extend_snd,
      leadingExponentPart_append hr hend]
    by_cases hnone : whole = [] ∧ (plainDigits r).1 = []
    · rw [if_pos hnone, if_pos hnone]
      rfl
    · rw [if_neg hnone, if_neg hnone]
      rfl
  · have hpoint' : (left ++ rest).head? ≠ some '.' := by
      cases left with
      | nil =>
        intro h
        exact absurd (hr '.' h) (by decide)
      | cons c left => exact hpoint
    rw [leadingUnsigned_whole _ _ happend hpoint', leadingUnsigned_whole _ _ hgroup hpoint,
      leadingExponentPart_append hr hleft]
    split <;> rfl

/-! ### The characters of a number -/

/-- The characters that the text of a finite number is made of. -/
def isNumberChar (c : Char) : Bool :=
  c.isDigit || c == '.' || c == 'e' || c == '+' || c == '-'

/-- Characters below the capital letters or above `n` are no `n` in lower case. -/
theorem toLower_ne_n {c : Char} (h : c.toNat < 65 ∨ 110 < c.toNat) : c.toLower ≠ 'n' := by
  have hlower : c.toLower = c := by
    unfold Char.toLower
    rw [dif_neg]
    rintro ⟨h65, h90⟩
    have h65 : 65 ≤ c.toNat := h65
    have h90 : c.toNat ≤ 90 := h90
    omega
  rw [hlower]
  rintro rfl
  exact absurd h (by decide)

/-- The characters of a number are no blanks, no underscores and not those of names. -/
theorem isNumberChar_spec {c : Char} (h : isNumberChar c = true) :
    isBlank c = false ∧ c ≠ '_' ∧ c.toLower ≠ 'n' := by
  by_cases hdigit : c.isDigit = true
  · have hbounds : 48 ≤ c.toNat ∧ c.toNat ≤ 57 := by
      simpa [Char.isDigit, UInt32.le_iff_toNat_le] using hdigit
    refine ⟨by simp [isBlank]; omega, ?_, toLower_ne_n (by omega)⟩
    rintro rfl
    exact absurd hdigit (by decide)
  · have hmark : c = '.' ∨ c = 'e' ∨ c = '+' ∨ c = '-' := by
      simpa [isNumberChar, hdigit, or_assoc] using h
    rcases hmark with rfl | rfl | rfl | rfl <;> decide

theorem isPadding_of_isBlank {c : Char} (h : isBlank c = false) : isPadding c = false := by
  simp [isPadding, h]

theorem trimPadding_eq_self (h : ∀ c ∈ cs, isPadding c = false) : trimPadding cs = cs := by
  have hdrop : ∀ l : List Char, (∀ c ∈ l, isPadding c = false) → l.dropWhile isPadding = l := by
    intro l hl
    cases l with
    | nil => rfl
    | cons c l => simp [hl c List.mem_cons_self]
  unfold trimPadding
  rw [hdrop cs h, hdrop cs.reverse fun c hc => h c (List.mem_reverse.mp hc), List.reverse_reverse]

/-- No number has a name. -/
theorem namedNumber_eq_none (h : ∀ c ∈ cs, c.toLower ≠ 'n') (negative : Bool) :
    namedNumber negative cs = none := by
  have hname : ∀ s : String, 'n' ∈ s.toList → String.ofList (cs.map Char.toLower) ≠ s := by
    rintro s hn rfl
    rw [String.toList_ofList] at hn
    obtain ⟨c, hc, hcn⟩ := List.mem_map.mp hn
    exact h c hc hcn
  unfold namedNumber
  split
  · next heq => exact absurd heq (hname _ (by decide))
  · next heq => exact absurd heq (hname _ (by decide))
  · next heq => exact absurd heq (hname _ (by decide))
  · rfl

/-- A text of number characters that holds a number holds a decimal. -/
theorem leadingUnsigned_of_wholeFloat? (hcs : ∀ c ∈ cs, isNumberChar c = true) {x : Float}
    (hx : wholeFloat? cs = some x) :
    ∃ l, leadingUnsigned groupedDigits (leadingSign cs).1 (leadingSign cs).2 = some (l, []) ∧
      l.toFloat = x := by
  have hpadding : trimPadding cs = cs :=
    trimPadding_eq_self fun c hc => isPadding_of_isBlank (isNumberChar_spec (hcs c hc)).1
  unfold wholeFloat? at hx
  rw [hpadding] at hx
  dsimp only at hx
  split at hx
  · next l hl => exact ⟨l, hl, Option.some.inj hx⟩
  · rw [namedNumber_eq_none fun c hc =>
      (isNumberChar_spec (hcs c (mem_of_mem_leadingSign hc))).2.2] at hx
    cases hx

/-- A decimal that makes up a whole text is read from the front of a longer one. -/
theorem readDecimal_append (hcs : ∀ c ∈ cs, isNumberChar c = true) {l : DecimalLiteral}
    (hl : leadingUnsigned groupedDigits (leadingSign cs).1 (leadingSign cs).2 = some (l, []))
    (hr : Stops rest) :
    NumberReader.readDecimal (cs ++ rest) = .ok (some (.real l.toFloat, rest)) := by
  have hhead : ∀ c ∈ (cs ++ rest).head?, isBlank c = false := by
    cases cs with
    | nil => cases hl
    | cons c cs =>
      rintro b ⟨⟩
      exact (isNumberChar_spec (hcs c List.mem_cons_self)).1
  have hpadded : NumberReader.isPadded (cs ++ rest) = true := by
    unfold NumberReader.isPadded
    cases h : cs ++ rest with
    | nil => rfl
    | cons c r => simp [hhead c (by rw [h]; rfl)]
  have hunderscore : ∀ c ∈ (leadingSign cs).2, c ≠ '_' := fun c hc =>
    (isNumberChar_spec (hcs c (mem_of_mem_leadingSign hc))).2.1
  have hread := leadingUnsigned_append hr hunderscore (leadingSign cs).1
  rw [hl] at hread
  unfold NumberReader.readDecimal
  rw [trimLeft_eq_self hhead, leadingSign_append hr]
  dsimp only [extend]
  rw [hread, hpadded]
  rfl

/-! ### The text of a decimal -/

theorem isNumberChar_of_isDigit {c : Char} (h : c.isDigit = true) : isNumberChar c = true := by
  simp [isNumberChar, h]

theorem isNumberChar_joinPoint {keepPoint : Bool} {whole fractional : List Char}
    (hw : ∀ c ∈ whole, isNumberChar c = true) (hf : ∀ c ∈ fractional, isNumberChar c = true) :
    ∀ c ∈ joinPoint keepPoint whole fractional, isNumberChar c = true := by
  intro c hc
  unfold joinPoint at hc
  split at hc
  · exact hw c hc
  · rcases List.mem_append.mp hc with hc | hc
    · exact hw c hc
    · rcases List.mem_cons.mp hc with rfl | hc
      · decide
      · exact hf c hc

theorem isNumberChar_exponentText (e : Int) : ∀ c ∈ exponentText 'e' e, isNumberChar c = true := by
  intro c hc
  unfold exponentText at hc
  rcases List.mem_cons.mp hc with rfl | hc
  · decide
  rcases List.mem_cons.mp hc with rfl | hc
  · split <;> decide
  rcases List.mem_append.mp hc with hc | hc
  · rw [List.eq_of_mem_replicate hc]
    decide
  · exact isNumberChar_of_isDigit (isDigit_of_mem_toDigits hc)

section numeral

variable {n : Numeral} (hn : ∀ c ∈ n.digits, isNumberChar c = true)
include hn

theorem isNumberChar_whole : ∀ c ∈ n.whole, isNumberChar c = true := by
  intro c hc
  unfold Numeral.whole at hc
  split at hc
  · rw [List.mem_singleton.mp hc]
    decide
  · rcases List.mem_append.mp hc with hc | hc
    · exact hn c (List.mem_of_mem_take hc)
    · rw [List.eq_of_mem_replicate hc]
      decide

theorem isNumberChar_fractional : ∀ c ∈ n.fractional, isNumberChar c = true := by
  intro c hc
  unfold Numeral.fractional at hc
  split at hc
  · rcases List.mem_append.mp hc with hc | hc
    · rw [List.eq_of_mem_replicate hc]
      decide
    · exact hn c hc
  · exact hn c (List.mem_of_mem_drop hc)

theorem isNumberChar_write : ∀ c ∈ Layout.plain.write n, isNumberChar c = true := by
  have hwhole := isNumberChar_whole hn
  have hzero : ∀ c ∈ ['0'], isNumberChar c = true := by simp [isNumberChar]
  unfold Layout.write
  split
  · intro c hc
    rcases List.mem_append.mp hc with hc | hc
    · exact isNumberChar_joinPoint (fun c hc => hn c (List.mem_of_mem_take hc))
        (fun c hc => hn c (List.mem_of_mem_drop hc)) c hc
    · exact isNumberChar_exponentText _ c hc
  · split
    · exact isNumberChar_joinPoint hwhole hzero
    · exact isNumberChar_joinPoint hwhole (isNumberChar_fractional hn)

theorem isNumberChar_trimZeros : ∀ c ∈ n.trimZeros.digits, isNumberChar c = true := by
  intro c hc
  unfold Numeral.trimZeros at hc
  split at hc
  · exact hn c hc
  · next d ds hds =>
    rw [hds] at hn
    rcases List.mem_cons.mp hc with rfl | hc
    · exact hn _ List.mem_cons_self
    · have hmem := (List.dropWhile_suffix _).subset (List.mem_reverse.mp hc)
      exact hn c (List.mem_cons_of_mem _ (List.mem_reverse.mp hmem))

end numeral

theorem isNumberChar_floatText {x : Float} {e : Expansion} (hx : expand x = .finite e) :
    ∀ c ∈ (floatText x).toList, isNumberChar c = true := by
  have hdigits : ∀ c ∈ (shortestNumeral e).digits, isNumberChar c = true := by
    unfold shortestNumeral
    split
    · simp [isNumberChar]
    · exact isNumberChar_trimZeros fun c hc =>
        isNumberChar_of_isDigit (isDigit_of_mem_toDigits hc)
  have hbody := isNumberChar_write hdigits
  intro c hc
  unfold floatText at hc
  rw [hx, String.toList_ofList] at hc
  split at hc
  · rcases List.mem_cons.mp hc with rfl | hc
    · decide
    · exact hbody c hc
  · exact hbody c hc

/-! ### The text of a whole number -/

theorem plainDigits_of_isDigit (h : ∀ c ∈ cs, c.isDigit = true) :
    plainDigits cs = (cs.map fun c => c.toNat - '0'.toNat, []) := by
  induction cs with
  | nil => rfl
  | cons c cs ih =>
    rw [plainDigits, digitValue?_ascii (h c List.mem_cons_self),
      ih fun c hc => h c (List.mem_cons_of_mem _ hc)]
    rfl

/-- The literal of an integer. -/
def integerLiteral (v : Int) : DecimalLiteral :=
  ⟨decide (v < 0), (Nat.toDigits 10 v.natAbs).map fun c => c.toNat - '0'.toNat, [], 0⟩

theorem leadingUnsigned_toString (v : Int) :
    leadingUnsigned groupedDigits (leadingSign (toString v).toList).1
      (leadingSign (toString v).toList).2 = some (integerLiteral v, []) := by
  rw [leadingSign_toString]
  dsimp only
  have hdigits : ∀ c ∈ Nat.toDigits 10 v.natAbs, c.isDigit = true := fun c hc =>
    isDigit_of_mem_toDigits hc
  have hgroup := groupedDigits_eq_plainDigits fun c hc =>
    (isNumberChar_spec (isNumberChar_of_isDigit (hdigits c hc))).2.1
  rw [plainDigits_of_isDigit hdigits] at hgroup
  rw [leadingUnsigned_whole _ _ hgroup (by simp), if_neg (by simp)]
  rfl

theorem isNumberChar_toString (v : Int) : ∀ c ∈ (toString v).toList, isNumberChar c = true := by
  intro c hc
  rw [toList_toString] at hc
  rcases List.mem_append.mp hc with hc | hc
  · split at hc
    · rw [List.mem_singleton.mp hc]
      decide
    · cases hc
  · exact isNumberChar_of_isDigit (isDigit_of_mem_toDigits hc)

theorem toFloat_integerLiteral {v : Int} (hv : v.natAbs < powTen 400) :
    (integerLiteral v).toFloat =
      if v = 0 then 0.0
      else (nearest? (decide (v < 0)) v.natAbs 1).getD (infinite (decide (v < 0))) := by
  have hdigits : (integerLiteral v).digits = v.natAbs := by
    rw [DecimalLiteral.digits, integerLiteral, List.append_nil, ofDigits_toDigits]
  have hscale : (integerLiteral v).scale = 0 := rfl
  have hlength : (Nat.toDigits 10 v.natAbs).length ≤ 400 := length_toDigits_le (by decide) hv
  unfold DecimalLiteral.toFloat
  dsimp only
  rw [hdigits, hscale]
  by_cases hzero : v = 0
  · subst hzero
    rfl
  · have hten : scaleTen v.natAbs 1 (-0) = (v.natAbs, 1) := rfl
    rw [if_neg hzero, if_neg, if_neg, hten]
    · rfl
    · simp
      omega
    · simp [hzero]
      omega

theorem expand_bounds {x : Float} {e : Expansion} (hx : expand x = .finite e) :
    e.significand < 2 ^ 53 ∧ e.exponent ≤ 971 := by
  have h52 : powTwo 52 = 2 ^ 52 := rfl
  have hfraction : x.toBits.toNat % powTwo 52 < 2 ^ 52 := Nat.mod_lt _ (by decide)
  have hfield : x.toBits.toNat / powTwo 52 % powTwo 11 < 2 ^ 11 := Nat.mod_lt _ (by decide)
  unfold expand Pattern.ofBits at hx
  dsimp only at hx
  split at hx
  · split at hx <;> cases hx
  next hfinite =>
  rw [beq_iff_eq] at hfinite
  split at hx
  · cases hx
    dsimp only
    omega
  · cases hx
    dsimp only
    omega

theorem two_pow_le_powTen {n k : Nat} (h : n ≤ 13 * k) : 2 ^ n ≤ powTen (4 * k) := by
  refine (Nat.pow_le_pow_right (by decide) h).trans ?_
  show 2 ^ (13 * k) ≤ 10 ^ (4 * k)
  rw [Nat.pow_mul, Nat.pow_mul]
  exact Nat.pow_le_pow_left (by decide) k

/-- A finite whole number has no more digits than are read. -/
theorem lt_powTen_of_expand {x : Float} {e : Expansion} (hx : expand x = .finite e) {k : Nat}
    (hk : e.fraction.1 = k * e.fraction.2) : k < powTen 400 := by
  obtain ⟨hsignificand, hexponent⟩ := expand_bounds hx
  have hle : k ≤ e.significand * 2 ^ e.exponent.toNat := by
    unfold Expansion.fraction at hk
    split at hk
    · dsimp only [Nat.pow_eq] at hk
      have hsmall : k ≤ e.significand := hk ▸ Nat.le_mul_of_pos_right k (Nat.two_pow_pos _)
      exact hsmall.trans (Nat.le_mul_of_pos_right _ (Nat.two_pow_pos _))
    · dsimp only [Nat.pow_eq] at hk
      rw [hk, Nat.mul_one]
  have hlt : e.significand * 2 ^ e.exponent.toNat < 2 ^ (53 + e.exponent.toNat) := by
    rw [Nat.pow_add]
    exact Nat.mul_lt_mul_of_pos_right hsignificand (Nat.two_pow_pos _)
  have hten : 2 ^ (53 + e.exponent.toNat) ≤ powTen (4 * 100) := two_pow_le_powTen (by omega)
  rw [show 400 = 4 * 100 from rfl]
  exact (hle.trans_lt hlt).trans_le hten

/-- The integer part of a whole number is read back as the number, or as the other zero. -/
theorem toFloat_truncate {x : Float} {e : Expansion} (hx : expand x = .finite e)
    (hwhole : isInteger x = true) :
    ∃ v, truncate? x = some v ∧
      Extended.ofFloat (integerLiteral v).toFloat = Extended.ofFloat x := by
  obtain ⟨k, hquotient⟩ : ∃ k, e.fraction.1 / e.fraction.2 = k := ⟨_, rfl⟩
  have hk : e.fraction.1 = k * e.fraction.2 := by
    unfold isInteger at hwhole
    rw [hx] at hwhole
    dsimp only at hwhole
    rw [beq_iff_eq] at hwhole
    rw [← hquotient]
    exact (Nat.div_mul_cancel (Nat.dvd_of_mod_eq_zero hwhole)).symm
  have htruncate : truncate? x = some (if e.negative then -(k : Int) else k) := by
    unfold truncate?
    rw [hx, ← hquotient]
  refine ⟨_, htruncate, ?_⟩
  have habs : (if e.negative then -(k : Int) else k).natAbs = k := by split <;> omega
  have hbound : (if e.negative then -(k : Int) else k).natAbs < powTen 400 := by
    rw [habs]
    exact lt_powTen_of_expand hx hk
  rw [toFloat_integerLiteral hbound]
  by_cases hzero : k = 0
  · have hfloat : Extended.ofFloat 0.0 = .finite 0 := by decide +kernel
    subst hzero
    rw [Nat.zero_mul] at hk
    rw [if_pos (by split <;> rfl), hfloat, Extended.ofFloat, hx]
    simp [Expansion.toRat, hk]
  · have hsign : decide ((if e.negative then -(k : Int) else k) < 0) = e.negative := by
      cases e.negative
      · simp
      · simp
        omega
    have hne : (if e.negative then -(k : Int) else k) ≠ 0 := by split <;> omega
    rw [if_neg hne, hsign, habs, nearest?_whole hx hk hzero, Option.getD_some]

/-- The text of a finite number is read back as a number of the same value, also in front of a
blank. The law of the shortest digits is a hypothesis: that the text on its own reads as the
number. -/
theorem readDecimal_floatText {x : Float} {e : Expansion} (hx : expand x = .finite e)
    (hlaw : wholeFloat? (floatText x).toList = some x) (hr : Stops rest) :
    ∃ y, NumberReader.readDecimal ((Canonical.floatText x).toList ++ rest) =
        .ok (some (.real y, rest)) ∧ Extended.ofFloat y = Extended.ofFloat x := by
  unfold Canonical.floatText
  split
  · next hwhole =>
    rw [Bool.and_eq_true] at hwhole
    obtain ⟨v, hv, hvalue⟩ := toFloat_truncate hx hwhole.1
    have hread := readDecimal_append (isNumberChar_toString v) (leadingUnsigned_toString v) hr
    rw [hv, Option.getD_some]
    exact ⟨_, hread, hvalue⟩
  · obtain ⟨l, hl, hlx⟩ := leadingUnsigned_of_wholeFloat? (isNumberChar_floatText hx) hlaw
    have hread := readDecimal_append (isNumberChar_floatText hx) hl hr
    rw [hlx] at hread
    exact ⟨x, hread, rfl⟩

end UnitCalculus.Decimal
