import UnitCalculus.Exponent
import UnitCalculus.Proofs.Decimal.LeadingNumbers

/-! # The text of an exponent

An exponent is written as an integer or as two integers with a slash between them.  Digits and signs
are no slashes, so the text tells the two forms and their parts apart: no two exponents share a text
(`text_injective`).  Unless a part has too many digits, the exponent is read back from it
(`ofText?_text`). -/

namespace UnitCalculus.Exponent

open UnitCalculus.Text UnitCalculus.Decimal

variable {q r : Rat}

/-! ### The parts of the text -/

theorem slash_notMem_toString (n : Int) : '/' ∉ (toString n).toList := by
  intro h
  exact absurd (isNumberChar_toString n '/' h) (by decide)

theorem toList_text_of_den_eq_one (h : q.den = 1) : (text q).toList = (toString q.num).toList := by
  rw [text, if_pos (beq_iff_eq.mpr h)]

theorem toList_text_of_den_ne_one (h : q.den ≠ 1) :
    (text q).toList = (toString q.num).toList ++ '/' :: (toString (q.den : Int)).toList := by
  rw [text, if_neg (by simpa using h), String.toList_append, String.toList_append,
    List.append_assoc]
  rfl

theorem slash_mem_text_iff : '/' ∈ (text q).toList ↔ q.den ≠ 1 := by
  by_cases h : q.den = 1
  · rw [toList_text_of_den_eq_one h]
    exact iff_of_false (slash_notMem_toString q.num) (not_not_intro h)
  · rw [toList_text_of_den_ne_one h]
    exact iff_of_true (by simp) h

/-- The characters of an exponent are those of numbers, and slashes. -/
theorem isNumberChar_of_mem_text {c : Char} (hc : c ∈ (text q).toList) :
    isNumberChar c = true ∨ c = '/' := by
  by_cases h : q.den = 1
  · rw [toList_text_of_den_eq_one h] at hc
    exact .inl (isNumberChar_toString _ c hc)
  · rw [toList_text_of_den_ne_one h] at hc
    rcases List.mem_append.mp hc with hc | hc
    · exact .inl (isNumberChar_toString _ c hc)
    · rcases List.mem_cons.mp hc with rfl | hc
      · exact .inr rfl
      · exact .inl (isNumberChar_toString _ c hc)

theorem notMem_text {c : Char} (hnumber : isNumberChar c = false) (hslash : c ≠ '/') :
    c ∉ (text q).toList := by
  intro hc
  rcases isNumberChar_of_mem_text hc with h | h
  · exact absurd (h.symm.trans hnumber) (by decide)
  · exact hslash h

/-- No two exponents have the same text. -/
theorem text_injective : Function.Injective text := by
  intro q r h
  have hden : q.den = 1 ↔ r.den = 1 := by
    rw [← not_iff_not, ← ne_eq, ← ne_eq, ← slash_mem_text_iff, ← slash_mem_text_iff, h]
  have hlist : (text q).toList = (text r).toList := by rw [h]
  by_cases hq : q.den = 1
  · have hr := hden.mp hq
    rw [toList_text_of_den_eq_one hq, toList_text_of_den_eq_one hr, String.toList_inj] at hlist
    exact Rat.ext (Int.repr_injective hlist) (hq.trans hr.symm)
  · have hr : r.den ≠ 1 := fun hr => hq (hden.mpr hr)
    rw [toList_text_of_den_ne_one hq, toList_text_of_den_ne_one hr,
      List.append_cons_inj_of_notMem] at hlist
    · obtain ⟨hnum, -, hdens⟩ := hlist
      rw [String.toList_inj] at hnum hdens
      exact Rat.ext (Int.repr_injective hnum) (Int.ofNat_inj.mp (Int.repr_injective hdens))
    · exact slash_notMem_toString _
    · exact slash_notMem_toString _

/-! ### Reading the text back -/

/-- The digits of an integer, as numbers. -/
def digitsOf (n : Int) : List ℕ := (Nat.toDigits 10 n.natAbs).map fun c => c.toNat - '0'.toNat

theorem digitsOf_ne_nil (n : Int) : digitsOf n ≠ [] := by
  simp [digitsOf]

theorem ofDigits_digitsOf (n : Int) : ofDigits (digitsOf n) = n.natAbs :=
  ofDigits_toDigits n.natAbs

theorem length_digitsOf_le {n : Int} (h : Decimal.isWritable n = true) :
    (digitsOf n).length ≤ maxDigits := by
  rw [digitsOf, List.length_map]
  exact length_toDigits_le (by decide) (of_decide_eq_true h)

theorem leadingSign_toString_append (n : Int) (rest : List Char) :
    leadingSign ((toString n).toList ++ rest) =
      (decide (n < 0), Nat.toDigits 10 n.natAbs ++ rest) := by
  rw [toList_toString]
  split
  · next h =>
    rw [decide_eq_true h]
    rfl
  · next h =>
    obtain ⟨c, cs, hcs⟩ :=
      List.exists_cons_of_ne_nil (Nat.toDigits_ne_nil (n := n.natAbs) (b := 10))
    have hdigit : c.isDigit = true := isDigit_of_mem_toDigits (n := n.natAbs) (by simp [hcs])
    rw [List.nil_append, hcs, List.cons_append, leadingSign_of_isDigit hdigit, decide_eq_false h]

theorem spells_of_isDigit {cs : List Char} (h : ∀ c ∈ cs, c.isDigit = true) :
    Spells cs (cs.map fun c => c.toNat - '0'.toNat) := by
  induction cs with
  | nil => exact .nil
  | cons c cs ih =>
    exact .digit (digitValue?_ascii (h c List.mem_cons_self))
      (ih fun b hb => h b (List.mem_cons_of_mem c hb))

/-- The digits of an integer are read up to a character that is no digit. -/
theorem groupedDigits_toDigits (n : Int) {rest : List Char}
    (hrest : ¬ Heads (charsOf isGroupChar) rest) :
    groupedDigits (Nat.toDigits 10 n.natAbs ++ rest) = (digitsOf n, rest) := by
  have hdigit : ∀ c ∈ Nat.toDigits 10 n.natAbs, c.isDigit = true := fun c hc =>
    isDigit_of_mem_toDigits hc
  have hplain : withoutUnderscores (Nat.toDigits 10 n.natAbs) = Nat.toDigits 10 n.natAbs := by
    refine List.filter_eq_self.mpr fun c hc => bne_iff_ne.mpr ?_
    exact (isNumberChar_spec (isNumberChar_of_isDigit (hdigit c hc))).2.1
  have hread := groupedDigits_of_spells (spells_of_isDigit hdigit) hrest
  rwa [hplain] at hread

theorem not_heads_slash (cs : List Char) : ¬ Heads (charsOf isGroupChar) ('/' :: cs) := by
  rintro ⟨c, r, hc, hgroup⟩
  obtain ⟨rfl, -⟩ := List.cons.inj hc
  have hslash : isGroupChar '/' = true := hgroup
  exact absurd hslash (by decide)

theorem trimBlank_text (q : Rat) : trimBlank (text q).toList = (text q).toList := by
  have hblank : ∀ c ∈ (text q).toList, isBlank c = false := by
    intro c hc
    rcases isNumberChar_of_mem_text hc with h | rfl
    · exact (isNumberChar_spec h).1
    · decide
  exact trimBlank_eq_self (fun c hc => hblank c (List.mem_of_mem_head? hc))
    (fun c hc => hblank c (List.mem_of_getLast? hc))

/-- The sign and the absolute value make the number. -/
theorem signed_natAbs (q : Rat) : signed (decide (q.num < 0)) (mkRat q.num.natAbs q.den) = q := by
  unfold signed
  split
  · next h =>
    have habs : (q.num.natAbs : Int) = -q.num := by
      have hneg : q.num < 0 := by simpa using h
      omega
    rw [habs, Rat.neg_mkRat, neg_neg, Rat.mkRat_self]
  · next h =>
    have habs : (q.num.natAbs : Int) = q.num := by
      have hpos : ¬ q.num < 0 := by simpa using h
      omega
    rw [habs, Rat.mkRat_self]

/-- The literal of an integer stands for its absolute value with its sign. -/
theorem ofDecimal?_integerLiteral {n : Int} (h : Decimal.isWritable n = true) :
    ofDecimal? (integerLiteral n) = some (signed (decide (n < 0)) n.natAbs) := by
  have hwhole : (integerLiteral n).whole.length ≤ maxDigits := length_digitsOf_le h
  have hdigits : (integerLiteral n).digits = n.natAbs := by
    rw [DecimalLiteral.digits, integerLiteral, List.append_nil, ofDigits_toDigits]
  have hten : tenPow 0 = 1 := rfl
  unfold ofDecimal?
  rw [if_neg (by simpa [integerLiteral] using hwhole), hdigits]
  simp only [integerLiteral, List.length_nil, Nat.cast_zero, neg_zero, hten, mul_one]

theorem ofFraction?_digitsOf {n d : Int} (hn : Decimal.isWritable n = true)
    (hd : Decimal.isWritable d = true) (hne : d ≠ 0) :
    ofFraction? (decide (n < 0)) (digitsOf n) (digitsOf d) =
      some (signed (decide (n < 0)) (mkRat n.natAbs d.natAbs)) := by
  have hlength := length_digitsOf_le hn
  have hlength' := length_digitsOf_le hd
  unfold ofFraction?
  rw [if_neg (by simpa using ⟨hlength, hlength'⟩), ofDigits_digitsOf, ofDigits_digitsOf,
    if_neg (by simpa using hne)]

/-- A positive integer is its digits. -/
theorem toList_toString_natCast (d : ℕ) :
    (toString (d : Int)).toList = Nat.toDigits 10 (d : Int).natAbs := by
  rw [toList_toString, if_neg (by omega), List.nil_append]

/-- An exponent is read back from its text, if that has not too many digits. -/
theorem ofText?_text (h : isWritable q = true) : ofText? (text q) = some q := by
  obtain ⟨hnum, hden⟩ := Bool.and_eq_true_iff.mp h
  obtain ⟨n, ns, hn⟩ := List.exists_cons_of_ne_nil (digitsOf_ne_nil q.num)
  have hsigned := signed_natAbs q
  unfold ofText?
  rw [trimBlank_text]
  by_cases hone : q.den = 1
  · have hgroup := groupedDigits_toDigits q.num not_heads_nil
    have hliteral := leadingUnsigned_toString q.num
    rw [List.append_nil, hn] at hgroup
    rw [leadingSign_toString] at hliteral
    dsimp only at hliteral
    rw [toList_text_of_den_eq_one hone, leadingSign_toString]
    dsimp only
    rw [hgroup]
    dsimp only
    rw [hliteral]
    dsimp only
    rw [hone, Rat.mkRat_one] at hsigned
    rw [ofDecimal?_integerLiteral hnum]
    exact congrArg some hsigned
  · obtain ⟨d, ds, hd⟩ := List.exists_cons_of_ne_nil (digitsOf_ne_nil q.den)
    have hgroup := groupedDigits_toDigits q.den not_heads_nil
    have hvalue := ofFraction?_digitsOf hnum hden (Int.ofNat_ne_zero.mpr q.den_nz)
    rw [List.append_nil, ← toList_toString_natCast, hd] at hgroup
    rw [hn, hd, Int.natAbs_natCast, hsigned] at hvalue
    rw [toList_text_of_den_ne_one hone, leadingSign_toString_append]
    dsimp only
    rw [groupedDigits_toDigits q.num (not_heads_slash _), hn]
    simp only [hgroup]
    exact hvalue

end UnitCalculus.Exponent
