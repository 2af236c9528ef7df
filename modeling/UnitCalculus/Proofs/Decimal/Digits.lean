import UnitCalculus.Expression.Token

/-! # Integers in digits

An integer that is not too long to be written is read back from its digits
(`Token.integerValue?_toString`). -/

namespace UnitCalculus.Decimal

open UnitCalculus.Text

theorem isDigit_of_mem_toDigits {n : Nat} {c : Char} (h : c ∈ Nat.toDigits 10 n) :
    c.isDigit = true :=
  Nat.isDigit_of_mem_toDigits (by decide) (by decide) h

theorem ofDigits_toDigits (n : Nat) :
    ofDigits ((Nat.toDigits 10 n).map fun c => c.toNat - '0'.toNat) = n := by
  have h : Nat.ofDigitChars 10 (Nat.toDigits 10 n) 0 = n := Nat.ofDigitChars_ten_toDigits
  rw [Nat.ofDigitChars_eq_foldl] at h
  rw [ofDigits, List.foldl_map]
  exact h

theorem length_toDigits_le {n k : Nat} (hk : 0 < k) (h : n < powTen k) :
    (Nat.toDigits 10 n).length ≤ k :=
  (Nat.length_toDigits_le_iff (by decide) hk).mpr h

theorem powTen_le {k l : Nat} (h : k ≤ l) : powTen k ≤ powTen l :=
  Nat.pow_le_pow_right (by decide) h

theorem isWritable_of_lt {n : Int} (h : n.natAbs < powTen 300) : isWritable n = true := by
  have hle := powTen_le (show 300 ≤ maxDigits by decide)
  exact decide_eq_true (Nat.lt_of_lt_of_le h hle)

/-- The characters of an integer: a minus if it is negative, and the digits. -/
theorem toList_toString (n : Int) :
    (toString n).toList = (if n < 0 then ['-'] else []) ++ Nat.toDigits 10 n.natAbs := by
  rw [Int.toString_eq_repr, Int.repr_eq_if]
  split
  · next h =>
    rw [if_neg (by omega), Nat.toList_repr, List.nil_append]
    congr 1
    omega
  · next h =>
    rw [if_pos (by omega), String.toList_append, Nat.toList_repr]
    congr 2
    omega

theorem leadingSign_of_isDigit {c : Char} (h : c.isDigit = true) (cs : List Char) :
    leadingSign (c :: cs) = (false, c :: cs) := by
  unfold leadingSign
  split
  · next heq =>
    obtain ⟨rfl, -⟩ := List.cons.inj heq
    exact absurd h (by decide)
  · next heq =>
    obtain ⟨rfl, -⟩ := List.cons.inj heq
    exact absurd h (by decide)
  · rfl

theorem leadingSign_toDigits (n : Nat) :
    leadingSign (Nat.toDigits 10 n) = (false, Nat.toDigits 10 n) := by
  cases h : Nat.toDigits 10 n with
  | nil => exact absurd h Nat.toDigits_ne_nil
  | cons c cs =>
    have hc : c ∈ Nat.toDigits 10 n := by
      rw [h]
      exact List.mem_cons_self
    exact leadingSign_of_isDigit (isDigit_of_mem_toDigits hc) cs

theorem leadingSign_toString (n : Int) :
    leadingSign (toString n).toList = (decide (n < 0), Nat.toDigits 10 n.natAbs) := by
  rw [toList_toString]
  split
  · next h =>
    rw [decide_eq_true h]
    rfl
  · next h =>
    rw [List.nil_append, leadingSign_toDigits, decide_eq_false h]

/-- The value of a sign and the digits of an integer. -/
theorem signedValue_toDigits {n : Int} (h : isWritable n = true) :
    signedValue (decide (n < 0)) ((Nat.toDigits 10 n.natAbs).map fun c => c.toNat - '0'.toNat) =
      some n := by
  unfold isWritable at h
  have hlength := length_toDigits_le (by decide) (of_decide_eq_true h)
  clear h
  unfold signedValue
  rw [if_neg (by simpa using hlength), ofDigits_toDigits]
  by_cases hn : n < 0
  · rw [if_pos (by simpa using hn)]
    congr 1
    omega
  · rw [if_neg (by simpa using hn)]
    congr 1
    omega

end UnitCalculus.Decimal

namespace UnitCalculus.Token

open UnitCalculus.Decimal

theorem integerValue?_toString {n : Int} (h : isWritable n = true) :
    integerValue? (toString n).toList = some n := by
  have hne : (Nat.toDigits 10 n.natAbs).isEmpty = false := by simp
  have hall : (Nat.toDigits 10 n.natAbs).all Char.isDigit = true :=
    List.all_eq_true.mpr fun c hc => isDigit_of_mem_toDigits hc
  unfold integerValue?
  rw [leadingSign_toString]
  dsimp only
  rw [hne, hall]
  exact signedValue_toDigits h

end UnitCalculus.Token
