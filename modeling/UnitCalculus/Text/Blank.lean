/-! # Blank characters

The code points that separate words: the ASCII separators, the information separators, and the
space, line and paragraph separators of Unicode.  Trimming removes them from the ends of a text.
`trimBlank` of a text that neither starts nor ends with a blank is that text (`trimBlank_eq_self`). -/

namespace UnitCalculus.Text

/-- Whether `c` separates words. -/
def isBlank (c : Char) : Bool :=
  let n := c.toNat
  (0x9 ≤ n && n ≤ 0xd) || (0x1c ≤ n && n ≤ 0x20) || n == 0x85 || n == 0xa0 || n == 0x1680 ||
    (0x2000 ≤ n && n ≤ 0x200a) || n == 0x2028 || n == 0x2029 || n == 0x202f || n == 0x205f ||
    n == 0x3000

/-- The text without its leading blanks. -/
def trimLeft (cs : List Char) : List Char :=
  cs.dropWhile isBlank

/-- The text without its trailing blanks. -/
def trimRight (cs : List Char) : List Char :=
  (cs.reverse.dropWhile isBlank).reverse

/-- The text without the blanks at either end. -/
def trimBlank (cs : List Char) : List Char :=
  trimRight (trimLeft cs)

/-- A string without the blanks at either end. -/
def trim (s : String) : String :=
  String.ofList (trimBlank s.toList)

/-! ### Trimming -/

section trimming

variable {c : Char} {cs : List Char}

theorem trimLeft_eq_self (h : ∀ c ∈ cs.head?, isBlank c = false) : trimLeft cs = cs := by
  cases cs with
  | nil => rfl
  | cons c r => simp [trimLeft, h c rfl]

theorem trimRight_eq_self (h : ∀ c ∈ cs.getLast?, isBlank c = false) : trimRight cs = cs := by
  have := @trimLeft_eq_self cs.reverse (by simpa using h)
  simp only [trimLeft] at this
  rw [trimRight, this, List.reverse_reverse]

theorem trimBlank_eq_self (hl : ∀ c ∈ cs.head?, isBlank c = false)
    (hr : ∀ c ∈ cs.getLast?, isBlank c = false) : trimBlank cs = cs := by
  rw [trimBlank, trimLeft_eq_self hl, trimRight_eq_self hr]

/-- Removing characters from the end keeps what the text starts with. -/
theorem isPrefix_reverse_dropWhile (p : Char → Bool) (cs : List Char) :
    (cs.reverse.dropWhile p).reverse <+: cs := by
  have hsuffix := List.reverse_prefix.mpr (List.dropWhile_suffix p (l := cs.reverse))
  rwa [List.reverse_reverse] at hsuffix

theorem isBlank_head_trimBlank (cs : List Char) :
    ∀ c ∈ (trimBlank cs).head?, isBlank c = false := by
  intro c hc
  obtain ⟨r, hr⟩ := isPrefix_reverse_dropWhile isBlank (trimLeft cs)
  have hhead := List.head?_dropWhile_not isBlank cs
  rw [← trimLeft, ← hr, List.head?_append, ← trimRight, ← trimBlank, hc] at hhead
  exact hhead

/-- A character that the predicate does not hold of is not dropped. -/
theorem mem_dropWhile_iff {p : Char → Bool} (hc : p c = false) : c ∈ cs.dropWhile p ↔ c ∈ cs := by
  refine ⟨(List.dropWhile_sublist p).mem, fun h => ?_⟩
  rw [← List.takeWhile_append_dropWhile (p := p) (l := cs), List.mem_append] at h
  refine h.resolve_left fun hprefix => ?_
  rw [List.all_eq_true.mp List.all_takeWhile c hprefix] at hc
  cases hc

theorem mem_trimRight_iff (hc : isBlank c = false) : c ∈ trimRight cs ↔ c ∈ cs := by
  rw [trimRight, List.mem_reverse, mem_dropWhile_iff hc, List.mem_reverse]

theorem mem_trimBlank_iff (hc : isBlank c = false) : c ∈ trimBlank cs ↔ c ∈ cs := by
  rw [trimBlank, mem_trimRight_iff hc, trimLeft, mem_dropWhile_iff hc]

theorem trimRight_concat (hc : isBlank c = true) : trimRight (cs ++ [c]) = trimRight cs := by
  simp [trimRight, hc]

theorem trimBlank_concat (hc : isBlank c = true) : trimBlank (cs ++ [c]) = trimBlank cs := by
  rw [trimBlank, trimLeft, List.dropWhile_append]
  split
  · next hnil =>
    rw [List.dropWhile_cons_of_pos hc, trimBlank, trimLeft, List.isEmpty_iff.mp hnil]
    rfl
  · exact trimRight_concat hc

/-- Trimming does not go past a character that is no blank. -/
theorem trimLeft_append_cons (hc : isBlank c = false) (as bs : List Char) :
    trimLeft (as ++ c :: bs) = trimLeft as ++ c :: bs := by
  rw [trimLeft, List.dropWhile_append]
  split
  · next hnil =>
    rw [List.dropWhile_cons_of_neg (by simp [hc]), trimLeft, List.isEmpty_iff.mp hnil]
    rfl
  · rfl

theorem trimRight_append_cons (hc : isBlank c = false) (as bs : List Char) :
    trimRight (as ++ c :: bs) = as ++ c :: trimRight bs := by
  have hreverse : (as ++ c :: bs).reverse = bs.reverse ++ c :: as.reverse := by simp
  have htrim := trimLeft_append_cons hc bs.reverse as.reverse
  rw [trimRight, hreverse, ← trimLeft, htrim]
  simp [trimRight, trimLeft]

end trimming

end UnitCalculus.Text
