import Mathlib

/-! # The longest prefix in a language

A text is read from its front: a prefix of it is in a language, and the rest is left (`Leaves`).
The longest such prefix of a concatenation need not start with the longest one of its first part.
It does if the second part starts with none of the characters that the shorter prefixes leave in
front (`Longest.mul`); so `Longest` keeps account of these characters. -/

namespace UnitCalculus.Text

open scoped Computability

variable {L M : Language Char} {C D : Set Char} {cs pre rest r s : List Char} {c : Char}
  {p : Char → Bool}

/-- A prefix of the text is in the language, and what is left is the rest. -/
def Leaves (L : Language Char) (cs rest : List Char) : Prop := ∃ w ∈ L, w ++ rest = cs

/-- No prefix of the text is in the language. -/
def Fails (L : Language Char) (cs : List Char) : Prop := ∀ rest, ¬ Leaves L cs rest

/-- The prefix is the longest one in the language. -/
structure IsLongestPrefix (L : Language Char) (cs pre rest : List Char) : Prop where
  append : pre ++ rest = cs
  mem : pre ∈ L
  longest : ∀ w, w <+: cs → w ∈ L → w.length ≤ pre.length

/-- The text starts with one of the characters. -/
def Heads (C : Set Char) (cs : List Char) : Prop := ∃ c r, cs = c :: r ∧ c ∈ C

/-- Every text of the language starts with one of the characters; none is empty. -/
def Starts (L : Language Char) (C : Set Char) : Prop := ∀ w ∈ L, Heads C w

/-- What the longest prefix in the language leaves; what shorter ones leave starts with one of the
characters. -/
structure Longest (L : Language Char) (C : Set Char) (cs rest : List Char) : Prop where
  leaves : Leaves L cs rest
  others : ∀ r, Leaves L cs r → r = rest ∨ rest.length ≤ r.length ∧ Heads C r

/-- Of a text that starts with one of the characters, only the empty prefix may be in the
language. -/
def Idle (M : Language Char) (C : Set Char) : Prop :=
  ∀ cs r, Heads C cs → Leaves M cs r → r = cs

/-- The characters of a class. -/
def charsOf (p : Char → Bool) : Set Char := {c | p c = true}

/-- The texts of one character of a class. -/
def char (p : Char → Bool) : Language Char := (fun c => [c]) '' charsOf p

/-! ### Prefixes -/

theorem Leaves.length_le (h : Leaves L cs rest) : rest.length ≤ cs.length := by
  obtain ⟨w, -, rfl⟩ := h
  rw [List.length_append]
  exact Nat.le_add_left _ _

theorem leaves_one_iff : Leaves 1 cs rest ↔ rest = cs := by
  constructor
  · rintro ⟨w, rfl, h⟩
    exact h
  · rintro rfl
    exact ⟨[], rfl, rfl⟩

theorem leaves_add_iff : Leaves (L + M) cs rest ↔ Leaves L cs rest ∨ Leaves M cs rest := by
  constructor
  · rintro ⟨w, hw | hw, h⟩
    · exact .inl ⟨w, hw, h⟩
    · exact .inr ⟨w, hw, h⟩
  · rintro (⟨w, hw, h⟩ | ⟨w, hw, h⟩)
    · exact ⟨w, .inl hw, h⟩
    · exact ⟨w, .inr hw, h⟩

theorem leaves_mul_iff : Leaves (L * M) cs rest ↔ ∃ s, Leaves L cs s ∧ Leaves M s rest := by
  constructor
  · rintro ⟨w, hw, rfl⟩
    obtain ⟨a, ha, b, hb, rfl⟩ := Language.mem_mul.mp hw
    exact ⟨b ++ rest, ⟨a, ha, (List.append_assoc a b rest).symm⟩, b, hb, rfl⟩
  · rintro ⟨s, ⟨a, ha, rfl⟩, b, hb, rfl⟩
    exact ⟨a ++ b, Language.append_mem_mul ha hb, List.append_assoc a b rest⟩

theorem leaves_char_iff : Leaves (char p) cs rest ↔ ∃ c, p c = true ∧ cs = c :: rest := by
  constructor
  · rintro ⟨_, ⟨c, hc, rfl⟩, rfl⟩
    exact ⟨c, hc, rfl⟩
  · rintro ⟨c, hc, rfl⟩
    exact ⟨[c], ⟨c, hc, rfl⟩, rfl⟩

theorem fails_iff : Fails L cs ↔ ∀ w, w <+: cs → w ∉ L := by
  constructor
  · rintro h w ⟨rest, hw⟩ hL
    exact h rest ⟨w, hL, hw⟩
  · rintro h rest ⟨w, hL, hw⟩
    exact h w ⟨rest, hw⟩ hL

theorem Longest.isLongestPrefix (h : Longest L C (pre ++ rest) rest) :
    IsLongestPrefix L (pre ++ rest) pre rest where
  append := rfl
  mem := by
    obtain ⟨w, hw, happend⟩ := h.leaves
    rwa [← List.append_cancel_right happend]
  longest := by
    rintro w ⟨r, hcs⟩ hw
    have hlength : rest.length ≤ r.length := by
      rcases h.others r ⟨w, hw, hcs⟩ with rfl | ⟨hle, -⟩
      · exact Nat.le_refl _
      · exact hle
    have htotal := congrArg List.length hcs
    rw [List.length_append, List.length_append] at htotal
    omega

/-- A reader that either fails with the language or comes to the end of the longest prefix. -/
theorem longest_or_fails {A : Prop} {P : List Char → List Char → Prop}
    (h : Fails L cs ∧ A ∨ ∃ pre rest, pre ++ rest = cs ∧ Longest L C cs rest ∧ P pre rest)
    (hP : ∀ pre rest, P pre rest → ¬ A) :
    (A ↔ ∀ w, w <+: cs → w ∉ L) ∧
      ((∃ w, w <+: cs ∧ w ∈ L) → ∃ pre rest, IsLongestPrefix L cs pre rest ∧ P pre rest) := by
  rcases h with ⟨hfails, hA⟩ | ⟨pre, rest, rfl, hlongest, hend⟩
  · have hnone := fails_iff.mp hfails
    exact ⟨iff_of_true hA hnone, fun ⟨w, hw, hL⟩ => absurd hL (hnone w hw)⟩
  · have hprefix := hlongest.isLongestPrefix
    refine ⟨iff_of_false (hP pre rest hend) fun hnone => ?_, fun _ => ⟨pre, rest, hprefix, hend⟩⟩
    exact hnone pre (List.prefix_append pre rest) hprefix.mem

/-! ### First characters -/

theorem Heads.not (h : Heads C cs) (hCD : Disjoint C D) : ¬ Heads D cs := by
  rintro ⟨d, _, rfl, hd⟩
  obtain ⟨c, _, heq, hc⟩ := h
  cases heq
  exact Set.disjoint_left.mp hCD hc hd

theorem Heads.mono (h : Heads C cs) (hCD : C ⊆ D) : Heads D cs := by
  obtain ⟨c, r, heq, hc⟩ := h
  exact ⟨c, r, heq, hCD hc⟩

theorem not_heads_nil : ¬ Heads C [] := fun ⟨_, _, heq, _⟩ => nomatch heq

theorem not_heads_of_forall (h : ∀ c ∈ cs, c ∉ C) : ¬ Heads C cs := by
  rintro ⟨c, r, rfl, hc⟩
  exact h c List.mem_cons_self hc

theorem Heads.of_append (h : Heads C (r ++ s)) : Heads C r ∨ Heads C s := by
  obtain ⟨c, t, heq, hc⟩ := h
  cases r with
  | nil => exact .inr ⟨c, t, heq, hc⟩
  | cons d r =>
    cases heq
    exact .inl ⟨c, r, rfl, hc⟩

theorem starts_char (p : Char → Bool) : Starts (char p) (charsOf p) := by
  rintro _ ⟨c, hc, rfl⟩
  exact ⟨c, [], rfl, hc⟩

theorem Starts.mul (h : Starts L C) (M : Language Char) : Starts (L * M) C := by
  intro w hw
  obtain ⟨a, ha, b, -, rfl⟩ := Language.mem_mul.mp hw
  obtain ⟨c, r, rfl, hc⟩ := h a ha
  exact ⟨c, r ++ b, rfl, hc⟩

theorem Starts.add (hL : Starts L C) (hM : Starts M D) : Starts (L + M) (C ∪ D) := by
  rintro w (hw | hw)
  · exact (hL w hw).mono Set.subset_union_left
  · exact (hM w hw).mono Set.subset_union_right

theorem Starts.opt_mul (hL : Starts L C) (hM : Starts M D) : Starts ((1 + L) * M) (C ∪ D) := by
  rw [add_mul, one_mul, add_comm]
  exact (hL.mul M).add hM

theorem Starts.fails (h : Starts L C) (hcs : ¬ Heads C cs) : Fails L cs := by
  rintro rest ⟨w, hw, rfl⟩
  obtain ⟨c, r, rfl, hc⟩ := h w hw
  exact hcs ⟨c, r ++ rest, rfl, hc⟩

theorem Starts.fails_nil (h : Starts L C) : Fails L [] :=
  h.fails not_heads_nil

theorem Starts.fails_cons (h : Starts L (charsOf p)) (hc : p c = false) (cs : List Char) :
    Fails L (c :: cs) := by
  refine h.fails ?_
  rintro ⟨d, r, heq, hd⟩
  cases heq
  exact Bool.false_ne_true (hc.symm.trans hd)

theorem Starts.idle (h : Starts M D) (hCD : Disjoint C D) : Idle M C := fun _ r hcs hleaves =>
  absurd hleaves (h.fails (hcs.not hCD) r)

theorem Starts.idle_opt (h : Starts M D) (hCD : Disjoint C D) : Idle (1 + M) C := by
  intro cs r hcs hleaves
  rcases leaves_add_iff.mp hleaves with hone | hmore
  · exact leaves_one_iff.mp hone
  · exact h.idle hCD cs r hcs hmore

theorem idle_empty (M : Language Char) : Idle M ∅ := fun _ _ ⟨_, _, _, h⟩ => h.elim

theorem disjoint_literal (h : p c = false) : Disjoint (charsOf p) (charsOf (· == c)) := by
  refine Set.disjoint_left.mpr fun d hd heq => ?_
  rw [beq_iff_eq.mp heq] at hd
  exact Bool.false_ne_true (h.symm.trans hd)

theorem disjoint_pair {d : Char} (hc : p c = false) (hd : p d = false) :
    Disjoint (charsOf p) (charsOf fun e => e == c || e == d) := by
  have hpair : (charsOf fun e => e == c || e == d) = charsOf (· == c) ∪ charsOf (· == d) :=
    Set.ext fun _ => Bool.or_eq_true_iff
  rw [hpair]
  exact Set.disjoint_union_right.mpr ⟨disjoint_literal hc, disjoint_literal hd⟩

/-! ### The longest prefix of a compound -/

theorem longest_char (hc : p c = true) (cs : List Char) : Longest (char p) ∅ (c :: cs) cs where
  leaves := leaves_char_iff.mpr ⟨c, hc, rfl⟩
  others r hr := by
    obtain ⟨d, -, heq⟩ := leaves_char_iff.mp hr
    cases heq
    exact .inl rfl

theorem longest_literal (c : Char) (cs : List Char) :
    Longest (char (· == c)) ∅ (c :: cs) cs :=
  longest_char (p := (· == c)) (beq_self_eq_true c) cs

theorem Longest.mono (h : Longest L C cs rest) (hCD : C ⊆ D) : Longest L D cs rest where
  leaves := h.leaves
  others r hr := (h.others r hr).imp_right fun ⟨hlength, hheads⟩ => ⟨hlength, hheads.mono hCD⟩

/-- After the longest prefix of the first part comes the longest one of the second, if the second
does not start with what shorter prefixes leave. -/
theorem Longest.mul (hL : Longest L C cs s) (hM : Longest M D s rest) (hidle : Idle M C) :
    Longest (L * M) (C ∪ D) cs rest where
  leaves := leaves_mul_iff.mpr ⟨s, hL.leaves, hM.leaves⟩
  others r hr := by
    obtain ⟨s', hs', hr⟩ := leaves_mul_iff.mp hr
    rcases hL.others s' hs' with rfl | ⟨hlength, hheads⟩
    · exact (hM.others r hr).imp_right fun ⟨h, hheads⟩ =>
        ⟨h, hheads.mono Set.subset_union_right⟩
    · obtain rfl := hidle s' r hheads hr
      exact .inr ⟨hM.leaves.length_le.trans hlength, hheads.mono Set.subset_union_left⟩

theorem Longest.fails_mul (hL : Longest L C cs s) (hs : Fails M s) (hM : Starts M D)
    (hCD : Disjoint C D) : Fails (L * M) cs := by
  intro r hr
  obtain ⟨s', hs', hr⟩ := leaves_mul_iff.mp hr
  rcases hL.others s' hs' with rfl | ⟨-, hheads⟩
  · exact hs r hr
  · exact hM.fails (hheads.not hCD) r hr

theorem Fails.mul (h : Fails L cs) (M : Language Char) : Fails (L * M) cs := by
  intro r hr
  obtain ⟨s, hs, -⟩ := leaves_mul_iff.mp hr
  exact h s hs

theorem Fails.add (hL : Fails L cs) (hM : Fails M cs) : Fails (L + M) cs := fun r hr =>
  (leaves_add_iff.mp hr).elim (hL r) (hM r)

theorem Longest.add_fails (hL : Longest L C cs rest) (hM : Fails M cs) :
    Longest (L + M) C cs rest where
  leaves := leaves_add_iff.mpr (.inl hL.leaves)
  others r hr := (leaves_add_iff.mp hr).elim (hL.others r) fun h => absurd h (hM r)

theorem Fails.add_longest (hL : Fails L cs) (hM : Longest M C cs rest) :
    Longest (L + M) C cs rest := by
  rw [add_comm]
  exact hM.add_fails hL

theorem Longest.opt (h : Longest L C cs rest) (hcs : Heads C cs) :
    Longest (1 + L) C cs rest where
  leaves := leaves_add_iff.mpr (.inr h.leaves)
  others r hr := by
    rcases leaves_add_iff.mp hr with hone | hmore
    · obtain rfl := leaves_one_iff.mp hone
      exact .inr ⟨h.leaves.length_le, hcs⟩
    · exact h.others r hmore

theorem Fails.opt (h : Fails L cs) (C : Set Char) : Longest (1 + L) C cs cs where
  leaves := leaves_add_iff.mpr (.inl (leaves_one_iff.mpr rfl))
  others r hr := by
    rcases leaves_add_iff.mp hr with hone | hmore
    · exact .inl (leaves_one_iff.mp hone)
    · exact absurd hmore (h r)

/-- Of a repeated class, the longest prefix is the longest run. -/
theorem longest_kstar_char (p : Char → Bool) (cs : List Char) :
    Longest (char p)∗ (charsOf p) cs (cs.dropWhile p) := by
  rw [← Language.one_add_self_mul_kstar_eq_kstar]
  have hstarts := (starts_char p).mul (char p)∗
  induction cs with
  | nil => exact hstarts.fails_nil.opt _
  | cons c cs ih =>
    by_cases hc : p c = true
    · rw [List.dropWhile_cons_of_pos hc]
      rw [Language.one_add_self_mul_kstar_eq_kstar] at ih
      refine Longest.opt ?_ ⟨c, cs, rfl, hc⟩
      exact ((longest_char hc cs).mul ih (idle_empty _)).mono (by simp)
    · rw [List.dropWhile_cons_of_neg hc]
      exact (hstarts.fails_cons (Bool.not_eq_true _ ▸ hc) cs).opt _

end UnitCalculus.Text
