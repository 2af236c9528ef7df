import UnitCalculus.Proofs.Expression.FaultPosition

/-! # Runs that are no integers

Integers are written in ordinary or in superscript characters (`Script`): a sign, which may be
missing, and digits, one at least and not too many.  The characters of a script form the runs of one
kind (`runKind?_eq_kind_iff`), and such a run has a value exactly if it is an integer
(`isInteger_iff`).  So a text is cut into tokens unless one of its whole runs is no integer, and then
the first of these is reported (`lex_eq_error_iff`). -/

namespace UnitCalculus.Token

variable {text : String} {n : ℕ} {as b cs : List Char}

/-! ### Two scripts -/

/-- The characters that integers are written in. -/
inductive Script where
  | ordinary
  | superscript

namespace Script

/-- The digits, from zero to nine. -/
def digits : Script → List Char
  | ordinary => ['0', '1', '2', '3', '4', '5', '6', '7', '8', '9']
  | superscript => ['⁰', '¹', '²', '³', '⁴', '⁵', '⁶', '⁷', '⁸', '⁹']

def signs : Script → List Char
  | ordinary => ['+', '-']
  | superscript => ['⁺', '⁻']

/-- The kind of the runs of the script. -/
def kind : Script → TokenKind
  | ordinary => .integer
  | superscript => .supinteger

/-- Whether the character is a digit or a sign of the script. -/
def Holds (s : Script) (c : Char) : Prop := c ∈ s.digits ∨ c ∈ s.signs

instance (s : Script) (c : Char) : Decidable (s.Holds c) :=
  inferInstanceAs (Decidable (c ∈ s.digits ∨ c ∈ s.signs))

/-- A sign, which may be missing, and digits: one at least, and no more than are read. -/
def IsInteger (s : Script) (cs : List Char) : Prop :=
  ∃ sign ds, cs = sign ++ ds ∧ sign.length ≤ 1 ∧ (∀ c ∈ sign, c ∈ s.signs) ∧
    ds ≠ [] ∧ (∀ d ∈ ds, d ∈ s.digits) ∧ ds.length ≤ Decimal.maxDigits

/-- The characters in the middle are of the script, and their neighbours are not. -/
structure IsWholeRun (s : Script) (as b cs : List Char) : Prop where
  ne_nil : b ≠ []
  holds : ∀ c ∈ b, s.Holds c
  before : ∀ c ∈ as.getLast?, ¬ s.Holds c
  after : ∀ c ∈ cs.head?, ¬ s.Holds c

/-- What is true of the listed characters is true of all that the script holds. -/
theorem Holds.of_all {s : Script} {c : Char} {p : Char → Bool} (h : s.Holds c)
    (hall : (s.digits ++ s.signs).all p = true) : p c = true :=
  List.all_eq_true.mp hall c (List.mem_append.mpr h)

theorem isDigit_iff (c : Char) : c.isDigit = true ↔ c ∈ ordinary.digits := by
  constructor
  · intro h
    simp only [Char.isDigit, Bool.and_eq_true, decide_eq_true_eq, UInt32.le_iff_toNat_le] at h
    have hcode : Char.ofNat c.toNat = c := Char.ofNat_toNat c
    obtain ⟨hlow, hhigh⟩ : 48 ≤ c.toNat ∧ c.toNat ≤ 57 := h
    generalize c.toNat = code at hcode hlow hhigh
    subst hcode
    interval_cases code <;> decide
  · exact List.all_eq_true.mp (by decide : ordinary.digits.all Char.isDigit = true) c

/-- The runs of the kind of a script are made of its characters. -/
theorem runKind?_eq_kind_iff (s : Script) (c : Char) : runKind? c = some s.kind ↔ s.Holds c := by
  constructor
  · cases s with
    | ordinary =>
      intro h
      have hc := isIntegerChar_of_runKind? h
      simp only [isIntegerChar, Bool.or_eq_true, beq_iff_eq, isDigit_iff] at hc
      rcases hc with (hc | rfl) | rfl
      · exact .inl hc
      · exact .inr (by decide)
      · exact .inr (by decide)
    | superscript =>
      intro h
      have hc : (ordinary? c).isSome = true := by
        unfold runKind? at h
        split at h
        · cases h
        · split at h
          · assumption
          · split at h <;> cases h
      unfold ordinary? at hc
      split at hc <;> first | decide | cases hc
  · have hall : (s.digits ++ s.signs).all (fun c => runKind? c == some s.kind) = true := by
      cases s <;> decide
    exact fun h => beq_iff_eq.mp (h.of_all hall)

theorem isRun_kind_iff (s : Script) : IsRun s.kind cs ↔ ∀ c ∈ cs, s.Holds c :=
  forall₂_congr fun c _ => s.runKind?_eq_kind_iff c

/-! ### Integers and their values -/

theorem isSome_integerValue?_leadingSign :
    (integerValue? cs).isSome = true ↔ (Decimal.leadingSign cs).2 ≠ [] ∧
      (∀ d ∈ (Decimal.leadingSign cs).2, d ∈ ordinary.digits) ∧
      (Decimal.leadingSign cs).2.length ≤ Decimal.maxDigits := by
  unfold integerValue? Decimal.signedValue
  generalize Decimal.leadingSign cs = p
  obtain ⟨negative, r⟩ := p
  simp only [← isDigit_iff, List.length_map]
  by_cases hne : r = [] <;> by_cases hall : ∀ d ∈ r, d.isDigit = true <;>
    by_cases hlen : Decimal.maxDigits < r.length <;>
    simp [hne, hall, hlen, Nat.not_le.mpr, Nat.not_lt.mp]

/-- The characters have a value if they are an integer in ordinary characters. -/
theorem isSome_integerValue?_iff :
    (integerValue? cs).isSome = true ↔ ordinary.IsInteger cs := by
  rw [isSome_integerValue?_leadingSign]
  constructor
  · rintro ⟨hne, hdigits, hlength⟩
    rcases leadingSign_cases cs with ⟨r, rfl, hr⟩ | ⟨r, rfl, hr⟩ | hr <;>
      rw [hr] at hne hdigits hlength
    · exact ⟨['+'], r, rfl, Nat.le_refl 1, by simp [signs], hne, hdigits, hlength⟩
    · exact ⟨['-'], r, rfl, Nat.le_refl 1, by simp [signs], hne, hdigits, hlength⟩
    · exact ⟨[], cs, rfl, Nat.zero_le 1, nofun, hne, hdigits, hlength⟩
  · rintro ⟨sign, ds, rfl, hone, hsign, hne, hdigits, hlength⟩
    have hrest : (Decimal.leadingSign (sign ++ ds)).2 = ds := by
      match sign with
      | [] =>
        obtain ⟨d, ds, rfl⟩ := List.exists_cons_of_ne_nil hne
        rw [List.nil_append, Decimal.leadingSign_of_isDigit
          ((isDigit_iff d).mpr (hdigits d List.mem_cons_self))]
      | [c] =>
        have hc : c = '+' ∨ c = '-' := by simpa [signs] using hsign c List.mem_cons_self
        rcases hc with rfl | rfl <;> rfl
      | _ :: _ :: _ => simp at hone
    rw [hrest]
    exact ⟨hne, hdigits, hlength⟩

/-- The ordinary character for one of the script is a digit or a sign as that one is. -/
theorem mem_ordinary_iff {s : Script} {c : Char} (h : s.Holds c) :
    ((ordinary? c).getD c ∈ ordinary.digits ↔ c ∈ s.digits) ∧
      ((ordinary? c).getD c ∈ ordinary.signs ↔ c ∈ s.signs) := by
  have hall : (s.digits ++ s.signs).all (fun c =>
      decide (((ordinary? c).getD c ∈ ordinary.digits ↔ c ∈ s.digits) ∧
        ((ordinary? c).getD c ∈ ordinary.signs ↔ c ∈ s.signs))) = true := by
    cases s <;> decide
  exact of_decide_eq_true (h.of_all hall)

/-- Characters of a script are an integer if the ordinary characters for them are. -/
theorem isInteger_ordinary_iff {s : Script} (h : ∀ c ∈ b, s.Holds c) :
    ordinary.IsInteger (Token.ordinary b) ↔ s.IsInteger b := by
  constructor
  · rintro ⟨sign, ds, hb, hone, hsign, hne, hdigits, hlength⟩
    obtain ⟨sign', ds', rfl, rfl, rfl⟩ := List.map_eq_append_iff.mp hb
    simp only [List.length_map, List.mem_map, forall_exists_index, and_imp,
      forall_apply_eq_imp_iff₂] at hone hsign hdigits hlength
    refine ⟨sign', ds', rfl, hone, fun c hc => ?_, by simpa using hne, fun c hc => ?_, hlength⟩
    · exact (mem_ordinary_iff (h c (List.mem_append_left _ hc))).2.mp (hsign c hc)
    · exact (mem_ordinary_iff (h c (List.mem_append_right _ hc))).1.mp (hdigits c hc)
  · rintro ⟨sign, ds, rfl, hone, hsign, hne, hdigits, hlength⟩
    refine ⟨Token.ordinary sign, Token.ordinary ds, List.map_append, by simpa [Token.ordinary],
      ?_, by simpa [Token.ordinary], ?_, by simpa [Token.ordinary]⟩
    · intro d hd
      obtain ⟨c, hc, rfl⟩ := List.mem_map.mp hd
      exact (mem_ordinary_iff (.inr (hsign c hc))).2.mpr (hsign c hc)
    · intro d hd
      obtain ⟨c, hc, rfl⟩ := List.mem_map.mp hd
      exact (mem_ordinary_iff (.inl (hdigits c hc))).1.mpr (hdigits c hc)

/-- A run of a script has no value unless it is an integer. -/
theorem integerValue?_eq_none_iff {s : Script} (h : ∀ c ∈ b, s.Holds c) :
    integerValue? (Token.ordinary b) = none ↔ ¬ s.IsInteger b := by
  rw [← isInteger_ordinary_iff h, ← isSome_integerValue?_iff, Option.not_isSome_iff_eq_none]

theorem exists_kind_of_hasValue {k : TokenKind} (h : hasValue k = true) : ∃ s : Script, k = s.kind := by
  cases k
  case integer => exact ⟨ordinary, rfl⟩
  case supinteger => exact ⟨superscript, rfl⟩
  all_goals cases h

theorem hasValue_kind (s : Script) : hasValue s.kind = true := by
  cases s <;> rfl

end Script

/-! ### Malformed runs -/

/-- A run is malformed if it is a whole run of a script and no integer of it. -/
theorem malformedRun_iff :
    MalformedRun as b cs ↔ ∃ s : Script, s.IsWholeRun as b cs ∧ ¬ s.IsInteger b := by
  constructor
  · rintro ⟨⟨k, hk, hrun⟩, hne, hbefore, hafter, hvalue⟩
    obtain ⟨s, rfl⟩ := Script.exists_kind_of_hasValue hk
    have hholds := s.isRun_kind_iff.mp hrun
    obtain ⟨hb, ha⟩ := runKind?_ne_of_apart hrun hne hbefore hafter
    exact ⟨s, ⟨hne, hholds, fun c hc h => hb c hc ((s.runKind?_eq_kind_iff c).mpr h),
      fun c hc h => ha c hc ((s.runKind?_eq_kind_iff c).mpr h)⟩,
      (Script.integerValue?_eq_none_iff hholds).mp hvalue⟩
  · rintro ⟨s, hwhole, hno⟩
    have hrun := s.isRun_kind_iff.mpr hwhole.holds
    refine ⟨⟨s.kind, s.hasValue_kind, hrun⟩, hwhole.ne_nil, hrun.apart_before fun c hc h => ?_,
      hrun.apart fun c hc h => ?_, (Script.integerValue?_eq_none_iff hwhole.holds).mpr hno⟩
    · exact hwhole.before c hc ((s.runKind?_eq_kind_iff c).mp h)
    · exact hwhole.after c hc ((s.runKind?_eq_kind_iff c).mp h)

/-- The characters are a whole run of digits and signs of one script, they stand in the text at the
position, and they are no integer. -/
def StandsMalformed (text : String) (n : ℕ) (b : List Char) : Prop :=
  ∃ (s : Script) (as cs : List Char), text.toList = as ++ (b ++ cs) ∧ as.length = n ∧
    s.IsWholeRun as b cs ∧ ¬ s.IsInteger b

theorem standsMalformed_iff : StandsMalformed text n b ↔
    ∃ as cs, text.toList = as ++ (b ++ cs) ∧ as.length = n ∧ MalformedRun as b cs := by
  simp only [malformedRun_iff]
  constructor
  · rintro ⟨s, as, cs, htext, hn, hrun⟩
    exact ⟨as, cs, htext, hn, s, hrun⟩
  · rintro ⟨as, cs, htext, hn, s, hrun⟩
    exact ⟨s, as, cs, htext, hn, hrun⟩

theorem malformedAt_iff : MalformedAt text n ↔ ∃ b, StandsMalformed text n b := by
  simp only [standsMalformed_iff]
  constructor
  · rintro ⟨as, b, cs, h⟩
    exact ⟨b, as, cs, h⟩
  · rintro ⟨b, as, cs, h⟩
    exact ⟨as, b, cs, h⟩

/-- One position has one whole run. -/
theorem StandsMalformed.unique {b' : List Char} (h : StandsMalformed text n b)
    (h' : StandsMalformed text n b') : b = b' := by
  obtain ⟨as, cs, htext, rfl, hrun⟩ := standsMalformed_iff.mp h
  obtain ⟨as', cs', htext', hlength, hrun'⟩ := standsMalformed_iff.mp h'
  obtain ⟨rfl, hrest⟩ := List.append_inj (htext.symm.trans htext') hlength.symm
  have hblocks := hrun.blocks_eq
  rw [hrest, hrun'.blocks_eq] at hblocks
  exact (List.cons.inj (List.append_cancel_left hblocks)).1.symm

/-- **Exactly the malformed runs are faults of the lexer.**  A text is not cut into tokens if and
only if some whole run of digits and signs, ordinary or superscript, is no integer; what is reported
then is the text, with the first of these runs and its position. -/
theorem lex_eq_error_iff (text : String) :
    ((∃ e, lex text = .error e) ↔ ∃ n b, StandsMalformed text n b) ∧
      ∀ e, lex text = .error e ↔
        ∃ b, StandsMalformed text e.position b ∧
          (∀ m b', StandsMalformed text m b' → e.position ≤ m) ∧
          e.text = text ∧ e.cause = .malformedInteger (String.ofList b) ∧
          e.message = "Unexpected integer format: " ++ String.ofList b := by
  have hfirst : ∀ e, lex text = .error e → ∃ b, StandsMalformed text e.position b ∧
      (∀ m b', StandsMalformed text m b' → e.position ≤ m) ∧
      e = ⟨.malformedInteger (String.ofList b), text, e.position⟩ := by
    intro e he
    obtain ⟨as, b, cs, htext, hrun, rfl, hfirst⟩ := exists_malformedRun_of_lex he
    exact ⟨b, standsMalformed_iff.mpr ⟨as, cs, htext, rfl, hrun⟩,
      fun m b' h => hfirst m (malformedAt_iff.mpr ⟨b', h⟩), rfl⟩
  have hfails : ∀ n b, StandsMalformed text n b → ∃ e, lex text = .error e := by
    intro n b h
    cases hlex : lex text with
    | error e => exact ⟨e, rfl⟩
    | ok ts => exact absurd hlex (lex_ne_ok_of_malformedAt (malformedAt_iff.mpr ⟨b, h⟩))
  refine ⟨⟨fun ⟨e, he⟩ => ?_, fun ⟨n, b, h⟩ => hfails n b h⟩, fun e => ⟨fun he => ?_, ?_⟩⟩
  · obtain ⟨b, hb, -⟩ := hfirst e he
    exact ⟨e.position, b, hb⟩
  · obtain ⟨b, hb, hmin, heq⟩ := hfirst e he
    refine ⟨b, hb, hmin, ?_⟩
    rw [heq]
    exact ⟨rfl, rfl, rfl⟩
  · rintro ⟨b, hb, hmin, htext, hcause, -⟩
    obtain ⟨e', he'⟩ := hfails _ b hb
    obtain ⟨b', hb', hmin', heq⟩ := hfirst e' he'
    -- Both are the first malformed run.
    have hposition : e.position = e'.position := Nat.le_antisymm (hmin _ b' hb') (hmin' _ b hb)
    rw [hposition] at hb
    obtain rfl := hb.unique hb'
    rw [he', heq, ← hposition, ← hcause, ← htext]

example : lex "m2-1 s⁺⁻" = .error ⟨.malformedInteger "2-1", "m2-1 s⁺⁻", 1⟩ := by decide +kernel

end UnitCalculus.Token
