import UnitCalculus.Proofs.Expression.Detection

/-! # Faults point at the first offending token

A text that is refused is refused at a position of it.  If the text is not cut into tokens, that is
where the first run of digits and signs stands that is no integer (`lex_fault`).  Otherwise it is
where the first token stands that no unit expression goes on with after the tokens before it, or the
end of the text, if there is no such token and the tokens end too soon (`readUnit_fault`). -/

namespace UnitCalculus

variable {text : String} {n : ℕ} {ts : List Token}

namespace Token

/-! ### Malformed runs -/

/-- The characters in the middle are a whole run of digits and signs, and no integer. -/
structure MalformedRun (as b cs : List Char) : Prop where
  isRun : ∃ k, hasValue k = true ∧ IsRun k b
  ne_nil : b ≠ []
  before : Apart as b
  after : Apart b cs
  value : integerValue? (ordinary b) = none

/-- A whole run of digits and signs that is no integer stands at the position. -/
def MalformedAt (text : String) (n : ℕ) : Prop :=
  ∃ as b cs, text.toList = as ++ (b ++ cs) ∧ as.length = n ∧ MalformedRun as b cs

theorem MalformedRun.blocks_eq {as b cs : List Char} (h : MalformedRun as b cs) :
    blocks (as ++ (b ++ cs)) = blocks as ++ b :: blocks cs := by
  obtain ⟨k, -, hrun⟩ := h.isRun
  unfold blocks
  rw [List.splitBy_append (h.before.append_right h.ne_nil), List.splitBy_append h.after,
    ← blocks, ← blocks, ← blocks, hrun.blocks h.ne_nil]
  rfl

/-- The block of a malformed run is no token. -/
theorem MalformedRun.ofBlock?_ne_ok {as b cs : List Char} (h : MalformedRun as b cs)
    {t : Option Token} : ofBlock? text n b ≠ .ok t := by
  obtain ⟨k, hk, hrun⟩ := h.isRun
  simp [ofBlock?, hrun.head h.ne_nil, hk, h.value]

theorem ofBlock?_eq_error {b : List Char} {e : ExpressionFault}
    (h : ofBlock? text n b = .error e) : e = ⟨.malformedInteger (String.ofList b), text, n⟩ ∧
      ∃ k, b.head?.bind blockKind? = some k ∧ hasValue k = true ∧
        integerValue? (ordinary b) = none := by
  unfold ofBlock? at h
  split at h
  · cases h
  · next k hk =>
    split at h
    · next hvalue =>
      split at h
      · cases h
      · next hnone =>
        cases h
        exact ⟨rfl, k, hk, hvalue, hnone⟩
    · cases h

/-- The first block with a fault is reported, and the blocks before it have none. -/
theorem exists_of_ofBlocks_eq_error {bs : List (List Char)} {e : ExpressionFault}
    (h : ofBlocks text n bs = .error e) : ∃ as b ds us, bs = as ++ b :: ds ∧
      ofBlocks text n as = .ok us ∧ ofBlock? text (n + as.flatten.length) b = .error e := by
  induction bs generalizing n with
  | nil => cases h
  | cons b bs ih =>
    rw [ofBlocks] at h
    cases hblock : ofBlock? text n b with
    | error f =>
      rw [hblock] at h
      cases h
      exact ⟨[], b, bs, [], rfl, rfl, hblock⟩
    | ok t =>
      rw [hblock, ok_bind] at h
      cases hrest : ofBlocks text (n + b.length) bs with
      | ok us =>
        rw [hrest] at h
        cases h
      | error f =>
        rw [hrest] at h
        cases h
        obtain ⟨as, d, ds, us, rfl, hus, hd⟩ := ih hrest
        refine ⟨b :: as, d, ds, t.toList ++ us, rfl, ?_, ?_⟩
        · rw [ofBlocks, hblock, ok_bind, hus]
          rfl
        · rwa [List.flatten_cons, List.length_append, ← Nat.add_assoc]

/-- A text with a malformed run is not cut into tokens. -/
theorem lex_ne_ok_of_malformedAt (h : MalformedAt text n) : lex text ≠ .ok ts := by
  obtain ⟨as, b, cs, htext, -, hrun⟩ := h
  intro hlex
  rw [lex, htext, hrun.blocks_eq] at hlex
  obtain ⟨-, vs, -, hvs, -⟩ := ofBlocks_append_eq_ok hlex
  obtain ⟨t, ht, -⟩ := bind_eq_ok hvs
  exact hrun.ofBlock?_ne_ok ht

/-- A text that is not cut into tokens has a malformed run, of which the first is reported. -/
theorem exists_malformedRun_of_lex {e : ExpressionFault} (h : lex text = .error e) :
    ∃ as b cs, text.toList = as ++ (b ++ cs) ∧ MalformedRun as b cs ∧
      e = ⟨.malformedInteger (String.ofList b), text, as.length⟩ ∧
      ∀ m, MalformedAt text m → as.length ≤ m := by
  obtain ⟨as, b, ds, us, hblocks, hus, hblock⟩ := exists_of_ofBlocks_eq_error h
  obtain ⟨rfl, k, hk, hvalue, hnone⟩ := ofBlock?_eq_error hblock
  rw [Nat.zero_add]
  have hflat : text.toList = as.flatten ++ (b ++ ds.flatten) := by
    rw [← List.flatten_cons, ← List.flatten_append, ← hblocks, blocks, List.flatten_splitBy]
  have hmem : b ∈ blocks text.toList := by
    rw [hblocks]
    simp
  refine ⟨as.flatten, b, ds.flatten, hflat, ?_, rfl, ?_⟩
  · obtain ⟨hbefore, hafter⟩ := apart_of_blocks_eq hblocks
    refine ⟨⟨k, hvalue, ?_⟩, List.ne_nil_of_mem_splitBy hmem, hbefore, hafter, hnone⟩
    rcases shape_of_mem_blocks hmem with ⟨hne, k', hrun⟩ | ⟨c, rfl, hc⟩
    · rw [hrun.head hne] at hk
      cases hk
      exact hrun
    · have hsingle : singleKind? c = some k := by simpa [blockKind?, hc] using hk
      have hno := isRunKind_of_singleKind? hsingle
      cases k <;> simp_all [isRunKind, hasValue]
  · -- A malformed run before this one would be among the blocks that have no fault.
    rintro m ⟨as', b', cs', htext', rfl, hrun⟩
    rw [htext', hrun.blocks_eq] at hblocks
    have hlength : (blocks as').flatten.length = as'.length := by
      rw [blocks, List.flatten_splitBy]
    rw [← hlength]
    rcases List.append_eq_append_iff.mp hblocks with ⟨more, rfl, hmore⟩ | ⟨more, hmore, -⟩
    · cases more with
      | nil => rw [List.append_nil]
      | cons x more =>
        obtain ⟨rfl, -⟩ := List.cons.inj hmore
        obtain ⟨-, vs, -, hvs, -⟩ := ofBlocks_append_eq_ok hus
        obtain ⟨t, ht, -⟩ := bind_eq_ok hvs
        exact absurd ht hrun.ofBlock?_ne_ok
    · rw [hmore, List.flatten_append, List.length_append]
      exact Nat.le_add_right _ _

/-- A text that is not cut into tokens is refused at its first malformed run. -/
theorem lex_fault {e : ExpressionFault} (h : lex text = .error e) :
    e.text = text ∧ MalformedAt text e.position ∧ ∀ m, MalformedAt text m → e.position ≤ m := by
  obtain ⟨as, b, cs, htext, hrun, rfl, hfirst⟩ := exists_malformedRun_of_lex h
  exact ⟨rfl, ⟨as, b, cs, htext, rfl, hrun⟩, hfirst⟩

/-! ### Tokens before a position -/

/-- The tokens that start before the position. -/
def startingBefore (n : ℕ) (ts : List Token) : List Token :=
  ts.filter fun t => decide (t.position < n)

theorem position_lt_stop {t : Token} (h : lex text = .ok ts) (ht : t ∈ ts) :
    t.position < t.stop := by
  obtain ⟨hne, -⟩ := (laid_of_lex h).slice ht
  have hpos := List.length_pos_iff.mpr hne
  rw [stop_eq]
  omega

theorem position_lt_length {t : Token} (h : lex text = .ok ts) (ht : t ∈ ts) :
    t.position < text.length := by
  obtain ⟨hne, hslice⟩ := (laid_of_lex h).slice ht
  have hpos := List.length_pos_iff.mpr hne
  have hlength := hslice.length_le
  simp only [List.length_drop, String.length_toList] at hlength hpos
  omega

theorem startingBefore_length (h : lex text = .ok ts) : startingBefore text.length ts = ts := by
  refine List.filter_eq_self.mpr fun t ht => ?_
  simpa using position_lt_length h ht

/-- The tokens that start before one of them are those before it. -/
theorem startingBefore_position {pre post : List Token} {t : Token}
    (h : lex text = .ok (pre ++ t :: post)) :
    startingBefore t.position (pre ++ t :: post) = pre := by
  obtain ⟨-, hafter, hbefore⟩ := List.pairwise_append.mp (laid_of_lex h).ordered
  have hpre : pre.filter (fun u => decide (u.position < t.position)) = pre := by
    refine List.filter_eq_self.mpr fun u hu => ?_
    have hlt := position_lt_stop h (List.mem_append_left _ hu)
    have hle := hbefore u hu t List.mem_cons_self
    simp only [decide_eq_true_eq]
    omega
  have hpost : post.filter (fun u => decide (u.position < t.position)) = [] := by
    refine List.filter_eq_nil_iff.mpr fun u hu => ?_
    have hlt : t.position < t.stop := position_lt_stop h (by simp)
    have hle := (List.pairwise_cons.mp hafter).1 u hu
    simp only [decide_eq_true_eq]
    omega
  rw [startingBefore, List.filter_append, hpre, List.filter_cons, hpost]
  simp

end Token

namespace Expression

open Token

/-- Where the tokens of a text lead nowhere, those before the position lead to a stage, and no
expression goes on with the token there; or they all do and are no expression yet. -/
theorem offending_of_stop {table : UnitTable} (hlex : lex text = .ok ts) (hne : ts ≠ [])
    (h : stop ⟨table, text⟩ .start ts = some n) :
    n ≤ text.length ∧ (∃ st, run table .start (startingBefore n ts) = some st) ∧
      ((∃ t ∈ ts, t.position = n ∧ ∀ us, ¬ IsExpression table (startingBefore n ts ++ t :: us)) ∨
        n = text.length ∧ ¬ IsExpression table ts) := by
  rcases exists_of_stop h with ⟨pre, t, post, st, rfl, hrun, hstep, rfl⟩ | ⟨st, hrun, hno, rfl⟩
  · rw [startingBefore_position hlex]
    have ht : t ∈ pre ++ t :: post := by simp
    exact ⟨(position_lt_length hlex ht).le, ⟨st, hrun⟩,
      .inl ⟨t, ht, rfl, not_isExpression_of_step_none hrun hstep⟩⟩
  · rw [startingBefore_length hlex]
    refine ⟨Nat.le_refl _, ⟨st, hrun⟩, .inr ⟨rfl, fun hexpression => ?_⟩⟩
    rcases isExpression_iff_run.mp hexpression with hnil | ⟨st', hrun', haccepts⟩
    · exact hne hnil
    · rw [hrun] at hrun'
      cases hrun'
      rw [hno] at haccepts
      cases haccepts

/-- **A fault points at the first offending token.**  A text that is refused is refused at a
position of it.  If it is not cut into tokens, its first malformed run stands there.  Otherwise
there stands the first token with which no unit expression goes on after the tokens before it, or
the text ends there and is too short; the tokens before the position are the beginning of a unit
expression, if the table has a unit that symbol characters write. -/
theorem readUnit_fault (table : UnitTable) (text : String) (e : ExpressionFault)
    (h : readUnit table text = .error (.expression e)) :
    e.text = text ∧ e.position ≤ text.length ∧
    (∀ f, lex text = .error f →
      MalformedAt text e.position ∧ ∀ n, MalformedAt text n → e.position ≤ n) ∧
    ∀ ts, lex text = .ok ts →
      ((∃ t ∈ ts, t.position = e.position ∧
          ∀ us, ¬ IsExpression table (startingBefore e.position ts ++ t :: us)) ∨
        e.position = text.length ∧ ¬ IsExpression table ts) ∧
      ∀ symbol q, table.units.find? symbol = some q → IsRun .symbol symbol.toList →
        ∃ us, (symbol ≠ "" → ∃ rest, lex rest = .ok us) ∧
          IsExpression table (startingBefore e.position ts ++ us) := by
  cases hlex : lex text with
  | error f =>
    have hread : readUnit table text = .error (.expression f) := by
      rw [readUnit, tokens, hlex]
      rfl
    rw [hread] at h
    cases h
    obtain ⟨htext, hmalformed, hfirst⟩ := lex_fault hlex
    refine ⟨htext, ?_, fun _ _ => ⟨hmalformed, hfirst⟩, fun ts hts => by cases hts⟩
    obtain ⟨as, b, cs, hcs, hlength, -⟩ := hmalformed
    rw [← String.length_toList, hcs, ← hlength, List.length_append]
    exact Nat.le_add_right _ _
  | ok ts =>
    rw [readUnit_of_lex table hlex] at h
    obtain ⟨htext, hstop⟩ := ofTokens_fault (valued_lex hlex) h
    have hne : ts ≠ [] := by
      rintro rfl
      cases h
    obtain ⟨hle, ⟨st, hrun⟩, hoffending⟩ := offending_of_stop hlex hne hstop
    refine ⟨htext, hle, fun f hf => (by cases hf), fun ts' hts' => ?_⟩
    cases hts'
    refine ⟨hoffending, fun symbol q hsymbol hsymbolRun => ?_⟩
    have hlookup : table.lookup symbol = .ok q := by
      rw [UnitTable.lookup, hsymbol]
    exact ⟨st.completion symbol, fun hne => ⟨_, lex_completionText hne hsymbolRun st⟩,
      isExpression_completion hlookup hrun⟩

/-- The tokens of `m*^2`. -/
def danglingTokens : List Token :=
  [⟨.symbol, "m", 0, none⟩, ⟨.mul, "*", 1, none⟩, ⟨.exp, "^", 2, none⟩, ⟨.integer, "2", 3, some 2⟩]

/-- No factor starts with the sign of a power. -/
theorem readUnit_fault_dangling :
    readUnit motionTable "m*^2" = .error (.expression ⟨.unexpected "^" [.symbol], "m*^2", 2⟩) ∧
      lex "m*^2" = .ok danglingTokens ∧ IsRun .symbol "m".toList ∧
      (∃ t ∈ danglingTokens, t.position = 2 ∧
        ∀ us, ¬ IsExpression motionTable (startingBefore 2 danglingTokens ++ t :: us)) ∧
      ∃ us, (∃ rest, lex rest = .ok us) ∧
        IsExpression motionTable (startingBefore 2 danglingTokens ++ us) := by
  have hlex : lex "m*^2" = .ok danglingTokens := by decide +kernel
  have hread : readUnit motionTable "m*^2" =
      .error (.expression ⟨.unexpected "^" [.symbol], "m*^2", 2⟩) := by
    rw [readUnit_of_lex _ hlex]
    rfl
  obtain ⟨-, -, -, hfault⟩ := readUnit_fault motionTable "m*^2" _ hread
  obtain ⟨hoffending, hcompletion⟩ := hfault danglingTokens hlex
  have hrun : IsRun .symbol "m".toList := by decide
  have hinside : ¬ (2 = "m*^2".length ∧ ¬ IsExpression motionTable danglingTokens) :=
    fun hend => absurd hend.1 (by decide)
  obtain ⟨us, hrest, hus⟩ := hcompletion "m" _ rfl hrun
  exact ⟨hread, hlex, hrun, hoffending.resolve_right hinside, us, hrest (by decide), hus⟩

end Expression

end UnitCalculus
