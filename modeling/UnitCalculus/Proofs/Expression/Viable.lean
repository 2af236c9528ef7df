import UnitCalculus.Proofs.Expression.Acceptance
import UnitCalculus.Proofs.Expression.Concatenation

/-! # Beginnings of expressions

How far an expression has been read is a `Stage`: what was read last and how many groups are open.
From stage to stage goes one token (`step`, and case by case `Step`), so a list of tokens either
leads to a stage (`run`) or holds a token at which there is no way on.

The tokens of a meaningful tree lead from where a factor may start to where it may end
(`run_product`).  Conversely, tokens that lead to a stage are the open groups with the started
products before and in them (`Reached`); so the tokens that lead to the end of a product outside all
groups are those of the expressions (`isExpression_iff_run`).  From each stage the end is reached by
at most one factor or power and the missing parentheses (`Stage.completion`), so tokens that lead
anywhere are the beginning of an expression (`isExpression_completion`). -/

namespace UnitCalculus.Expression

open UnitCalculus.Expression.Derivation

/-! ### Stages -/

/-- What was read last in the innermost group. -/
inductive Phase where
  /-- Nothing yet, or a sign; a factor must come. -/
  | factor
  /-- A division sign after a numerator; a factor may come, or the denominator. -/
  | slash
  | atom
  /-- The sign of a power. -/
  | hat
  | numerator
  | denominator
  deriving DecidableEq, Repr

/-- Whether a product may end here. -/
def Phase.closes : Phase → Bool
  | atom | numerator | denominator => true
  | factor | slash | hat => false

/-- How far an expression has been read. -/
structure Stage where
  phase : Phase
  /-- The number of open groups. -/
  depth : ℕ
  deriving DecidableEq, Repr

/-- Before the first token. -/
def Stage.start : Stage := ⟨.factor, 0⟩

/-- Whether the expression may end here. -/
def Stage.accepts (st : Stage) : Bool := st.phase.closes && st.depth == 0

/-- The stage after one more token; none if no expression goes on with it. -/
def step (table : UnitTable) (st : Stage) (t : Token) : Option Stage :=
  match t.kind with
  | .symbol =>
    if st.phase ≠ .hat ∧ (table.lookup t.text).toBool = true then some ⟨.atom, st.depth⟩ else none
  | .lparen => if st.phase ≠ .hat then some ⟨.factor, st.depth + 1⟩ else none
  | .rparen =>
    if st.phase.closes = true ∧ st.depth ≠ 0 then some ⟨.atom, st.depth - 1⟩ else none
  | .mul => if st.phase.closes = true then some ⟨.factor, st.depth⟩ else none
  | .div =>
    if st.phase = .numerator then some ⟨.slash, st.depth⟩
    else if st.phase.closes = true then some ⟨.factor, st.depth⟩
    else none
  | .exp => if st.phase = .atom then some ⟨.hat, st.depth⟩ else none
  | .supinteger => if st.phase = .atom then some ⟨.numerator, st.depth⟩ else none
  | .integer =>
    if st.phase = .hat then some ⟨.numerator, st.depth⟩
    else if st.phase = .slash ∧ integerOf t ≠ 0 then some ⟨.denominator, st.depth⟩
    else none

/-- What one token does, case by case. -/
inductive Step (table : UnitTable) : Stage → Token → Stage → Prop
  | symbol {ph : Phase} {d : ℕ} {t : Token} {q : Quantity} (hk : t.kind = .symbol)
      (hph : ph ≠ .hat) (hq : table.lookup t.text = .ok q) : Step table ⟨ph, d⟩ t ⟨.atom, d⟩
  | lparen {ph : Phase} {d : ℕ} {t : Token} (hk : t.kind = .lparen) (hph : ph ≠ .hat) :
      Step table ⟨ph, d⟩ t ⟨.factor, d + 1⟩
  | rparen {ph : Phase} {d : ℕ} {t : Token} (hk : t.kind = .rparen) (hph : ph.closes = true) :
      Step table ⟨ph, d + 1⟩ t ⟨.atom, d⟩
  | mul {ph : Phase} {d : ℕ} {t : Token} (hk : t.kind = .mul) (hph : ph.closes = true) :
      Step table ⟨ph, d⟩ t ⟨.factor, d⟩
  | div {ph : Phase} {d : ℕ} {t : Token} (hk : t.kind = .div) (hph : ph.closes = true)
      (hne : ph ≠ .numerator) : Step table ⟨ph, d⟩ t ⟨.factor, d⟩
  | slash {d : ℕ} {t : Token} (hk : t.kind = .div) : Step table ⟨.numerator, d⟩ t ⟨.slash, d⟩
  | exp {d : ℕ} {t : Token} (hk : t.kind = .exp) : Step table ⟨.atom, d⟩ t ⟨.hat, d⟩
  | supinteger {d : ℕ} {t : Token} (hk : t.kind = .supinteger) :
      Step table ⟨.atom, d⟩ t ⟨.numerator, d⟩
  | numerator {d : ℕ} {t : Token} (hk : t.kind = .integer) :
      Step table ⟨.hat, d⟩ t ⟨.numerator, d⟩
  | denominator {d : ℕ} {t : Token} (hk : t.kind = .integer) (hzero : integerOf t ≠ 0) :
      Step table ⟨.slash, d⟩ t ⟨.denominator, d⟩

theorem exists_of_toBool {x : Except Fault Quantity} (h : x.toBool = true) : ∃ q, x = .ok q := by
  cases x with
  | error f => cases h
  | ok q => exact ⟨q, rfl⟩

/-- The cases are those in which there is a next stage. -/
theorem step_eq_some_iff {table : UnitTable} {st st' : Stage} {t : Token} :
    step table st t = some st' ↔ Step table st t st' := by
  constructor
  · intro h
    obtain ⟨ph, d⟩ := st
    cases hk : t.kind with
    | symbol =>
      simp only [step, hk, Option.ite_none_right_eq_some, Option.some.injEq] at h
      obtain ⟨⟨hph, hlookup⟩, rfl⟩ := h
      obtain ⟨q, hq⟩ := exists_of_toBool hlookup
      exact .symbol hk hph hq
    | lparen =>
      simp only [step, hk, Option.ite_none_right_eq_some, Option.some.injEq] at h
      obtain ⟨hph, rfl⟩ := h
      exact .lparen hk hph
    | rparen =>
      simp only [step, hk, Option.ite_none_right_eq_some, Option.some.injEq] at h
      obtain ⟨⟨hph, hd⟩, rfl⟩ := h
      obtain ⟨d, rfl⟩ := Nat.exists_eq_succ_of_ne_zero hd
      exact .rparen hk hph
    | mul =>
      simp only [step, hk, Option.ite_none_right_eq_some, Option.some.injEq] at h
      obtain ⟨hph, rfl⟩ := h
      exact .mul hk hph
    | div =>
      by_cases hph : ph = .numerator
      · simp only [step, hk, hph, if_true, Option.some.injEq] at h
        subst hph h
        exact .slash hk
      · simp only [step, hk, hph, if_false, Option.ite_none_right_eq_some, Option.some.injEq] at h
        obtain ⟨hclose, rfl⟩ := h
        exact .div hk hclose hph
    | exp =>
      simp only [step, hk, Option.ite_none_right_eq_some, Option.some.injEq] at h
      obtain ⟨rfl, rfl⟩ := h
      exact .exp hk
    | supinteger =>
      simp only [step, hk, Option.ite_none_right_eq_some, Option.some.injEq] at h
      obtain ⟨rfl, rfl⟩ := h
      exact .supinteger hk
    | integer =>
      by_cases hph : ph = .hat
      · simp only [step, hk, hph, if_true, Option.some.injEq] at h
        subst hph h
        exact .numerator hk
      · simp only [step, hk, hph, if_false, Option.ite_none_right_eq_some, Option.some.injEq] at h
        obtain ⟨⟨rfl, hzero⟩, rfl⟩ := h
        exact .denominator hk hzero
  · intro h
    cases h <;> simp_all [step, Except.toBool]

theorem Step.eq_some {table : UnitTable} {st st' : Stage} {t : Token} (h : Step table st t st') :
    step table st t = some st' :=
  step_eq_some_iff.mpr h

/-- The stage after the tokens. -/
def run (table : UnitTable) (st : Stage) (ts : List Token) : Option Stage :=
  ts.foldlM (step table) st

section run

variable {table : UnitTable} {st st' : Stage} {t : Token} {ts us : List Token}

theorem run_cons (h : step table st t = some st') : run table st (t :: ts) = run table st' ts := by
  rw [run, List.foldlM_cons, h]
  rfl

theorem run_append (h : run table st ts = some st') :
    run table st (ts ++ us) = run table st' us := by
  rw [run, List.foldlM_append, ← run, h]
  rfl

theorem exists_run_of_cons (h : run table st (t :: ts) = some st') :
    ∃ st₁, step table st t = some st₁ ∧ run table st₁ ts = some st' := by
  rw [run, List.foldlM_cons] at h
  exact Option.bind_eq_some_iff.mp h

theorem exists_run_of_append (h : run table st (ts ++ us) = some st') :
    ∃ st₁, run table st ts = some st₁ ∧ run table st₁ us = some st' := by
  rw [run, List.foldlM_append] at h
  exact Option.bind_eq_some_iff.mp h

end run

/-! ### The tokens of a tree -/

section trees

variable {table : UnitTable} {d : ℕ} {ph : Phase} {ts us : List Token} {es fs : List Power}

theorem Derivation.Meaningful.mono (h : Meaningful table ts es) (hts : us ⊆ ts) (hes : fs ⊆ es) :
    Meaningful table us fs :=
  ⟨fun t ht => h.resolves t (hts ht), fun e he => h.divides e (hes he)⟩

theorem run_numerator (n : Numerator) :
    run table ⟨.atom, d⟩ n.tokens = some ⟨.numerator, d⟩ := by
  rcases n with ⟨hat, i⟩ | i
  · rw [Numerator.tokens, run_cons (Step.exp hat.2).eq_some, run_cons (Step.numerator i.2).eq_some]
    rfl
  · rw [Numerator.tokens, run_cons (Step.supinteger i.2).eq_some]
    rfl

theorem run_denominator {x : Denominator} (h : integerOf x.n.1 ≠ 0) :
    run table ⟨.numerator, d⟩ x.tokens = some ⟨.denominator, d⟩ := by
  rw [Denominator.tokens, run_cons (Step.slash x.slash.2).eq_some,
    run_cons (Step.denominator x.n.2 h).eq_some]
  rfl

/-- An exponent leads from the end of an atom to the end of a factor. -/
theorem run_power {e : Option Power} (h : Divides e.toList) :
    ∃ ph : Phase, ph.closes = true ∧ run table ⟨.atom, d⟩ (powerTokens e) = some ⟨ph, d⟩ := by
  rcases e with _ | ⟨n, _ | x⟩
  · exact ⟨.atom, rfl, rfl⟩
  · refine ⟨.numerator, rfl, ?_⟩
    simpa [powerTokens, Power.tokens] using run_numerator n
  · refine ⟨.denominator, rfl, ?_⟩
    have hx : integerOf x.n.1 ≠ 0 := h ⟨n, some x⟩ (by simp)
    have hnumerator : run table ⟨.atom, d⟩ (n.tokens ++ x.tokens) = some ⟨.denominator, d⟩ := by
      rw [run_append (run_numerator n), run_denominator hx]
    simpa [powerTokens, Power.tokens] using hnumerator

/-- A sign leads from the end of a factor to where another one may start. -/
theorem run_sign (table : UnitTable) (d : ℕ) (s : Option Sign) (h : ph.closes = true) :
    ∃ ph' : Phase, ph' ≠ .hat ∧ run table ⟨ph, d⟩ (signTokens s) = some ⟨ph', d⟩ := by
  rcases s with _ | ⟨m | slash⟩
  · refine ⟨ph, ?_, rfl⟩
    rintro rfl
    cases h
  · exact ⟨.factor, by decide, run_cons (Step.mul m.2 h).eq_some⟩
  · by_cases hph : ph = .numerator
    · subst hph
      exact ⟨.slash, by decide, run_cons (Step.slash slash.2).eq_some⟩
    · exact ⟨.factor, by decide, run_cons (Step.div slash.2 h hph).eq_some⟩

mutual

theorem run_atom : ∀ (a : Atom) (ph : Phase) (d : ℕ), Meaningful table a.tokens a.powers →
    ph ≠ .hat → run table ⟨ph, d⟩ a.tokens = some ⟨.atom, d⟩
  | .symbol t, ph, d, h, hph => by
      rw [Atom.tokens] at h ⊢
      obtain ⟨q, hq⟩ := h.resolves t.1 (List.mem_singleton_self _) t.2
      exact run_cons (Step.symbol t.2 hph hq).eq_some
  | .group l p r, ph, d, h, hph => by
      rw [Atom.tokens, Atom.powers] at h
      obtain ⟨ph', hclose, hproduct⟩ := run_product p .factor (d + 1)
        (h.mono (by intro t ht; simp [ht]) (List.Subset.refl _)) (by decide)
      rw [Atom.tokens, run_cons (Step.lparen l.2 hph).eq_some, run_append hproduct]
      exact run_cons (Step.rparen r.2 hclose).eq_some

theorem run_powered : ∀ (f : Powered) (ph : Phase) (d : ℕ), Meaningful table f.tokens f.powers →
    ph ≠ .hat → ∃ ph' : Phase, ph'.closes = true ∧ run table ⟨ph, d⟩ f.tokens = some ⟨ph', d⟩
  | .mk a e, ph, d, h, hph => by
      rw [Powered.tokens, Powered.powers] at h
      have hatom := run_atom a ph d
        (h.mono (List.subset_append_left _ _) (List.subset_append_left _ _)) hph
      obtain ⟨ph', hclose, hpower⟩ : ∃ ph' : Phase, ph'.closes = true ∧
          run table ⟨.atom, d⟩ (powerTokens e) = some ⟨ph', d⟩ :=
        run_power fun x hx => h.divides x (List.mem_append_right _ hx)
      refine ⟨ph', hclose, ?_⟩
      rw [Powered.tokens, run_append hatom, hpower]

/-- A meaningful product leads from where a factor may start to where it may end. -/
theorem run_product : ∀ (p : Product) (ph : Phase) (d : ℕ), Meaningful table p.tokens p.powers →
    ph ≠ .hat → ∃ ph' : Phase, ph'.closes = true ∧ run table ⟨ph, d⟩ p.tokens = some ⟨ph', d⟩
  | .mk f m, ph, d, h, hph => by
      rw [Product.tokens, Product.powers] at h
      obtain ⟨ph₁, hclose, hfactor⟩ := run_powered f ph d
        (h.mono (List.subset_append_left _ _) (List.subset_append_left _ _)) hph
      obtain ⟨ph', hclose', htail⟩ := run_tail m ph₁ d
        (h.mono (List.subset_append_right _ _) (List.subset_append_right _ _)) hclose
      refine ⟨ph', hclose', ?_⟩
      rw [Product.tokens, run_append hfactor, htail]

theorem run_tail : ∀ (m : Tail) (ph : Phase) (d : ℕ), Meaningful table m.tokens m.powers →
    ph.closes = true →
    ∃ ph' : Phase, ph'.closes = true ∧ run table ⟨ph, d⟩ m.tokens = some ⟨ph', d⟩
  | .nil, ph, d, _, hclose => ⟨ph, hclose, by rw [Tail.tokens]; rfl⟩
  | .cons s f m, ph, d, h, hclose => by
      rw [Tail.tokens, Tail.powers] at h
      obtain ⟨ph₁, hph₁, hsign⟩ := run_sign table d s hclose
      obtain ⟨ph₂, hclose₂, hfactor⟩ := run_powered f ph₁ d
        (h.mono (by intro t ht; simp [ht]) (List.subset_append_left _ _)) hph₁
      obtain ⟨ph', hclose', htail⟩ := run_tail m ph₂ d
        (h.mono (by intro t ht; simp [ht]) (List.subset_append_right _ _)) hclose₂
      refine ⟨ph', hclose', ?_⟩
      rw [Tail.tokens, run_append hsign, run_append hfactor, htail]

end

end trees

/-! ### What leads to a stage -/

/-- The product with one more factor. -/
def Derivation.Tail.snoc : Tail → Option Sign → Powered → Tail
  | .nil, s, f => .cons s f .nil
  | .cons s' f' m, s, f => .cons s' f' (m.snoc s f)

theorem Derivation.Tail.tokens_snoc (m : Tail) (s : Option Sign) (f : Powered) :
    (m.snoc s f).tokens = m.tokens ++ (signTokens s ++ f.tokens) := by
  fun_induction Tail.snoc m s f with
  | case1 s f => simp [Tail.tokens]
  | case2 s' f' m s f ih =>
    rw [Tail.tokens, Tail.tokens, ih]
    simp only [List.append_assoc]

theorem Derivation.Tail.powers_snoc (m : Tail) (s : Option Sign) (f : Powered) :
    (m.snoc s f).powers = m.powers ++ f.powers := by
  fun_induction Tail.snoc m s f with
  | case1 s f => simp [Tail.powers]
  | case2 s' f' m s f ih => rw [Tail.powers, Tail.powers, ih, List.append_assoc]

section reached

variable {table : UnitTable} {ts us : List Token} {ph : Phase} {d : ℕ} {st st' : Stage} {t : Token}

/-- The tokens are a product with a sign after it, or there are none yet: a factor may come. -/
def Begun (table : UnitTable) (ts : List Token) : Prop :=
  ts = [] ∨ ∃ (p : Product) (s : Option Sign), Meaningful table p.tokens p.powers ∧
    ts = p.tokens ++ signTokens s

/-- The tokens are a meaningful product. -/
def IsProduct (table : UnitTable) (ts : List Token) : Prop :=
  ∃ p : Product, Meaningful table p.tokens p.powers ∧ ts = p.tokens

theorem IsProduct.begun (h : IsProduct table ts) (s : Option Sign) :
    Begun table (ts ++ signTokens s) := by
  obtain ⟨p, hp, rfl⟩ := h
  exact .inr ⟨p, s, hp, rfl⟩

/-- A factor where one may come makes a product. -/
theorem Begun.product (h : Begun table ts) {a : Atom} (ha : Meaningful table a.tokens a.powers)
    {e : Option Power} (he : Divides e.toList) :
    IsProduct table (ts ++ (a.tokens ++ powerTokens e)) := by
  have hf : Meaningful table (Powered.mk a e).tokens (Powered.mk a e).powers := by
    rw [Powered.tokens, Powered.powers]
    exact ha.append (meaningful_power he)
  rcases h with rfl | ⟨⟨f, m⟩, s, hp, rfl⟩
  · refine ⟨.mk (.mk a e) .nil, ?_, ?_⟩
    · simpa [Product.tokens, Product.powers, Tail.tokens, Tail.powers] using hf
    · simp [Product.tokens, Tail.tokens, Powered.tokens]
  · have hwhole := hp.append ((meaningful_sign s).append hf)
    rw [Product.tokens, Product.powers] at hwhole
    refine ⟨.mk f (m.snoc s (.mk a e)), ?_, ?_⟩
    · rw [Product.tokens, Product.powers, Tail.tokens_snoc, Tail.powers_snoc]
      simpa only [List.append_assoc, List.nil_append] using hwhole
    · rw [Product.tokens, Product.tokens, Tail.tokens_snoc, Powered.tokens]
      simp only [List.append_assoc]

/-- What may be read of a product, up to the phase. -/
inductive Partial (table : UnitTable) : Phase → List Token → Prop
  | factor {ts : List Token} (h : Begun table ts) : Partial table .factor ts
  | slash {ts : List Token} (h : Begun table ts) {a : Atom}
      (ha : Meaningful table a.tokens a.powers) (n : Numerator) (t : Terminal .div) :
      Partial table .slash (ts ++ (a.tokens ++ n.tokens) ++ [t.1])
  | atom {ts : List Token} (h : Begun table ts) {a : Atom}
      (ha : Meaningful table a.tokens a.powers) : Partial table .atom (ts ++ a.tokens)
  | hat {ts : List Token} (h : Begun table ts) {a : Atom}
      (ha : Meaningful table a.tokens a.powers) (t : Terminal .exp) :
      Partial table .hat (ts ++ a.tokens ++ [t.1])
  | numerator {ts : List Token} (h : Begun table ts) {a : Atom}
      (ha : Meaningful table a.tokens a.powers) (n : Numerator) :
      Partial table .numerator (ts ++ (a.tokens ++ n.tokens))
  | denominator {ts : List Token} (h : Begun table ts) {a : Atom}
      (ha : Meaningful table a.tokens a.powers) (n : Numerator) {x : Denominator}
      (hx : integerOf x.n.1 ≠ 0) :
      Partial table .denominator (ts ++ (a.tokens ++ (n.tokens ++ x.tokens)))

theorem Partial.product (h : Partial table ph ts) (hph : ph.closes = true) :
    IsProduct table ts := by
  cases h with
  | factor | slash | hat => cases hph
  | atom h ha =>
    have he : Divides (none : Option Power).toList := by simp [Divides]
    simpa [powerTokens] using h.product ha he
  | numerator h ha n =>
    have he : Divides (some (⟨n, none⟩ : Power)).toList := by simp [Divides, Power.den]
    simpa [powerTokens, Power.tokens] using h.product ha he
  | @denominator ts h a ha n x hx =>
    have he : Divides (some (⟨n, some x⟩ : Power)).toList := by simpa [Divides, Power.den] using hx
    simpa [powerTokens, Power.tokens] using h.product ha he

theorem Partial.begun (h : Partial table ph ts) (hph : ph ≠ .hat) : Begun table ts := by
  by_cases hclose : ph.closes = true
  · have hproduct := (h.product hclose).begun none
    rwa [signTokens, Option.map_none, Option.toList_none, List.append_nil] at hproduct
  · cases h with
    | factor h => exact h
    | slash h ha n t => exact ((Partial.numerator h ha n).product rfl).begun (some (.over t))
    | hat => exact absurd rfl hph
    | atom | numerator | denominator => exact absurd rfl hclose

/-- The open groups, each with what was read before it in the group around it. -/
inductive Within (table : UnitTable) : ℕ → List Token → Prop
  | top : Within table 0 []
  | group {d : ℕ} {ts us : List Token} (h : Within table d ts) (hus : Begun table us)
      (l : Terminal .lparen) : Within table (d + 1) (ts ++ (us ++ [l.1]))

/-- What is read up to a stage: open groups, and in the innermost one the start of a product. -/
inductive Reached (table : UnitTable) : Stage → List Token → Prop
  | mk {ph : Phase} {d : ℕ} {ts us : List Token} (h : Within table d ts)
      (hus : Partial table ph us) : Reached table ⟨ph, d⟩ (ts ++ us)

/-- One more token leads to what is read up to the next stage. -/
theorem Reached.step (h : Reached table st ts) (hstep : Step table st t st') :
    Reached table st' (ts ++ [t]) := by
  obtain ⟨hwithin, hpartial⟩ := h
  cases hstep with
  | symbol hk hph hq =>
    have ha : Meaningful table (Atom.symbol ⟨t, hk⟩).tokens (Atom.symbol ⟨t, hk⟩).powers := by
      rw [Atom.tokens, Atom.powers]
      exact meaningful_symbol hq
    have hatom := Reached.mk hwithin (.atom (hpartial.begun hph) ha)
    rwa [Atom.tokens, ← List.append_assoc] at hatom
  | lparen hk hph =>
    have hgroup := Reached.mk (hwithin.group (hpartial.begun hph) ⟨t, hk⟩) (.factor (.inl rfl))
    rwa [List.append_nil, ← List.append_assoc] at hgroup
  | rparen hk hph =>
    obtain ⟨p, hp, rfl⟩ := hpartial.product hph
    cases hwithin with
    | @group d ts us hwithin hus l =>
      have ha : Meaningful table (Atom.group l p ⟨t, hk⟩).tokens
          (Atom.group l p ⟨t, hk⟩).powers := by
        rw [Atom.tokens, Atom.powers]
        exact hp.parens l.2 hk
      have hatom := Reached.mk hwithin (.atom hus ha)
      rw [Atom.tokens] at hatom
      simpa using hatom
  | mul hk hph =>
    have hbegun := (hpartial.product hph).begun (some (.times ⟨t, hk⟩))
    have hfactor := Reached.mk hwithin (.factor hbegun)
    rwa [← List.append_assoc] at hfactor
  | div hk hph hne =>
    have hbegun := (hpartial.product hph).begun (some (.over ⟨t, hk⟩))
    have hfactor := Reached.mk hwithin (.factor hbegun)
    rwa [← List.append_assoc] at hfactor
  | slash hk =>
    cases hpartial with
    | numerator h ha n =>
      have hslash := Reached.mk hwithin (.slash h ha n ⟨t, hk⟩)
      rwa [← List.append_assoc] at hslash
  | exp hk =>
    cases hpartial with
    | atom h ha =>
      have hhat := Reached.mk hwithin (.hat h ha ⟨t, hk⟩)
      rwa [← List.append_assoc] at hhat
  | supinteger hk =>
    cases hpartial with
    | atom h ha =>
      have hnumerator := Reached.mk hwithin (.numerator h ha (.superscript ⟨t, hk⟩))
      rw [Numerator.tokens] at hnumerator
      simpa using hnumerator
  | numerator hk =>
    cases hpartial with
    | hat h ha hat =>
      have hnumerator := Reached.mk hwithin (.numerator h ha (.raised hat ⟨t, hk⟩))
      rw [Numerator.tokens] at hnumerator
      simpa using hnumerator
  | denominator hk hzero =>
    cases hpartial with
    | slash h ha n slash =>
      have hx : integerOf (⟨slash, ⟨t, hk⟩⟩ : Denominator).n.1 ≠ 0 := hzero
      have hdenominator := Reached.mk hwithin (.denominator h ha n hx)
      rw [Denominator.tokens] at hdenominator
      simpa using hdenominator

/-- More tokens lead to what is read up to the stage after them. -/
theorem Reached.run (h : Reached table st ts) (hrun : run table st us = some st') :
    Reached table st' (ts ++ us) := by
  induction us generalizing st ts with
  | nil =>
    cases hrun
    rwa [List.append_nil]
  | cons u us ih =>
    obtain ⟨st₁, hstep, hrest⟩ := exists_run_of_cons hrun
    have hmore := ih (h.step (step_eq_some_iff.mp hstep)) hrest
    rwa [List.append_assoc] at hmore

theorem reached_start : Reached table .start [] := .mk .top (.factor (.inl rfl))

/-- A product that ends outside all groups is an expression. -/
theorem Reached.isExpression (h : Reached table st ts) (haccepts : st.accepts = true) :
    IsExpression table ts := by
  obtain ⟨hwithin, hpartial⟩ := h
  simp only [Stage.accepts, Bool.and_eq_true, beq_iff_eq] at haccepts
  obtain ⟨hclose, rfl⟩ := haccepts
  obtain ⟨p, hp, rfl⟩ := hpartial.product hclose
  cases hwithin
  exact .inr ⟨p, rfl, hp⟩

/-- The expressions are the lists of tokens that lead from a factor to the end of a product, with no
group open, and the list without tokens. -/
theorem isExpression_iff_run :
    IsExpression table ts ↔ ts = [] ∨ ∃ st, run table .start ts = some st ∧ st.accepts = true := by
  constructor
  · rintro (rfl | ⟨p, rfl, hp⟩)
    · exact .inl rfl
    · obtain ⟨ph, hclose, hrun⟩ := run_product p .factor 0 hp (by decide)
      exact .inr ⟨⟨ph, 0⟩, hrun, by simp [Stage.accepts, hclose]⟩
  · rintro (rfl | ⟨st, hrun, haccepts⟩)
    · exact .inl rfl
    · exact (reached_start.run hrun).isExpression haccepts

/-- The beginning of an expression leads to a stage. -/
theorem exists_run_of_isExpression (h : IsExpression table (ts ++ us)) :
    ∃ st, run table .start ts = some st := by
  rcases isExpression_iff_run.mp h with hnil | ⟨st, hrun, -⟩
  · obtain ⟨rfl, -⟩ := List.append_eq_nil_iff.mp hnil
    exact ⟨.start, rfl⟩
  · obtain ⟨st₁, hrun₁, -⟩ := exists_run_of_append hrun
    exact ⟨st₁, hrun₁⟩

end reached

/-! ### Completions -/

/-- Closing parentheses, from a position of the text on. -/
def closers : ℕ → ℕ → List Token
  | _, 0 => []
  | n, d + 1 => ⟨.rparen, ")", n, none⟩ :: closers (n + 1) d

/-- What brings a phase to the end of a product: a symbol, a power or nothing. -/
def Phase.ending (symbol : String) : Phase → String × List Token
  | .factor | .slash => (symbol, [⟨.symbol, symbol, 0, none⟩])
  | .hat => ("1", [⟨.integer, "1", 0, some 1⟩])
  | .atom | .numerator | .denominator => ("", [])

/-- What brings a stage to the end of an expression. -/
def Stage.completion (symbol : String) (st : Stage) : List Token :=
  (st.phase.ending symbol).2 ++ closers (st.phase.ending symbol).1.length st.depth

/-- The completion as text. -/
def Stage.completionText (symbol : String) (st : Stage) : String :=
  (st.phase.ending symbol).1 ++ String.ofList (List.replicate st.depth ')')

section completion

variable {table : UnitTable} {symbol : String} {ts : List Token}

theorem run_closers (n : ℕ) (d : ℕ) (ph : Phase) (h : ph.closes = true) :
    ∃ ph' : Phase, ph'.closes = true ∧ run table ⟨ph, d⟩ (closers n d) = some ⟨ph', 0⟩ := by
  induction d generalizing n ph with
  | zero => exact ⟨ph, h, rfl⟩
  | succ d ih =>
    obtain ⟨ph', hclose, hrun⟩ := ih (n + 1) .atom rfl
    refine ⟨ph', hclose, ?_⟩
    rw [closers, run_cons (Step.rparen rfl h).eq_some, hrun]

theorem run_completion {q : Quantity} (h : table.lookup symbol = .ok q) (st : Stage) :
    ∃ st', run table st (st.completion symbol) = some st' ∧ st'.accepts = true := by
  obtain ⟨ph, d⟩ := st
  -- The first part ends the product, the parentheses end the groups.
  obtain ⟨ph₁, hclose, hfirst⟩ : ∃ ph₁ : Phase, ph₁.closes = true ∧
      run table ⟨ph, d⟩ (ph.ending symbol).2 = some ⟨ph₁, d⟩ := by
    cases ph with
    | factor | slash => exact ⟨.atom, rfl, run_cons (Step.symbol rfl (by decide) h).eq_some⟩
    | hat => exact ⟨.numerator, rfl, run_cons (Step.numerator rfl).eq_some⟩
    | atom | numerator | denominator => exact ⟨_, rfl, rfl⟩
  obtain ⟨ph', hclose', hclosers⟩ : ∃ ph' : Phase, ph'.closes = true ∧
      run table ⟨ph₁, d⟩ (closers (ph.ending symbol).1.length d) = some ⟨ph', 0⟩ :=
    run_closers _ d ph₁ hclose
  refine ⟨⟨ph', 0⟩, ?_, by simp [Stage.accepts, hclose']⟩
  rw [Stage.completion, run_append hfirst, hclosers]

theorem lexFrom_closers (text : String) (n d : ℕ) :
    Token.lexFrom text n (List.replicate d ')') = .ok (closers n d) := by
  induction d generalizing n with
  | zero => rfl
  | succ d ih =>
    have hrun : Token.runKind? ')' = none := by decide
    exact Token.lexFrom_append (Token.apart_of_runKind?_none hrun)
      (Token.lexFrom_single hrun rfl rfl) (ih (n + 1))

/-- The completion is read from its text. -/
theorem lex_completionText (hne : symbol ≠ "") (hrun : Token.IsRun .symbol symbol.toList)
    (st : Stage) : Token.lex (st.completionText symbol) = .ok (st.completion symbol) := by
  have hfirst : Token.lexFrom (st.completionText symbol) 0 (st.phase.ending symbol).1.toList =
      .ok (st.phase.ending symbol).2 := by
    cases st.phase with
    | factor | slash =>
      have hsymbol : Token.lexFrom (st.completionText symbol) 0 symbol.toList =
          .ok [⟨.symbol, String.ofList symbol.toList, 0, none⟩] :=
        Token.lexFrom_symbol hrun (by simpa using hne)
      rwa [String.ofList_toList] at hsymbol
    | hat =>
      have hone : Token.lexFrom (st.completionText symbol) 0 "1".toList =
          .ok [⟨.integer, String.ofList "1".toList, 0, some 1⟩] :=
        Token.lexFrom_integer (by decide) (by decide) (by decide)
      rwa [String.ofList_toList] at hone
    | atom | numerator | denominator => rfl
  have hapart : Token.Apart (st.phase.ending symbol).1.toList (List.replicate st.depth ')') := by
    cases st.depth with
    | zero =>
      intro _ _ _ hy
      cases hy
    | succ d => exact Token.apart_of_runKind?_none_right (by decide)
  rw [Token.lex_eq_lexFrom, Stage.completionText, String.toList_append, String.toList_ofList]
  refine Token.lexFrom_append hapart hfirst ?_
  rw [Nat.zero_add, String.length_toList]
  exact lexFrom_closers _ _ _

/-- Tokens that lead to a stage are completed to an expression. -/
theorem isExpression_completion {q : Quantity} {st : Stage} (h : table.lookup symbol = .ok q)
    (hrun : run table .start ts = some st) : IsExpression table (ts ++ st.completion symbol) := by
  obtain ⟨st', hcompletion, haccepts⟩ := run_completion h st
  refine isExpression_iff_run.mpr (.inr ⟨st', ?_, haccepts⟩)
  rw [run_append hrun, hcompletion]

end completion

end UnitCalculus.Expression
