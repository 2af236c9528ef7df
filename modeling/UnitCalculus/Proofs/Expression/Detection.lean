import UnitCalculus.Proofs.Expression.Spans
import UnitCalculus.Proofs.Expression.Viable

/-! # Where faults are reported

The reader goes on from stage to stage as single tokens do (`Follows`), and where it fails with a
fault of the expression, it does so at the first token that no expression goes on with, or at the
end of the text if the tokens end too soon (`stop`).  This holds for each of its functions, from the
stage it is called in to the stage it leaves.

What each function leaves is just what the next one relies on: after a factor, no token that belongs
to it is left (`Settled`); before a factor, any token that starts none leads nowhere (`Ready`). -/

namespace UnitCalculus.Expression

open UnitCalculus.Expression.Derivation

/-- The position at which reading from the stage must stop: that of the first token that leads
nowhere, or the end of the text; none if the tokens end an expression. -/
def stop (s : Scope) : Stage → List Token → Option ℕ
  | st, [] => if st.accepts then none else some s.text.length
  | st, t :: ts =>
    match step s.table st t with
    | none => some t.position
    | some st' => stop s st' ts

section follows

variable {s : Scope} {st st' : Stage} {t : Token} {ts rest : List Token} {d : ℕ}
  {Q R : Stage → List Token → Prop} {α β : Type}

theorem stop_cons (h : step s.table st t = some st') : stop s st (t :: ts) = stop s st' ts := by
  rw [stop, h]

theorem stop_of_step_none (h : step s.table st t = none) :
    stop s st (t :: ts) = some t.position := by
  rw [stop, h]

theorem stop_nil (h : st.accepts = false) : stop s st [] = some s.text.length := by
  rw [stop, h]
  rfl

theorem stop_append {pre : List Token} (h : run s.table st pre = some st') :
    stop s st (pre ++ ts) = stop s st' ts := by
  induction pre generalizing st with
  | nil =>
    cases h
    rfl
  | cons t pre ih =>
    obtain ⟨st₁, hstep, hrest⟩ := exists_run_of_cons h
    rw [List.cons_append, stop_cons hstep, ih hrest]

/-- Reading the tokens goes from the stage to one with the property, and a fault of the expression
is reported in the text, where reading must stop. -/
def Follows (s : Scope) (st : Stage) (ts : List Token) (Q : Stage → List Token → Prop) :
    Except Fault (α × List Token) → Prop
  | .ok (_, rest) => ∃ pre st', ts = pre ++ rest ∧ run s.table st pre = some st' ∧ Q st' rest
  | .error f => ∀ e, f = .expression e → e.text = s.text ∧ stop s st ts = some e.position

theorem follows_ok (a : α) (h : Q st ts) : Follows s st ts Q (.ok (a, ts)) :=
  ⟨[], st, rfl, rfl, h⟩

theorem follows_fault {c : ExpressionCause} {n : ℕ} (h : stop s st ts = some n) :
    Follows s st ts Q (.error (s.fault c n) : Except Fault (α × List Token)) := by
  rintro e ⟨rfl⟩
  exact ⟨rfl, h⟩

/-- The first tokens lead to a stage, and the others are read from there. -/
theorem Follows.append {pre : List Token} {x : Except Fault (α × List Token)}
    (h : Follows s st' ts Q x) (hrun : run s.table st pre = some st') :
    Follows s st (pre ++ ts) Q x := by
  rcases x with f | ⟨a, rest⟩
  · intro e he
    rw [stop_append hrun]
    exact h e he
  · obtain ⟨pre', st₁, rfl, hrun', hQ⟩ := h
    exact ⟨pre ++ pre', st₁, (List.append_assoc ..).symm, by rwa [run_append hrun], hQ⟩

theorem Follows.cons {x : Except Fault (α × List Token)} (h : Follows s st' ts Q x)
    (hstep : step s.table st t = some st') : Follows s st (t :: ts) Q x := by
  have hrun : run s.table st [t] = some st' := run_cons hstep
  exact h.append hrun

theorem Follows.bind {x : Except Fault (α × List Token)}
    {k : α × List Token → Except Fault (β × List Token)} (hx : Follows s st ts Q x)
    (hk : ∀ a st' rest, x = .ok (a, rest) → rest <:+ ts → Q st' rest →
      Follows s st' rest R (k (a, rest))) :
    Follows s st ts R (x >>= k) := by
  rcases x with f | ⟨a, rest⟩
  · exact hx
  · obtain ⟨pre, st', rfl, hrun, hQ⟩ := hx
    exact (hk a st' rest rfl (List.suffix_append pre rest) hQ).append hrun

/-- Arithmetic reads no tokens, and its faults are not of the expression. -/
theorem Follows.of_arithmetic {x : Except Fault α} {k : α → Except Fault (β × List Token)}
    (hx : OnlyFaults Arithmetic x) (hk : ∀ a, Follows s st ts Q (k a)) :
    Follows s st ts Q (x >>= k) := by
  cases x with
  | ok a => exact hk a
  | error f =>
    obtain ⟨n, rfl⟩ := hx f rfl
    rintro e ⟨⟩

theorem Follows.mono {x : Except Fault (α × List Token)} (h : Follows s st ts Q x)
    (hQ : ∀ st' rest, rest <:+ ts → Q st' rest → R st' rest) : Follows s st ts R x := by
  rcases x with f | ⟨a, rest⟩
  · exact h
  · obtain ⟨pre, st', rfl, hrun, hst⟩ := h
    exact ⟨pre, st', rfl, hrun, hQ st' rest (List.suffix_append pre rest) hst⟩

end follows

theorem Valued.suffix {ts rest : List Token} (h : Valued ts) (hrest : rest <:+ ts) : Valued rest :=
  fun t ht => h t (hrest.subset ht)

/-! ### What the functions of the reader leave -/

/-- No token of the factor that was just read is left. -/
def Settled : Phase → List Token → Prop
  | .atom, ts => ∀ t ∈ ts.head?, t.kind ≠ .exp ∧ t.kind ≠ .supinteger
  | .numerator, ts => ∀ slash n rest, ts = slash :: n :: rest → slash.kind = .div →
      n.kind ≠ .integer
  | _, _ => True

/-- A factor was just read. -/
structure AfterFactor (d : ℕ) (st : Stage) (rest : List Token) : Prop where
  depth : st.depth = d
  closes : st.phase.closes = true
  settled : Settled st.phase rest

/-- A factor may come, and nothing else. -/
structure Ready (table : UnitTable) (d : ℕ) (st : Stage) (ts : List Token) : Prop where
  depth : st.depth = d
  phase : st.phase ≠ .hat
  leads : ∀ t ∈ ts.head?, ¬ Starts t → step table st t = none

/-- A product was just read; if tokens are left, the first one closes its group. -/
structure AfterProduct (grouped : Bool) (d : ℕ) (st : Stage) (rest : List Token) : Prop where
  depth : st.depth = d
  closes : rest ≠ [] → st.phase.closes = true
  ends : ends grouped rest = true

section reader

variable {s : Scope} {st : Stage} {t : Token} {ts : List Token} {d : ℕ}

theorem follows_denominator (hv : Valued ts) :
    Follows s ⟨.numerator, d⟩ ts (AfterFactor d) (denominator s ts) := by
  unfold denominator
  split
  · next slash n rest =>
    split
    · next hk =>
      simp only [Bool.and_eq_true, beq_iff_eq] at hk
      have hint := integer_cons s rest (.inl hk.2) (hv n (by simp) (.inl hk.2))
      have hslash : step s.table ⟨.numerator, d⟩ slash = some ⟨.slash, d⟩ := by simp [step, hk.1]
      rw [hint, ok_bind]
      by_cases hzero : integerOf n = 0
      · have hstep : step s.table ⟨.slash, d⟩ n = none := by simp [step, hk.2, hzero]
        simp only [hzero, beq_self_eq_true, if_true]
        refine follows_fault ?_
        rw [stop_cons hslash, stop_of_step_none hstep]
      · have hstep : step s.table ⟨.slash, d⟩ n = some ⟨.denominator, d⟩ := by
          simp [step, hk.2, hzero]
        simp only [beq_eq_false_iff_ne.mpr hzero]
        exact ((follows_ok _ ⟨rfl, rfl, trivial⟩).cons hstep).cons hslash
    · next hk =>
      refine follows_ok _ ⟨rfl, rfl, ?_⟩
      rintro slash' n' rest' ⟨⟩ hslash hn
      simp [hslash, hn] at hk
  · next hts =>
    refine follows_ok _ ⟨rfl, rfl, ?_⟩
    intro slash n rest hcons
    exact absurd hcons (hts slash n rest)

/-- An integer that leads to a numerator, and what may follow it. -/
theorem follows_rational (hstep : step s.table st t = some ⟨.numerator, d⟩)
    (hk : t.kind = .integer ∨ t.kind = .supinteger) (hv : Valued (t :: ts)) :
    Follows s st (t :: ts) (AfterFactor d) (rational s (t :: ts)) := by
  rw [rational, integer_cons s ts hk (hv t List.mem_cons_self hk), ok_bind]
  have hrest : Follows s ⟨.numerator, d⟩ ts (AfterFactor d) (denominator s ts) :=
    follows_denominator (hv.suffix (List.suffix_cons t ts))
  refine Follows.cons ?_ hstep
  exact hrest.bind fun x st' rest _ _ hafter => follows_ok _ hafter

theorem follows_exponent? (hv : Valued ts) :
    Follows s ⟨.atom, d⟩ ts (AfterFactor d) (exponent? s ts) := by
  cases ts with
  | nil => exact follows_ok _ ⟨rfl, rfl, by simp [Settled]⟩
  | cons t ts =>
    rw [exponent?.eq_def]
    dsimp only
    split
    · next hk =>
      have hhat : step s.table ⟨.atom, d⟩ t = some ⟨.hat, d⟩ := by simp [step, hk]
      cases ts with
      | nil =>
        refine follows_fault ?_
        rw [stop_cons hhat, stop_nil rfl]
      | cons n rest =>
        dsimp only
        have hv' := hv.suffix (List.suffix_cons t (n :: rest))
        split
        · next hn =>
          have hn' := beq_iff_eq.mp hn
          have hstep : step s.table ⟨.hat, d⟩ n = some ⟨.numerator, d⟩ := by simp [step, hn']
          have hrational := follows_rational hstep (.inl hn') hv'
          refine Follows.cons ?_ hhat
          exact hrational.bind fun q st' rest' _ _ hafter => follows_ok _ hafter
        · next hn =>
          have hn' : n.kind ≠ .integer := by simpa using hn
          have hstep : step s.table ⟨.hat, d⟩ n = none := by
            cases hkind : n.kind <;> simp_all [step, Phase.closes]
          refine follows_fault ?_
          rw [stop_cons hhat, stop_of_step_none hstep]
    · next hk =>
      have hstep : step s.table ⟨.atom, d⟩ t = some ⟨.numerator, d⟩ := by simp [step, hk]
      have hrational := follows_rational hstep (.inr hk) hv
      exact hrational.bind fun q st' rest' _ _ hafter => follows_ok _ hafter
    · next hexp hsup =>
      refine follows_ok _ ⟨rfl, rfl, ?_⟩
      rintro u ⟨⟩
      exact ⟨hexp, hsup⟩

/-- The parenthesis that closes a group. -/
theorem follows_close (h : AfterProduct true (d + 1) st ts) :
    Follows s st ts (fun st' _ => st' = ⟨.atom, d⟩) (close s ts) := by
  cases ts with
  | nil =>
    refine follows_fault (stop_nil ?_)
    simp [Stage.accepts, h.depth]
  | cons r ts =>
    have hr : r.kind = .rparen := by simpa [ends] using h.ends
    have hstep : step s.table st r = some ⟨.atom, d⟩ := by
      simp [step, hr, h.depth, h.closes (List.cons_ne_nil r ts)]
    rw [close, if_pos (beq_iff_eq.mpr hr)]
    exact (follows_ok () rfl).cons hstep

theorem follows_resolve (hk : t.kind = .symbol) (h : Ready s.table d st (t :: ts)) :
    Follows s st (t :: ts) (fun st' rest => st' = ⟨.atom, d⟩ ∧ rest = ts)
      (do return (← resolve s t, ts)) := by
  have hphase := h.phase
  have hdepth := h.depth
  unfold resolve
  cases hlookup : s.table.lookup t.text with
  | ok q =>
    have hstep : step s.table st t = some ⟨.atom, d⟩ := by
      simp [step, hk, hphase, hdepth, hlookup, Except.toBool]
    exact Follows.cons (follows_ok q ⟨rfl, rfl⟩) hstep
  | error f =>
    have hstep : step s.table st t = none := by simp [step, hk, hlookup, Except.toBool]
    cases f with
    | expression e => exact follows_fault (stop_of_step_none hstep)
    | _ => rintro e ⟨⟩

/-- What reading groups is assumed to do, in lists of fewer than `n` tokens. -/
def FollowsGroup (s : Scope) (group : Reader Quantity) (n : ℕ) : Prop :=
  ∀ ts d, ts.length < n → Valued ts →
    Follows s ⟨.factor, d + 1⟩ ts (AfterProduct true (d + 1)) (group ts)

variable {group : Reader Quantity} {n : ℕ}

theorem follows_unit (hg : FollowsGroup s group n) (hn : ts.length < n) (hv : Valued (t :: ts))
    (h : Ready s.table d st (t :: ts)) :
    Follows s st (t :: ts) (fun st' rest => st' = ⟨.atom, d⟩ ∧ rest <:+ ts)
      (unit s group (t :: ts)) := by
  rw [unit]
  split
  · next hk =>
    have hstep : step s.table st t = some ⟨.factor, d + 1⟩ := by
      simp [step, hk, h.phase, h.depth]
    have hgroup := hg ts d hn (hv.suffix (List.suffix_cons t ts))
    refine Follows.cons ?_ hstep
    refine hgroup.bind fun q st' rest _ hrest hafter => ?_
    refine (follows_close hafter).bind fun _ st'' rest' _ hrest' hatom => ?_
    exact follows_ok _ ⟨hatom, hrest'.trans hrest⟩
  · next hk =>
    refine (follows_resolve hk h).mono fun st' rest _ hafter => ?_
    obtain ⟨hst, rfl⟩ := hafter
    exact ⟨hst, List.suffix_refl _⟩
  · next hparen hsymbol =>
    have hstarts : ¬ Starts t := fun ht => ht.elim hparen hsymbol
    exact follows_fault (stop_of_step_none (h.leads t rfl hstarts))

theorem follows_factor (hg : FollowsGroup s group n) (hn : ts.length < n) (hv : Valued (t :: ts))
    (h : Ready s.table d st (t :: ts)) :
    Follows s st (t :: ts) (fun st' rest => AfterFactor d st' rest ∧ rest <:+ ts)
      (factor s group (t :: ts)) := by
  refine (follows_unit hg hn hv h).bind ?_
  rintro q st' rest - hsuffix ⟨rfl, hrest⟩
  refine (follows_exponent? (hv.suffix hsuffix)).bind fun e st' rest' _ hrest' hafter => ?_
  cases e with
  | none => exact follows_ok _ ⟨hafter, hrest'.trans hrest⟩
  | some e =>
    exact .of_arithmetic (onlyFaults_pow q e) fun r => follows_ok _ ⟨hafter, hrest'.trans hrest⟩

theorem ready_factor (table : UnitTable) (d : ℕ) (ts : List Token) :
    Ready table d ⟨.factor, d⟩ ts := by
  refine ⟨rfl, by simp, fun t _ hstarts => ?_⟩
  cases hk : t.kind <;> simp_all [step, Starts, Phase.closes]

theorem ready_slash (table : UnitTable) (d : ℕ) (h : ∀ t ∈ ts.head?, t.kind ≠ .integer) :
    Ready table d ⟨.slash, d⟩ ts := by
  refine ⟨rfl, by simp, fun t ht hstarts => ?_⟩
  have hinteger := h t ht
  cases hk : t.kind <;> simp_all [step, Starts, Phase.closes]

/-- Without a sign the next factor must come, where the product does not end. -/
theorem AfterFactor.ready (table : UnitTable) {grouped : Bool} (hd : grouped = false → d = 0)
    (h : AfterFactor d st (t :: ts)) (hends : ends grouped (t :: ts) = false)
    (hmul : t.kind ≠ .mul) (hdiv : t.kind ≠ .div) : Ready table d st (t :: ts) := by
  obtain ⟨ph, depth⟩ := st
  obtain ⟨rfl, hclose, hsettled⟩ := h
  refine ⟨rfl, ?_, ?_⟩
  · rintro rfl
    cases hclose
  · rintro u ⟨⟩ hstarts
    cases hk : t.kind with
    | mul => exact absurd hk hmul
    | div => exact absurd hk hdiv
    | symbol => exact absurd (.inr hk) hstarts
    | lparen => exact absurd (.inl hk) hstarts
    | rparen =>
      have hgrouped : grouped = false := by simpa [ends, hk] using hends
      have hdepth : depth = 0 := hd hgrouped
      simp [step, hk, hdepth]
    | exp | supinteger => cases ph <;> simp_all [step, Settled]
    | integer => cases ph <;> simp_all [step, Phase.closes]

/-- A sign leads to where a factor must come, and must not be the last token. -/
theorem follows_sign {ph : Phase} (o : Operator) (hph : ph.closes = false)
    (hstep : step s.table st t = some ⟨ph, d⟩) (hready : Ready s.table d ⟨ph, d⟩ ts) :
    Follows s st (t :: ts) (fun st' rest => Ready s.table d st' rest ∧ rest ≠ [])
      (if ts = [] then .error s.endFault else .ok (o, ts)) := by
  split
  · next hnil =>
    subst hnil
    refine follows_fault ?_
    rw [stop_cons hstep, stop_nil (by simp [Stage.accepts, hph])]
  · next hne => exact (follows_ok o ⟨hready, hne⟩).cons hstep

theorem follows_operator {grouped : Bool} (hd : grouped = false → d = 0)
    (h : AfterFactor d st ts) (hends : ends grouped ts = false) :
    Follows s st ts (fun st' rest => Ready s.table d st' rest ∧ rest ≠ []) (operator s ts) := by
  cases ts with
  | nil => cases hends
  | cons t ts =>
    by_cases hmul : t.kind = .mul
    · have hop : operator s (t :: ts) = if ts = [] then .error s.endFault else .ok (.mul, ts) := by
        cases ts <;> simp [operator, hmul]
      have hstep : step s.table st t = some ⟨.factor, d⟩ := by
        simp [step, hmul, h.closes, h.depth]
      rw [hop]
      exact follows_sign .mul rfl hstep (ready_factor _ _ _)
    · by_cases hdiv : t.kind = .div
      · have hop : operator s (t :: ts) =
            if ts = [] then .error s.endFault else .ok (.div, ts) := by
          cases ts <;> simp [operator, hdiv]
        rw [hop]
        by_cases hph : st.phase = .numerator
        · have hstep : step s.table st t = some ⟨.slash, d⟩ := by
            simp [step, hdiv, hph, h.depth]
          refine follows_sign .div rfl hstep (ready_slash _ _ fun n hn => ?_)
          obtain ⟨rest, rfl⟩ := List.head?_eq_some_iff.mp hn
          have hsettled := h.settled
          rw [hph] at hsettled
          exact hsettled t n rest rfl hdiv
        · have hstep : step s.table st t = some ⟨.factor, d⟩ := by
            simp [step, hdiv, hph, h.closes, h.depth]
          exact follows_sign .div rfl hstep (ready_factor _ _ _)
      · rw [operator_none s ts hmul hdiv]
        exact follows_ok _ ⟨h.ready s.table hd hends hmul hdiv, List.cons_ne_nil t ts⟩

theorem follows_moreFactors (hg : FollowsGroup s group n) {grouped : Bool}
    (hd : grouped = false → d = 0) (rounds : ℕ) (q : Quantity) (hn : ts.length ≤ n)
    (hr : ts.length ≤ rounds) (hv : Valued ts) (h : AfterFactor d st ts) :
    Follows s st ts (AfterProduct grouped d) (moreFactors s group grouped rounds q ts) := by
  induction rounds generalizing q ts st with
  | zero =>
    obtain rfl := List.length_eq_zero_iff.mp (Nat.le_zero.mp hr)
    exact follows_ok _ ⟨h.depth, fun _ => h.closes, rfl⟩
  | succ rounds ih =>
    rw [moreFactors]
    split
    · next hends => exact follows_ok _ ⟨h.depth, fun _ => h.closes, hends⟩
    · next hends =>
      refine (follows_operator hd h (by simpa using hends)).bind ?_
      rintro o st' rest hop hrest ⟨hready, hne⟩
      obtain ⟨t, us, rfl⟩ := List.exists_cons_of_ne_nil hne
      have hlen := hrest.length_le
      rw [List.length_cons] at hlen
      have hv' := hv.suffix hrest
      refine (follows_factor hg (by omega) hv' hready).bind ?_
      rintro r st'' rest' - hrest' ⟨hafter, hshort⟩
      have hlen' := hshort.length_le
      obtain ⟨sign, -, -, -, -, rfl⟩ := operator_sound hop
      exact .of_arithmetic (onlyFaults_sign sign q r) fun q' =>
        ih q' (by omega) (by omega) (hv'.suffix hrest') hafter

/-- Reading a product, with enough levels for its groups. -/
theorem follows_product (depth : ℕ) {grouped : Bool} (hd : grouped = false → d = 0)
    (hn : ts.length < depth) (hv : Valued ts) :
    Follows s ⟨.factor, d⟩ ts (AfterProduct grouped d) (product s depth grouped ts) := by
  induction depth generalizing grouped ts d with
  | zero => omega
  | succ depth ih =>
    have hg : FollowsGroup s (product s depth true) depth :=
      fun us d hus hvus => ih (by simp) hus hvus
    cases ts with
    | nil => exact follows_ok _ ⟨rfl, by simp, rfl⟩
    | cons t ts =>
      rw [List.length_cons] at hn
      unfold product
      refine (follows_factor hg (by omega) hv (ready_factor _ _ _)).bind ?_
      rintro q st' rest - hrest ⟨hafter, hshort⟩
      have hlen := hshort.length_le
      exact follows_moreFactors hg hd _ q (by omega) (Nat.le_refl _) (hv.suffix hrest) hafter

/-- A fault of the expression is reported where the tokens stop to lead on. -/
theorem ofTokens_fault {e : ExpressionFault} (hv : Valued ts)
    (h : ofTokens s ts = .error (.expression e)) :
    e.text = s.text ∧ stop s .start ts = some e.position := by
  have hfollows : Follows s .start ts (AfterProduct false 0) (product s (ts.length + 1) false ts) :=
    follows_product _ (fun _ => rfl) (Nat.lt_succ_self _) hv
  unfold ofTokens at h
  cases hread : product s (ts.length + 1) false ts with
  | ok x =>
    rw [hread] at h
    cases h
  | error f =>
    rw [hread] at h hfollows
    cases h
    exact hfollows e rfl

end reader

/-! ### Where tokens lead nowhere -/

section stop

variable {s : Scope} {st : Stage} {ts : List Token} {n : ℕ}

theorem exists_of_stop (h : stop s st ts = some n) :
    (∃ pre t post st', ts = pre ++ t :: post ∧ run s.table st pre = some st' ∧
      step s.table st' t = none ∧ n = t.position) ∨
    ∃ st', run s.table st ts = some st' ∧ st'.accepts = false ∧ n = s.text.length := by
  induction ts generalizing st with
  | nil =>
    cases haccepts : st.accepts with
    | true => simp [stop, haccepts] at h
    | false =>
      rw [stop_nil haccepts] at h
      exact .inr ⟨st, rfl, haccepts, (Option.some.inj h).symm⟩
  | cons t ts ih =>
    cases hstep : step s.table st t with
    | none =>
      rw [stop_of_step_none hstep] at h
      exact .inl ⟨[], t, ts, st, rfl, rfl, hstep, (Option.some.inj h).symm⟩
    | some st₁ =>
      rw [stop_cons hstep] at h
      rcases ih h with ⟨pre, u, post, st', rfl, hrun, hnone, hn⟩ | ⟨st', hrun, hno, hn⟩
      · exact .inl ⟨t :: pre, u, post, st', rfl, by rwa [run_cons hstep], hnone, hn⟩
      · exact .inr ⟨st', by rwa [run_cons hstep], hno, hn⟩

/-- No expression starts with tokens of which the last one leads nowhere. -/
theorem not_isExpression_of_step_none {table : UnitTable} {pre : List Token} {t : Token}
    (hrun : run table .start pre = some st) (hstep : step table st t = none) (us : List Token) :
    ¬ IsExpression table (pre ++ t :: us) := by
  intro h
  rw [← List.singleton_append, ← List.append_assoc] at h
  obtain ⟨st', hst'⟩ := exists_run_of_isExpression h
  rw [run_append hrun] at hst'
  obtain ⟨st₁, hstep', -⟩ := exists_run_of_cons hst'
  rw [hstep] at hstep'
  cases hstep'

end stop

end UnitCalculus.Expression
