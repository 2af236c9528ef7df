import UnitCalculus.Proofs.Expression.Derivation
import UnitCalculus.Proofs.Outcome

/-! # Reading unit expressions

The reader and the grammar agree.  Reading the tokens of a tree and then some that do not belong to
it returns the value of the tree and the tokens that are left (`product_tokens`); it succeeds only
on the tokens of a tree whose symbols stand for quantities and whose exponents have denominators
other than zero (`product_sound`).  Both follow the recursion of the reader: a group is read by the
reader for one level less, which the number of tokens bounds. -/

namespace UnitCalculus.Expression

open UnitCalculus.Expression.Derivation

/-! ### Reading what a tree derives -/

/-- Integer tokens have values. -/
def Valued (ts : List Token) : Prop :=
  ∀ t ∈ ts, t.kind = .integer ∨ t.kind = .supinteger → t.value.isSome = true

/-- What the tokens of a tree and its exponents need to be read without a fault of the text. -/
structure Readable (table : UnitTable) (ts : List Token) (es : List Power) : Prop
    extends Meaningful table ts es where
  valued : Valued ts

theorem Readable.mono {table : UnitTable} {ts us : List Token} {es fs : List Power}
    (h : Readable table ts es) (hts : us ⊆ ts) (hes : fs ⊆ es) : Readable table us fs :=
  ⟨⟨fun t ht => h.resolves t (hts ht), fun e he => h.divides e (hes he)⟩,
    fun t ht => h.valued t (hts ht)⟩

theorem integer_cons (s : Scope) {t : Token} (ts : List Token)
    (hk : t.kind = .integer ∨ t.kind = .supinteger) (hv : t.value.isSome = true) :
    integer s (t :: ts) = .ok ((integerOf t, t), ts) := by
  obtain ⟨n, hn⟩ := Option.isSome_iff_exists.mp hv
  rcases hk with hk | hk <;> simp [integer, integerOf, hk, hn]

theorem denominator_none (s : Scope) {ts : List Token} (h : extendsFactor ts = false) :
    denominator s ts = .ok (none, ts) := by
  match ts with
  | [] => rfl
  | [_] => rfl
  | slash :: d :: ts =>
    by_cases hs : slash.kind = .div
    · have hd : d.kind ≠ .integer := by simpa [extendsFactor, hs] using h
      simp [denominator, hd]
    · simp [denominator, hs]

theorem denominator_tokens (s : Scope) (d : Option Denominator) {ts : List Token}
    (hts : extendsFactor ts = false) (hv : Valued ((d.map Denominator.tokens).getD []))
    (hd : ∀ x ∈ d, integerOf x.n.1 ≠ 0) :
    denominator s ((d.map Denominator.tokens).getD [] ++ ts) =
      .ok (d.map fun x => integerOf x.n.1, ts) := by
  rcases d with _ | ⟨slash, n⟩
  · exact denominator_none s hts
  · have hint := integer_cons s ts (Or.inl n.2) (hv n.1 (by simp [Denominator.tokens]) (Or.inl n.2))
    have hzero : integerOf n.1 ≠ 0 := hd _ rfl
    simp only [Option.map_some, Option.getD_some, Denominator.tokens, List.cons_append,
      List.nil_append, denominator, slash.2, n.2, beq_self_eq_true, Bool.and_self, if_true, hint]
    simp only [bind, Except.bind, beq_eq_false_iff_ne.mpr hzero]
    rfl

theorem rational_tokens (s : Scope) {n : Token} (d : Option Denominator) {ts : List Token}
    (hts : extendsFactor ts = false) (hk : n.kind = .integer ∨ n.kind = .supinteger)
    (hv : Valued (n :: (d.map Denominator.tokens).getD []))
    (hd : ∀ x ∈ d, integerOf x.n.1 ≠ 0) :
    rational s (n :: ((d.map Denominator.tokens).getD [] ++ ts)) =
      .ok ((integerOf n : Rat) / (((d.map fun x => integerOf x.n.1).getD 1 : Int) : Rat), ts) := by
  have hint := integer_cons s ((d.map Denominator.tokens).getD [] ++ ts) hk
    (hv n List.mem_cons_self hk)
  have hden := denominator_tokens s d hts (fun t ht => hv t (List.mem_cons_of_mem n ht)) hd
  simp only [rational, hint, bind, Except.bind, hden]
  rfl

theorem exponent?_none (s : Scope) {ts : List Token} (h : extendsFactor ts = false) :
    exponent? s ts = .ok (none, ts) := by
  cases ts with
  | nil => rfl
  | cons t ts =>
    unfold extendsFactor at h
    unfold exponent?
    cases hk : t.kind <;> simp_all

theorem exponent?_tokens (s : Scope) (e : Option Power) {ts : List Token}
    (hts : extendsFactor ts = false) (hv : Valued (powerTokens e)) (hd : Divides e.toList) :
    exponent? s (powerTokens e ++ ts) = .ok (e.map Power.value, ts) := by
  rcases e with _ | ⟨n, d⟩
  · exact exponent?_none s hts
  · have hne : ∀ x ∈ d, integerOf x.n.1 ≠ 0 := by
      intro x hx h0
      rw [Option.mem_def] at hx
      exact hd ⟨n, d⟩ (by simp) (by simp [Power.den, hx, h0])
    rcases n with ⟨hat, i⟩ | i
    · have hr := rational_tokens s d hts (Or.inl i.2) (fun t ht => hv t (by
        simp only [powerTokens, Power.tokens, Numerator.tokens, Option.map_some, Option.getD_some]
        exact List.mem_cons_of_mem _ ht)) hne
      simp only [powerTokens, Power.tokens, Numerator.tokens, Option.map_some, Option.getD_some,
        List.cons_append, List.nil_append, exponent?, hat.2, i.2, beq_self_eq_true, if_true, hr]
      rfl
    · have hr := rational_tokens s d hts (Or.inr i.2) hv hne
      simp only [powerTokens, Power.tokens, Numerator.tokens, Option.map_some, Option.getD_some,
        List.cons_append, List.nil_append, exponent?, i.2, hr]
      rfl

theorem operator_signTokens (s : Scope) (sign : Option Sign) {t : Token} (ht : Starts t)
    (ts : List Token) :
    operator s (signTokens sign ++ t :: ts) = .ok (signOperator sign, t :: ts) := by
  rcases sign with _ | ⟨m | d⟩
  · rcases ht with ht | ht <;> simp [signTokens, operator, signOperator, ht]
  · simp [signTokens, Sign.token, operator, signOperator, m.2]
  · simp [signTokens, Sign.token, operator, signOperator, d.2]

mutual

/-- Reading an atom returns its value and what follows it. -/
theorem unit_tokens (s : Scope) : ∀ (a : Atom) (depth : ℕ) (ts : List Token),
    a.tokens.length ≤ depth → Readable s.table a.tokens a.powers →
      unit s (product s depth true) (a.tokens ++ ts) = (a.eval s.table).map (·, ts)
  | .symbol t, depth, ts, _, hr => by
      obtain ⟨q, hq⟩ := hr.resolves t.1 (by rw [Atom.tokens]; exact List.mem_singleton_self _) t.2
      rw [Atom.tokens, Atom.eval]
      simp only [List.cons_append, List.nil_append, unit, t.2, resolve, hq]
      rfl
  | .group l p r, depth, ts, hd, hr => by
      rw [Atom.tokens, List.length_cons, List.length_append] at hd
      obtain ⟨d, rfl⟩ : ∃ d, depth = d + 1 := ⟨depth - 1, by omega⟩
      have hread := product_tokens s p true d (r.1 :: ts)
        (by simp only [List.length_singleton] at hd; omega)
        (hr.mono (by rw [Atom.tokens]; simp) (by rw [Atom.powers]; simp))
        (by simp [ends, r.2])
      rw [Atom.tokens, Atom.eval]
      simp only [List.cons_append, List.append_assoc, List.nil_append, unit, l.2, hread]
      cases p.eval s.table with
      | error f => rfl
      | ok q => simp [Except.map, bind, Except.bind, close, r.2, pure, Except.pure]

theorem factor_tokens (s : Scope) : ∀ (f : Powered) (depth : ℕ) (ts : List Token),
    f.tokens.length ≤ depth → Readable s.table f.tokens f.powers → extendsFactor ts = false →
      factor s (product s depth true) (f.tokens ++ ts) = (f.eval s.table).map (·, ts)
  | .mk a e, depth, ts, hd, hr, hts => by
      rw [Powered.tokens, List.length_append] at hd
      have hatom := unit_tokens s a depth (powerTokens e ++ ts) (by omega)
        (hr.mono (by rw [Powered.tokens]; simp) (by rw [Powered.powers]; simp))
      have hpow := exponent?_tokens s e hts
        (fun t ht => hr.valued t (by rw [Powered.tokens]; exact List.mem_append_right _ ht))
        (fun x hx => hr.divides x (by rw [Powered.powers]; exact List.mem_append_right _ hx))
      rw [Powered.tokens, List.append_assoc]
      simp only [factor, hatom]
      cases e with
      | none =>
        rw [Powered.eval]
        cases a.eval s.table with
        | error f => rfl
        | ok q => simp only [Except.map, bind, Except.bind, hpow]; rfl
      | some e =>
        rw [Powered.eval]
        cases a.eval s.table with
        | error f => rfl
        | ok q =>
          simp only [Except.map, bind, Except.bind, hpow, Option.map_some]
          cases q.pow e.value <;> rfl

theorem product_tokens (s : Scope) : ∀ (p : Product) (grouped : Bool) (depth : ℕ)
    (ts : List Token), p.tokens.length ≤ depth → Readable s.table p.tokens p.powers →
      ends grouped ts = true →
      product s (depth + 1) grouped (p.tokens ++ ts) = (p.eval s.table).map (·, ts)
  | .mk f m, grouped, depth, ts, hd, hr, hts => by
      rw [Product.tokens, List.length_append] at hd
      have hfirst := factor_tokens s f depth (m.tokens ++ ts) (by omega)
        (hr.mono (by rw [Product.tokens]; simp) (by rw [Product.powers]; simp))
        (extendsFactor_tail m (extendsFactor_of_ends hts))
      rw [Product.tokens, Product.eval, List.append_assoc]
      simp only [product, hfirst]
      cases f.eval s.table with
      | error f => rfl
      | ok q =>
        exact moreFactors_tokens s m grouped depth _ q ts (by omega) (by simp)
          (hr.mono (by rw [Product.tokens]; simp) (by rw [Product.powers]; simp)) hts

theorem moreFactors_tokens (s : Scope) : ∀ (m : Tail) (grouped : Bool) (depth rounds : ℕ)
    (q : Quantity) (ts : List Token), m.tokens.length ≤ depth → m.tokens.length ≤ rounds →
      Readable s.table m.tokens m.powers → ends grouped ts = true →
      moreFactors s (product s depth true) grouped rounds q (m.tokens ++ ts) =
        (m.evalFrom s.table q).map (·, ts)
  | .nil, grouped, depth, rounds, q, ts, _, _, _, hts => by
      rw [Tail.tokens, Tail.evalFrom, List.nil_append]
      cases rounds with
      | zero => rfl
      | succ n => rw [moreFactors, if_pos hts]; rfl
  | .cons sign f m, grouped, depth, rounds, q, ts, hd, hn, hr, hts => by
      obtain ⟨t, us, ht, hs⟩ := f.exists_head
      have hends := ends_cons grouped sign f m ts
      have hop := operator_signTokens s sign hs (us ++ (m.tokens ++ ts))
      rw [← List.cons_append, ← ht] at hop
      rw [Tail.tokens, List.length_append, List.length_append] at hd hn
      have hpos : 0 < f.tokens.length := by rw [ht]; simp
      obtain ⟨n, rfl⟩ : ∃ n, rounds = n + 1 := ⟨rounds - 1, by omega⟩
      have hfactor := factor_tokens s f depth (m.tokens ++ ts) (by omega)
        (hr.mono (by rw [Tail.tokens]; simp) (by rw [Tail.powers]; simp))
        (extendsFactor_tail m (extendsFactor_of_ends hts))
      rw [moreFactors, if_neg (by rw [hends]; decide), Tail.tokens, Tail.evalFrom,
        List.append_assoc, List.append_assoc, hop]
      simp only [bind, Except.bind, hfactor]
      cases f.eval s.table with
      | error e => rfl
      | ok r =>
        simp only [Except.map]
        cases q.withQuantity (signOperator sign) r with
        | error e => rfl
        | ok q' =>
          exact moreFactors_tokens s m grouped depth n q' ts (by omega) (by omega)
            (hr.mono (by rw [Tail.tokens]; simp) (by rw [Tail.powers]; simp)) hts

end

/-! ### What is read is derived -/

theorem integer_sound {s : Scope} {ts rest : List Token} {n : Int} {t : Token}
    (h : integer s ts = .ok ((n, t), rest)) :
    ts = t :: rest ∧ (t.kind = .integer ∨ t.kind = .supinteger) ∧ t.value = some n := by
  cases ts with
  | nil => cases h
  | cons u us =>
    rw [integer] at h
    split at h
    · next hk =>
      cases hv : u.value with
      | none =>
        rw [hv] at h
        cases h
      | some m =>
        rw [hv] at h
        cases h
        exact ⟨rfl, by simpa using hk, hv⟩
    · cases h

theorem denominator_sound {s : Scope} {ts rest : List Token} {d : Option Int}
    (h : denominator s ts = .ok (d, rest)) :
    ∃ x : Option Denominator, ts = (x.map Denominator.tokens).getD [] ++ rest ∧
      ∀ y ∈ x, integerOf y.n.1 ≠ 0 := by
  unfold denominator at h
  split at h
  · next slash n us =>
    split at h
    · next hk =>
      simp only [Bool.and_eq_true, beq_iff_eq] at hk
      obtain ⟨⟨⟨m, t⟩, us'⟩, hint, hrest⟩ := bind_eq_ok h
      obtain ⟨hts, -, hv⟩ := integer_sound hint
      obtain ⟨rfl, rfl⟩ := List.cons.inj hts
      dsimp only at hrest
      split at hrest
      · cases hrest
      · next hm =>
        cases hrest
        refine ⟨some ⟨⟨slash, hk.1⟩, ⟨n, hk.2⟩⟩, rfl, ?_⟩
        intro y hy
        cases hy
        simpa [integerOf, hv] using hm
    · cases h
      exact ⟨none, rfl, by simp⟩
  · cases h
    exact ⟨none, rfl, by simp⟩

theorem rational_sound {s : Scope} {ts rest : List Token} {q : Rat}
    (h : rational s ts = .ok (q, rest)) :
    ∃ (t : Token) (x : Option Denominator),
      ts = t :: ((x.map Denominator.tokens).getD [] ++ rest) ∧
      (t.kind = .integer ∨ t.kind = .supinteger) ∧ ∀ y ∈ x, integerOf y.n.1 ≠ 0 := by
  obtain ⟨⟨⟨n, t⟩, us⟩, hint, h⟩ := bind_eq_ok h
  obtain ⟨⟨d, us'⟩, hden, h⟩ := bind_eq_ok h
  cases h
  obtain ⟨rfl, hk, -⟩ := integer_sound hint
  obtain ⟨x, rfl, hx⟩ := denominator_sound hden
  exact ⟨t, x, rfl, hk, hx⟩

theorem divides_of_denominator {n : Numerator} {d : Option Denominator}
    (h : ∀ y ∈ d, integerOf y.n.1 ≠ 0) : Divides [⟨n, d⟩] := by
  intro e he
  rw [List.mem_singleton.mp he]
  cases d with
  | none => simp [Power.den]
  | some y => simpa [Power.den] using h y rfl

theorem exponent?_sound {s : Scope} {ts rest : List Token} {e : Option Rat}
    (h : exponent? s ts = .ok (e, rest)) :
    ∃ x : Option Power, ts = powerTokens x ++ rest ∧ Divides x.toList := by
  cases ts with
  | nil =>
    cases h
    exact ⟨none, rfl, by simp [Divides]⟩
  | cons t us =>
    rw [exponent?.eq_def] at h
    dsimp only at h
    split at h
    · next hk =>
      cases us with
      | nil => cases h
      | cons n vs =>
        dsimp only at h
        split at h
        · next hn =>
          obtain ⟨⟨q, ws⟩, hq, h⟩ := bind_eq_ok h
          cases h
          obtain ⟨m, x, hts, -, hx⟩ := rational_sound hq
          obtain ⟨rfl, rfl⟩ := List.cons.inj hts
          exact ⟨some ⟨.raised ⟨t, hk⟩ ⟨n, beq_iff_eq.mp hn⟩, x⟩, rfl, divides_of_denominator hx⟩
        · cases h
    · next hk =>
      obtain ⟨⟨q, ws⟩, hq, h⟩ := bind_eq_ok h
      cases h
      obtain ⟨m, x, hts, -, hx⟩ := rational_sound hq
      obtain ⟨rfl, rfl⟩ := List.cons.inj hts
      exact ⟨some ⟨.superscript ⟨t, hk⟩, x⟩, rfl, divides_of_denominator hx⟩
    · cases h
      exact ⟨none, rfl, by simp [Divides]⟩

/-- What reading a product must have read: nothing at all, or the tokens of a meaningful tree. -/
def Derived (table : UnitTable) (grouped : Bool) (ts rest : List Token) : Prop :=
  (ts = [] ∧ rest = []) ∨
    ∃ p : Product, ts = p.tokens ++ rest ∧ Meaningful table p.tokens p.powers ∧
      ends grouped rest = true

/-- The reader of groups reads derived tokens, in lists of fewer than `n`. -/
def SoundGroup (table : UnitTable) (group : Reader Quantity) (n : ℕ) : Prop :=
  ∀ ts q rest, ts.length < n → group ts = .ok (q, rest) → Derived table true ts rest

theorem resolve_sound {s : Scope} {t : Token} {q : Quantity} (h : resolve s t = .ok q) :
    s.table.lookup t.text = .ok q := by
  unfold resolve at h
  split at h
  · next hq =>
    cases h
    exact hq
  · cases h
  · cases h

theorem unit_sound {s : Scope} {group : Reader Quantity} {n : ℕ}
    (hg : SoundGroup s.table group n) {t : Token} {ts rest : List Token} {q : Quantity}
    (hn : ts.length < n) (h : unit s group (t :: ts) = .ok (q, rest)) :
    ∃ a : Atom, t :: ts = a.tokens ++ rest ∧ Meaningful s.table a.tokens a.powers := by
  rw [unit] at h
  split at h
  · next hk =>
    obtain ⟨⟨q', us⟩, hgroup, h⟩ := bind_eq_ok h
    dsimp only at h
    obtain ⟨⟨⟨⟩, vs⟩, hclose, h⟩ := bind_eq_ok h
    cases h
    cases us with
    | nil => cases hclose
    | cons c us =>
      rw [close] at hclose
      split at hclose
      · next hc =>
        cases hclose
        rcases hg ts q _ hn hgroup with ⟨-, hnil⟩ | ⟨p, hp, hm, -⟩
        · cases hnil
        · refine ⟨.group ⟨t, hk⟩ p ⟨c, beq_iff_eq.mp hc⟩, ?_, ?_⟩
          · rw [hp, Atom.tokens]
            simp
          · rw [Atom.tokens, Atom.powers]
            exact hm.parens hk (beq_iff_eq.mp hc)
      · cases hclose
  · next hk =>
    obtain ⟨q', hq, h⟩ := bind_eq_ok h
    cases h
    refine ⟨.symbol ⟨t, hk⟩, by rw [Atom.tokens]; rfl, ?_⟩
    rw [Atom.tokens, Atom.powers]
    exact meaningful_symbol (resolve_sound hq)
  · cases h

theorem factor_sound {s : Scope} {group : Reader Quantity} {n : ℕ}
    (hg : SoundGroup s.table group n) {t : Token} {ts rest : List Token} {q : Quantity}
    (hn : ts.length < n) (h : factor s group (t :: ts) = .ok (q, rest)) :
    ∃ f : Powered, t :: ts = f.tokens ++ rest ∧ Meaningful s.table f.tokens f.powers := by
  obtain ⟨⟨q', us⟩, hunit, h⟩ := bind_eq_ok h
  obtain ⟨⟨e, vs⟩, hexp, h⟩ := bind_eq_ok h
  obtain ⟨a, hts, ha⟩ := unit_sound hg hn hunit
  obtain ⟨x, rfl, hx⟩ := exponent?_sound hexp
  have hrest : vs = rest := by
    dsimp only at h
    cases e with
    | none =>
      cases h
      rfl
    | some e =>
      obtain ⟨r, -, h⟩ := bind_eq_ok h
      cases h
      rfl
  subst hrest
  refine ⟨.mk a x, by rw [hts, Powered.tokens, List.append_assoc], ?_⟩
  rw [Powered.tokens, Powered.powers]
  exact ha.append (meaningful_power hx)

theorem operator_none (s : Scope) {t : Token} (ts : List Token) (hmul : t.kind ≠ .mul)
    (hdiv : t.kind ≠ .div) : operator s (t :: ts) = .ok (.mul, t :: ts) := by
  unfold operator
  cases hk : t.kind <;> simp_all

theorem operator_sound {s : Scope} {ts rest : List Token} {o : Operator}
    (h : operator s ts = .ok (o, rest)) :
    ∃ (sign : Option Sign) (t : Token) (us : List Token),
      ts = signTokens sign ++ rest ∧ rest = t :: us ∧ o = signOperator sign := by
  cases ts with
  | nil => cases h
  | cons t us =>
    by_cases hm : t.kind = .mul
    · cases us with
      | nil => simp [operator, hm] at h
      | cons u us =>
        simp only [operator, hm, Except.ok.injEq, Prod.mk.injEq] at h
        exact ⟨some (.times ⟨t, hm⟩), u, us, by rw [← h.2]; rfl, h.2.symm, h.1.symm⟩
    · by_cases hd : t.kind = .div
      · cases us with
        | nil => simp [operator, hd] at h
        | cons u us =>
          simp only [operator, hd, Except.ok.injEq, Prod.mk.injEq] at h
          exact ⟨some (.over ⟨t, hd⟩), u, us, by rw [← h.2]; rfl, h.2.symm, h.1.symm⟩
      · rw [operator_none s us hm hd] at h
        cases h
        exact ⟨none, t, us, rfl, rfl, rfl⟩

theorem moreFactors_sound {s : Scope} {group : Reader Quantity} {n : ℕ}
    (hg : SoundGroup s.table group n) (grouped : Bool) (rounds : ℕ) {q r : Quantity}
    {ts rest : List Token} (hn : ts.length ≤ n) (hr : ts.length ≤ rounds)
    (h : moreFactors s group grouped rounds q ts = .ok (r, rest)) :
    ∃ m : Tail, ts = m.tokens ++ rest ∧ Meaningful s.table m.tokens m.powers ∧
      ends grouped rest = true := by
  induction rounds generalizing q ts with
  | zero =>
    obtain rfl := List.length_eq_zero_iff.mp (Nat.le_zero.mp hr)
    cases h
    exact ⟨.nil, by rw [Tail.tokens]; rfl, by rw [Tail.tokens, Tail.powers]; exact meaningful_nil,
      rfl⟩
  | succ rounds ih =>
    rw [moreFactors] at h
    split at h
    · next hends =>
      cases h
      exact ⟨.nil, by rw [Tail.tokens]; rfl,
        by rw [Tail.tokens, Tail.powers]; exact meaningful_nil, hends⟩
    · obtain ⟨⟨o, us⟩, hop, hround⟩ := bind_eq_ok h
      obtain ⟨⟨q', vs⟩, hfactor, hround⟩ := bind_eq_ok hround
      obtain ⟨q'', -, hmore⟩ := bind_eq_ok hround
      clear h hround
      obtain ⟨sign, t, ws, rfl, rfl, -⟩ := operator_sound hop
      rw [List.length_append, List.length_cons] at hn hr
      obtain ⟨f, hf, hmf⟩ := factor_sound hg (by omega) hfactor
      have hpos : 0 < f.tokens.length := by
        obtain ⟨u, us, hu, -⟩ := f.exists_head
        rw [hu]
        simp
      have hlen := congrArg List.length hf
      rw [List.length_cons, List.length_append] at hlen
      obtain ⟨m, rfl, hm, hends⟩ := ih (by omega) (by omega) hmore
      refine ⟨.cons sign f m, ?_, ?_, hends⟩
      · rw [hf, Tail.tokens, List.append_assoc, List.append_assoc]
      · rw [Tail.tokens, Tail.powers]
        exact (meaningful_sign sign).append (hmf.append hm)

/-- What the reader accepts, with enough levels for the groups, is derived and meaningful. -/
theorem product_sound (s : Scope) (depth : ℕ) {grouped : Bool} {ts rest : List Token}
    {q : Quantity} (hd : ts.length < depth) (h : product s depth grouped ts = .ok (q, rest)) :
    Derived s.table grouped ts rest := by
  induction depth generalizing grouped ts q rest with
  | zero => omega
  | succ depth ih =>
    have hg : SoundGroup s.table (product s depth true) depth := fun us r vs hus hr => ih hus hr
    unfold product at h
    obtain ⟨⟨q', us⟩, hfactor, hmore⟩ := bind_eq_ok h
    clear h
    cases ts with
    | nil =>
      left
      cases hfactor
      cases hmore
      exact ⟨rfl, rfl⟩
    | cons t ts =>
      right
      rw [List.length_cons] at hd
      obtain ⟨f, hf, hmf⟩ := factor_sound hg (by omega) hfactor
      have hlen := congrArg List.length hf
      rw [List.length_cons, List.length_append] at hlen
      obtain ⟨m, rfl, hm, hends⟩ := moreFactors_sound hg grouped _ (by omega) (Nat.le_refl _) hmore
      refine ⟨.mk f m, ?_, ?_, hends⟩
      · rw [hf, Product.tokens, List.append_assoc]
      · rw [Product.tokens, Product.powers]
        exact hmf.append hm

end UnitCalculus.Expression
