import UnitCalculus.Proofs.Expression.Acceptance

/-! # Reading always advances

Where a reader stands among the tokens is told by the tokens that are left to it.  Every reader that
returns leaves fewer of them, and an end of the list (`Advances`); only where none are left the
readers of units return the number one and stay (`AdvancesFrom`).

The readers of units call each other: a product its factors, a factor its unit, a group its product.
`Outcome` gives the rules for these calls and knows no bound for depth or rounds.  A call has at
most one outcome (`Outcome.unique`), its outcome is further on (`Outcome.progresses`), and that is
why it has one at all: the calls that it makes have fewer tokens, or are made by a reader further
in.  So the bounds of the readers are never reached and do not show in what they return
(`outcome_iff_read`). -/

namespace UnitCalculus.Expression

open UnitCalculus.Expression.Derivation

/-! ### Further on -/

/-- The rest is a later end of the tokens. -/
structure Advances (ts rest : List Token) : Prop where
  suffix : rest <:+ ts
  shorter : rest.length < ts.length

section advances

variable {ts us rest : List Token}

theorem advances_cons (t : Token) (h : rest <:+ ts) : Advances (t :: ts) rest :=
  ⟨h.trans (List.suffix_cons t ts), Nat.lt_succ_of_le h.length_le⟩

theorem Advances.of_suffix (h : us <:+ ts) (h' : Advances us rest) : Advances ts rest :=
  ⟨h'.suffix.trans h, Nat.lt_of_lt_of_le h'.shorter h.length_le⟩

theorem Advances.trans_suffix (h : Advances ts us) (h' : rest <:+ us) : Advances ts rest :=
  ⟨h'.trans h.suffix, Nat.lt_of_le_of_lt h'.length_le h.shorter⟩

end advances

/-- Where nothing is left to read, the outcome is the number one; before, it is a fault or further
on. -/
def AdvancesFrom (ts : List Token) (x : Except Fault (Quantity × List Token)) : Prop :=
  (ts = [] → x = .ok (.one, [])) ∧ (ts ≠ [] → Yields (fun p => Advances ts p.2) x)

section readers

variable {s : Scope} {ts : List Token}

theorem advances_integer : Yields (fun p => Advances ts p.2) (integer s ts) := by
  rintro ⟨⟨n, t⟩, rest⟩ h
  obtain ⟨rfl, -⟩ := integer_sound h
  exact advances_cons t (List.suffix_refl rest)

theorem advances_rational : Yields (fun p => Advances ts p.2) (rational s ts) := by
  rintro ⟨q, rest⟩ h
  obtain ⟨t, x, rfl, -⟩ := rational_sound h
  exact advances_cons t (List.suffix_append _ rest)

theorem suffix_exponent? : Yields (fun p => p.2 <:+ ts) (exponent? s ts) := by
  rintro ⟨e, rest⟩ h
  obtain ⟨x, rfl, -⟩ := exponent?_sound h
  exact List.suffix_append _ rest

theorem advances_close : Yields (fun p => Advances ts p.2) (close s ts) := by
  rintro ⟨⟨⟩, rest⟩ h
  cases ts with
  | nil => cases h
  | cons t ts =>
    rw [close] at h
    split at h
    · cases h
      exact advances_cons t (List.suffix_refl _)
    · cases h

/-! ### The readers in parts -/

/-- A symbol. -/
def named (s : Scope) : Reader Quantity
  | [] => .error s.endFault
  | t :: ts =>
    if t.kind == .symbol then do return (← resolve s t, ts)
    else .error (s.unexpected t [.symbol])

/-- A group, after the product in it was read. -/
def closed (s : Scope) (p : Quantity × List Token) : Except Fault (Quantity × List Token) := do
  let (_, ts) ← close s p.2
  return (p.1, ts)

/-- A factor, after its unit was read. -/
def raised (s : Scope) (p : Quantity × List Token) : Except Fault (Quantity × List Token) := do
  let (e, ts) ← exponent? s p.2
  match e with
  | none => return (p.1, ts)
  | some e => return (← p.1.pow e, ts)

/-- The product `q` with a factor that was read after it. -/
def combined (q : Quantity) (o : Operator) (p : Quantity × List Token) :
    Except Fault (Quantity × List Token) := do
  return (← q.withQuantity o p.1, p.2)

/-- The product `q` with one more factor. -/
def nextFactor (s : Scope) (group : Reader Quantity) (q : Quantity) :
    Reader Quantity := fun ts => do
  let (o, us) ← operator s ts
  factor s group us >>= combined q o

theorem unit_lparen (group : Reader Quantity) {t : Token} (h : t.kind = .lparen) :
    unit s group (t :: ts) = group ts >>= closed s := by
  rw [unit, h]
  rfl

theorem unit_named (group : Reader Quantity) {t : Token} (h : t.kind ≠ .lparen) :
    unit s group (t :: ts) = named s (t :: ts) := by
  rw [unit, named]
  cases hk : t.kind <;> simp_all

theorem moreFactors_ends (group : Reader Quantity) {grouped : Bool} (rounds : ℕ) (q : Quantity)
    (h : ends grouped ts = true) : moreFactors s group grouped rounds q ts = .ok (q, ts) := by
  cases rounds with
  | zero => rfl
  | succ n => rw [moreFactors, if_pos h]

theorem moreFactors_next (group : Reader Quantity) {grouped : Bool} (rounds : ℕ) (q : Quantity)
    (h : ends grouped ts = false) : moreFactors s group grouped (rounds + 1) q ts =
      nextFactor s group q ts >>= fun p => moreFactors s group grouped rounds p.1 p.2 := by
  rw [moreFactors, if_neg (by simp [h]), nextFactor]
  cases operator s ts with
  | error f => rfl
  | ok p =>
    simp only [ok_bind]
    cases factor s group p.2 with
    | error f => rfl
    | ok p' =>
      simp only [ok_bind, combined]
      cases q.withQuantity p.1 p'.1 <;> rfl

theorem advances_named : Yields (fun p => Advances ts p.2) (named s ts) := by
  rintro ⟨q, rest⟩ h
  cases ts with
  | nil => cases h
  | cons t ts =>
    rw [named] at h
    split at h
    · obtain ⟨q', -, h⟩ := bind_eq_ok h
      cases h
      exact advances_cons t (List.suffix_refl _)
    · cases h

theorem suffix_closed (p : Quantity × List Token) :
    Yields (fun p' => p'.2 <:+ p.2) (closed s p) := by
  refine advances_close.bind fun a ha => ?_
  exact yields_ok ha.suffix

theorem suffix_raised (p : Quantity × List Token) :
    Yields (fun p' => p'.2 <:+ p.2) (raised s p) := by
  refine suffix_exponent?.bind fun a ha => ?_
  obtain ⟨e, us⟩ := a
  cases e with
  | none => exact yields_ok ha
  | some e => exact (yields_any (p.1.pow e)).bind fun r _ => yields_ok ha

theorem suffix_combined (q : Quantity) (o : Operator) (p : Quantity × List Token) :
    Yields (fun p' => p'.2 <:+ p.2) (combined q o p) :=
  (yields_any _).bind fun _ _ => yields_ok (List.suffix_refl p.2)

end readers

/-! ### Calls and their outcomes -/

/-- A call of one of the readers of units, with the tokens that are left to it. -/
inductive Call where
  | unit (ts : List Token)
  | factor (ts : List Token)
  | product (grouped : Bool) (ts : List Token)
  /-- The factors after those that make `q`. -/
  | more (grouped : Bool) (q : Quantity) (ts : List Token)
  /-- The first of these factors. -/
  | next (q : Quantity) (ts : List Token)

/-- The tokens that are left to a call. -/
def Call.tokens : Call → List Token
  | .unit ts => ts
  | .factor ts => ts
  | .product _ ts => ts
  | .more _ _ ts => ts
  | .next _ ts => ts

/-- What a call ends with, after the calls that it makes have ended. -/
inductive Outcome (s : Scope) : Call → Except Fault (Quantity × List Token) → Prop
  | nothing : Outcome s (.unit []) (.ok (.one, []))
  | group {t : Token} {ts : List Token} {x : Except Fault (Quantity × List Token)}
      (ht : t.kind = .lparen) (hx : Outcome s (.product true ts) x) :
      Outcome s (.unit (t :: ts)) (x >>= closed s)
  | named {t : Token} {ts : List Token} (ht : t.kind ≠ .lparen) :
      Outcome s (.unit (t :: ts)) (named s (t :: ts))
  | factor {ts : List Token} {x : Except Fault (Quantity × List Token)}
      (hx : Outcome s (.unit ts) x) : Outcome s (.factor ts) (x >>= raised s)
  | first_fault {grouped : Bool} {ts : List Token} {f : Fault}
      (hf : Outcome s (.factor ts) (.error f)) : Outcome s (.product grouped ts) (.error f)
  | first {grouped : Bool} {ts us : List Token} {q : Quantity}
      {x : Except Fault (Quantity × List Token)} (hq : Outcome s (.factor ts) (.ok (q, us)))
      (hx : Outcome s (.more grouped q us) x) : Outcome s (.product grouped ts) x
  | last {grouped : Bool} {q : Quantity} {ts : List Token} (h : ends grouped ts = true) :
      Outcome s (.more grouped q ts) (.ok (q, ts))
  | more_fault {grouped : Bool} {q : Quantity} {ts : List Token} {f : Fault}
      (h : ends grouped ts = false) (hf : Outcome s (.next q ts) (.error f)) :
      Outcome s (.more grouped q ts) (.error f)
  | more {grouped : Bool} {q q' : Quantity} {ts us : List Token}
      {x : Except Fault (Quantity × List Token)} (h : ends grouped ts = false)
      (hq : Outcome s (.next q ts) (.ok (q', us))) (hx : Outcome s (.more grouped q' us) x) :
      Outcome s (.more grouped q ts) x
  | sign_fault {q : Quantity} {ts : List Token} {f : Fault} (hf : operator s ts = .error f) :
      Outcome s (.next q ts) (.error f)
  | next {q : Quantity} {o : Operator} {ts us : List Token}
      {x : Except Fault (Quantity × List Token)} (ho : operator s ts = .ok (o, us))
      (hx : Outcome s (.factor us) x) : Outcome s (.next q ts) (x >>= combined q o)

variable {s : Scope} {c : Call} {x y : Except Fault (Quantity × List Token)}

/-- A call has no two outcomes. -/
theorem Outcome.unique (h : Outcome s c x) (h' : Outcome s c y) : x = y := by
  induction h generalizing y with
  | nothing =>
    cases h'
    rfl
  | group ht _ ih =>
    cases h' with
    | group _ hx => rw [ih hx]
    | named hne => exact absurd ht hne
  | named hne =>
    cases h' with
    | group ht _ => exact absurd ht hne
    | named _ => rfl
  | factor _ ih =>
    cases h' with
    | factor hx => rw [ih hx]
  | first_fault _ ih =>
    cases h' with
    | first_fault hf => exact congrArg _ (Except.error.inj (ih hf))
    | first hq _ => cases ih hq
  | first _ _ ihq ihx =>
    cases h' with
    | first_fault hf => cases ihq hf
    | first hq hx =>
      cases ihq hq
      exact ihx hx
  | last hends =>
    cases h' with
    | last _ => rfl
    | more_fault h _ => cases hends.symm.trans h
    | more h _ _ => cases hends.symm.trans h
  | more_fault h _ ih =>
    cases h' with
    | last hends => cases hends.symm.trans h
    | more_fault _ hf => exact congrArg _ (Except.error.inj (ih hf))
    | more _ hq _ => cases ih hq
  | more h _ _ ihq ihx =>
    cases h' with
    | last hends => cases hends.symm.trans h
    | more_fault _ hf => cases ihq hf
    | more _ hq hx =>
      cases ihq hq
      exact ihx hx
  | sign_fault hf =>
    cases h' with
    | sign_fault hf' => exact congrArg _ (Except.error.inj (hf.symm.trans hf'))
    | next ho _ => cases hf.symm.trans ho
  | next ho _ ih =>
    cases h' with
    | sign_fault hf => cases hf.symm.trans ho
    | next ho' hx =>
      cases ho.symm.trans ho'
      rw [ih hx]

/-! ### Outcomes are further on -/

/-- How far on a call ends: the product at the end of its group, and each round after a factor. -/
def Call.Progresses : Call → Except Fault (Quantity × List Token) → Prop
  | .unit ts, x => AdvancesFrom ts x
  | .factor ts, x => AdvancesFrom ts x
  | .product grouped ts, x => AdvancesFrom ts x ∧ Yields (fun p => ends grouped p.2 = true) x
  | .more grouped q ts, x =>
    (ends grouped ts = true → x = .ok (q, ts)) ∧
      (ends grouped ts = false → Yields (fun p => Advances ts p.2) x) ∧
      Yields (fun p => ends grouped p.2 = true) x
  | .next _ ts, x => Yields (fun p => Advances ts p.2) x

/-- What is left where a call returns is an end of what was left to it. -/
theorem AdvancesFrom.suffix {ts : List Token} (h : AdvancesFrom ts x) :
    Yields (fun p => p.2 <:+ ts) x := by
  by_cases hts : ts = []
  · rw [h.1 hts]
    exact yields_ok (List.nil_suffix)
  · exact (h.2 hts).imp fun p hp => hp.suffix

theorem AdvancesFrom.bind {ts : List Token}
    {k : Quantity × List Token → Except Fault (Quantity × List Token)} (h : AdvancesFrom ts x)
    (hnil : k (.one, []) = .ok (.one, [])) (hk : ∀ p, Yields (fun p' => p'.2 <:+ p.2) (k p)) :
    AdvancesFrom ts (x >>= k) := by
  refine ⟨fun hts => ?_, fun hts => ?_⟩
  · rw [h.1 hts, ok_bind, hnil]
  · refine (h.2 hts).bind fun p hp => ?_
    exact (hk p).imp fun p' hp' => hp.trans_suffix hp'

theorem Call.Progresses.more_suffix {grouped : Bool} {q : Quantity} {ts : List Token}
    (h : (Call.more grouped q ts).Progresses x) : Yields (fun p => p.2 <:+ ts) x := by
  cases hends : ends grouped ts with
  | true =>
    rw [h.1 hends]
    exact yields_ok (List.suffix_refl ts)
  | false => exact (h.2.1 hends).imp fun p hp => hp.suffix

/-- Each call ends further on, because the calls that it makes do. -/
theorem Outcome.progresses (h : Outcome s c x) : c.Progresses x := by
  induction h with
  | nothing => exact ⟨fun _ => rfl, fun hne => absurd rfl hne⟩
  | @group t ts x ht _ ih =>
    refine ⟨fun hnil => (by cases hnil), fun _ => ?_⟩
    refine ih.1.suffix.bind fun p hp => ?_
    exact (suffix_closed p).imp fun p' hp' => advances_cons t (hp'.trans hp)
  | named ht => exact ⟨fun hnil => (by cases hnil), fun _ => advances_named⟩
  | factor _ ih => exact AdvancesFrom.bind ih rfl suffix_raised
  | first_fault _ ih => exact ⟨ih, yields_error _⟩
  | @first grouped ts us q x _ _ ihq ihx =>
    refine ⟨⟨fun hts => ?_, fun hts => ?_⟩, ihx.2.2⟩
    · cases ihq.1 hts
      exact ihx.1 rfl
    · have hus : Advances ts us := ihq.2 hts _ rfl
      exact ihx.more_suffix.imp fun p hp => hus.trans_suffix hp
  | last hends =>
    exact ⟨fun _ => rfl, fun hno => (by cases hends.symm.trans hno), yields_ok hends⟩
  | more_fault hno _ _ =>
    exact ⟨fun hends => (by cases hends.symm.trans hno), fun _ => yields_error _, yields_error _⟩
  | @more grouped q q' ts us x hno _ _ ihq ihx =>
    have hus : Advances ts us := ihq _ rfl
    refine ⟨fun hends => (by cases hends.symm.trans hno), fun _ => ?_, ihx.2.2⟩
    exact ihx.more_suffix.imp fun p hp => hus.trans_suffix hp
  | sign_fault hf => exact yields_error _
  | @next q o ts us x ho _ ih =>
    -- A factor comes after a sign, so there are tokens left for it.
    obtain ⟨sign, t, ws, rfl, rfl, -⟩ := operator_sound ho
    refine (ih.2 (List.cons_ne_nil t ws)).bind fun p hp => ?_
    refine (suffix_combined q o p).imp fun p' hp' => ?_
    exact (hp.trans_suffix hp').of_suffix (List.suffix_append _ _)

/-! ### The readers find the outcomes -/

/-- What the readers return for a call, with groups nested at most as deep as given. -/
def Call.read (s : Scope) (depth : ℕ) : Call → Except Fault (Quantity × List Token)
  | .unit ts => Expression.unit s (Expression.product s depth true) ts
  | .factor ts => Expression.factor s (Expression.product s depth true) ts
  | .product grouped ts => Expression.product s (depth + 1) grouped ts
  | .more grouped q ts => moreFactors s (Expression.product s depth true) grouped ts.length q ts
  | .next q ts => nextFactor s (Expression.product s depth true) q ts

/-- The reader of groups finds the outcomes of groups, in lists of fewer than `n` tokens. -/
def FindsGroups (s : Scope) (group : Reader Quantity) (n : ℕ) : Prop :=
  ∀ ts, ts.length < n → Outcome s (.product true ts) (group ts)

section finds

variable {group : Reader Quantity} {n : ℕ} {ts : List Token}

theorem FindsGroups.unit (hg : FindsGroups s group n) (hn : ts.length ≤ n) :
    Outcome s (.unit ts) (unit s group ts) := by
  cases ts with
  | nil => exact .nothing
  | cons t ts =>
    by_cases ht : t.kind = .lparen
    · rw [unit_lparen group ht]
      exact .group ht (hg ts hn)
    · rw [unit_named group ht]
      exact .named ht

theorem FindsGroups.factor (hg : FindsGroups s group n) (hn : ts.length ≤ n) :
    Outcome s (.factor ts) (factor s group ts) :=
  .factor (hg.unit hn)

theorem FindsGroups.next (hg : FindsGroups s group n) (q : Quantity) (hn : ts.length ≤ n) :
    Outcome s (.next q ts) (nextFactor s group q ts) := by
  unfold nextFactor
  cases ho : operator s ts with
  | error f => exact .sign_fault ho
  | ok p =>
    obtain ⟨o, us⟩ := p
    obtain ⟨sign, -, -, rfl, -, -⟩ := operator_sound ho
    rw [List.length_append] at hn
    exact .next ho (hg.factor (Nat.le_of_add_left_le hn))

/-- As many rounds as there are tokens are enough, since each takes one. -/
theorem FindsGroups.more (hg : FindsGroups s group n) (grouped : Bool) (q : Quantity) {rounds : ℕ}
    (hn : ts.length ≤ n) (hr : ts.length ≤ rounds) :
    Outcome s (.more grouped q ts) (moreFactors s group grouped rounds q ts) := by
  induction rounds generalizing q ts with
  | zero =>
    obtain rfl := List.length_eq_zero_iff.mp (Nat.le_zero.mp hr)
    exact .last rfl
  | succ rounds ih =>
    cases hends : ends grouped ts with
    | true =>
      rw [moreFactors_ends group _ q hends]
      exact .last hends
    | false =>
      have hnext := hg.next q hn
      rw [moreFactors_next group _ q hends]
      cases hp : nextFactor s group q ts with
      | error f =>
        rw [hp] at hnext
        exact .more_fault hends hnext
      | ok p =>
        rw [hp] at hnext
        have hshort : p.2.length < ts.length := (hnext.progresses p rfl).shorter
        exact .more hends hnext (ih p.1 (by omega) (by omega))

theorem FindsGroups.product (hg : FindsGroups s group n) (grouped : Bool) (hn : ts.length ≤ n) :
    Outcome s (.product grouped ts) (do
      let (q, us) ← Expression.factor s group ts
      moreFactors s group grouped us.length q us) := by
  have hfactor := hg.factor hn
  cases hp : Expression.factor s group ts with
  | error f =>
    rw [hp] at hfactor
    exact .first_fault hfactor
  | ok p =>
    rw [hp] at hfactor
    have hsuffix : p.2 <:+ ts := AdvancesFrom.suffix hfactor.progresses p rfl
    exact .first hfactor (hg.more grouped p.1 (Nat.le_trans hsuffix.length_le hn) (Nat.le_refl _))

end finds

/-- With more levels than tokens every group is read. -/
theorem findsGroups_product (s : Scope) (depth : ℕ) :
    FindsGroups s (product s depth true) depth := by
  induction depth with
  | zero => exact fun ts hts => absurd hts (Nat.not_lt_zero _)
  | succ depth ih => exact fun ts hts => ih.product true (Nat.le_of_lt_succ hts)

theorem outcome_read (s : Scope) (c : Call) {depth : ℕ} (h : c.tokens.length ≤ depth) :
    Outcome s c (c.read s depth) := by
  have hg := findsGroups_product s depth
  cases c with
  | unit ts => exact hg.unit h
  | factor ts => exact hg.factor h
  | product grouped ts => exact hg.product grouped h
  | more grouped q ts => exact hg.more grouped q h (Nat.le_refl _)
  | next q ts => exact hg.next q h

/-- The readers return the one outcome of each call, if they may read as many groups as there are
tokens. -/
theorem outcome_iff_read {depth : ℕ} (h : c.tokens.length ≤ depth) :
    Outcome s c x ↔ x = c.read s depth := by
  refine ⟨fun hx => hx.unique (outcome_read s c h), ?_⟩
  rintro rfl
  exact outcome_read s c h

/-! ### The tokens of a text -/

theorem ends_false_iff {ts : List Token} : ends false ts = true ↔ ts = [] := by
  cases ts <;> simp [ends]

/-- Tokens are read as a quantity when the call for all of them has it as its outcome and leaves
none. -/
theorem ofTokens_eq_ok_iff {ts : List Token} {q : Quantity} :
    ofTokens s ts = .ok q ↔ Outcome s (.product false ts) (.ok (q, [])) := by
  have hread := outcome_read s (.product false ts) (Nat.le_refl ts.length)
  constructor
  · intro h
    obtain ⟨⟨r, rest⟩, hr, h⟩ := bind_eq_ok h
    cases h
    rw [Call.read, hr] at hread
    obtain rfl : rest = [] := ends_false_iff.mp (hread.progresses.2 _ rfl)
    exact hread
  · intro h
    have hproduct : product s (ts.length + 1) false ts = .ok (q, []) := hread.unique h
    rw [ofTokens, hproduct]
    rfl

/-- **Reading always advances.**  The readers of integers, of exponents and of symbols return
further on among the tokens, whatever tokens are left and whatever the table.  So do the readers of
units: a unit, a factor, a product and each further factor of a product, except that units, factors
and products are the number one where nothing is left.  Their calls to each other come to an end:
each call has exactly one outcome by the rules, which know no bound, and the readers return it.  A
quantity is read only when no token is left. -/
theorem reading_advances (s : Scope) :
    (∀ ts, Yields (fun p => Advances ts p.2) (integer s ts) ∧
      Yields (fun p => Advances ts p.2) (rational s ts) ∧
      Yields (fun p => Advances ts p.2) (named s ts)) ∧
    (∀ (c : Call) (depth : ℕ), c.tokens.length ≤ depth →
      c.Progresses (c.read s depth) ∧ ∀ x, Outcome s c x ↔ x = c.read s depth) ∧
    ∀ ts q, ofTokens s ts = .ok q ↔ Outcome s (.product false ts) (.ok (q, [])) := by
  refine ⟨fun ts => ⟨advances_integer, advances_rational, advances_named⟩, fun c depth h => ?_,
    fun ts q => ofTokens_eq_ok_iff⟩
  exact ⟨(outcome_read s c h).progresses, fun x => outcome_iff_read h⟩

/-- The tokens of `m/(s`. -/
def unclosedTokens : List Token :=
  [⟨.symbol, "m", 0, none⟩, ⟨.div, "/", 1, none⟩, ⟨.lparen, "(", 2, none⟩, ⟨.symbol, "s", 3, none⟩]

/-- A group that is not closed ends with a fault. -/
theorem reading_advances_unclosed :
    (Call.product false unclosedTokens).tokens.length ≤ 4 ∧
      Outcome ⟨motionTable, "m/(s"⟩ (.product false unclosedTokens)
        (.error (Scope.endFault ⟨motionTable, "m/(s"⟩)) ∧
      ∀ q, ofTokens ⟨motionTable, "m/(s"⟩ unclosedTokens ≠ .ok q := by
  obtain ⟨-, hcalls, hwhole⟩ := reading_advances ⟨motionTable, "m/(s"⟩
  have hlength : (Call.product false unclosedTokens).tokens.length ≤ 4 := by decide
  obtain ⟨-, houtcome⟩ := hcalls (.product false unclosedTokens) 4 hlength
  have hfault : Outcome ⟨motionTable, "m/(s"⟩ (.product false unclosedTokens)
      (.error (Scope.endFault ⟨motionTable, "m/(s"⟩)) := (houtcome _).mpr rfl
  refine ⟨hlength, hfault, fun q hq => ?_⟩
  cases hfault.unique ((hwhole unclosedTokens q).mp hq)

end UnitCalculus.Expression
