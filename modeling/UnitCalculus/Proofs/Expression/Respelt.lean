import UnitCalculus.Proofs.Expression.Acceptance
import UnitCalculus.Proofs.Expression.Neighbours

/-! # Tokens that spell the same expression

Two lists of tokens spell the same if they differ only in how a word is written: whether there is a
multiplication sign between two factors, and whether a power stands after a sign or is raised by its
script (`Respelt`).  From the tokens of a tree and another spelling of them, a tree for the other
spelling is built constructor by constructor, with the same value and the same denominators
(`exists_product_of_respelt`), so that both are read as the same quantity (`ofTokens_respelt`).

What a token may be replaced by depends on where it stands: a multiplication sign may be put in only
between a token that ends a factor and one that starts a factor.  `Respelt` carries the first of
these conditions along the list. -/

namespace UnitCalculus.Expression

open UnitCalculus.Expression.Derivation

/-- The tokens are signs of one kind, symbols of one name, or integers of one script and value. -/
structure SameWord (t u : Token) : Prop where
  kind : t.kind = u.kind
  name : t.kind = .symbol → t.text = u.text
  value : t.value = u.value

/-- The lists spell the same, after a token that ends a factor or, if the flag is false, after one
that does not or at the start. -/
inductive Respelt : Bool → List Token → List Token → Prop
  | nil (after : Bool) : Respelt after [] []
  /-- The same word in both. -/
  | word {after : Bool} {t u : Token} {ts us : List Token} (h : SameWord t u)
      (hs : Respelt (closes t.kind) ts us) : Respelt after (t :: ts) (u :: us)
  /-- A power after a sign, and raised by its script. -/
  | raised {after : Bool} {hat n m : Token} {ts us : List Token} (hhat : hat.kind = .exp)
      (hn : n.kind = .integer) (hm : m.kind = .supinteger) (hvalue : n.value = m.value)
      (hs : Respelt true ts us) : Respelt after (hat :: n :: ts) (m :: us)
  | lowered {after : Bool} {hat n m : Token} {ts us : List Token} (hhat : hat.kind = .exp)
      (hn : n.kind = .integer) (hm : m.kind = .supinteger) (hvalue : m.value = n.value)
      (hs : Respelt true ts us) : Respelt after (m :: ts) (hat :: n :: us)
  /-- Two factors with a multiplication sign, and without. -/
  | dropped {sign t u : Token} {ts us : List Token} (hsign : sign.kind = .mul) (ht : Starts t)
      (h : SameWord t u) (hs : Respelt (closes t.kind) ts us) :
      Respelt true (sign :: t :: ts) (u :: us)
  | inserted {sign t u : Token} {ts us : List Token} (hsign : sign.kind = .mul) (ht : Starts t)
      (h : SameWord t u) (hs : Respelt (closes t.kind) ts us) :
      Respelt true (t :: ts) (sign :: u :: us)

/-- A token that is written in one way only, where no sign may be put in, is the same word in the
other spelling. -/
theorem Respelt.exists_word {after : Bool} {t : Token} {ts us : List Token}
    (h : Respelt after (t :: ts) us) (hexp : t.kind ≠ .exp) (hsup : t.kind ≠ .supinteger)
    (hmul : t.kind ≠ .mul) (hstarts : after = true → ¬ Starts t) :
    ∃ u us', us = u :: us' ∧ SameWord t u ∧ Respelt (closes t.kind) ts us' := by
  cases h with
  | word htu hs => exact ⟨_, _, rfl, htu, hs⟩
  | raised hhat => exact absurd hhat hexp
  | lowered _ _ hm => exact absurd hm hsup
  | dropped hsign => exact absurd hsign hmul
  | inserted _ ht => exact absurd ht (hstarts rfl)

/-! ### Lists with the same words in them -/

/-- Whether the last of the tokens ends a factor; the flag says so for the token before them. -/
def closesAfter (after : Bool) (ts : List Token) : Bool :=
  ts.foldl (fun _ t => closes t.kind) after

theorem closesAfter_of_getLast? {after : Bool} {ts : List Token} {t : Token}
    (h : t ∈ ts.getLast?) : closesAfter after ts = closes t.kind := by
  rw [← List.dropLast_append_getLast? t h, closesAfter, List.foldl_append]
  rfl

theorem Respelt.context {after : Bool} {xs ys ts us : List Token} (h : List.Forall₂ SameWord xs ys)
    (hs : Respelt (closesAfter after xs) ts us) : Respelt after (xs ++ ts) (ys ++ us) := by
  induction h generalizing after with
  | nil => exact hs
  | cons hxy _ ih => exact .word hxy (ih hs)

theorem respelt_of_words {after : Bool} {ts us : List Token} (h : List.Forall₂ SameWord ts us) :
    Respelt after ts us := by
  have hcontext := Respelt.context h (.nil (closesAfter after ts))
  rwa [List.append_nil, List.append_nil] at hcontext

/-- Both spellings have the same symbols. -/
theorem Respelt.resolves {after : Bool} {ts us : List Token} (h : Respelt after ts us)
    {table : UnitTable} (hts : Resolves table ts) : Resolves table us := by
  have hword : ∀ {t u : Token}, SameWord t u → ∀ {rest : List Token}, Resolves table (t :: rest) →
      u.kind = .symbol → ∃ q, table.lookup u.text = .ok q := by
    intro t u htu rest hres hu
    rw [← htu.name (htu.kind.trans hu)]
    exact hres t List.mem_cons_self (htu.kind.trans hu)
  have htail : ∀ {t : Token} {rest : List Token}, Resolves table (t :: rest) →
      Resolves table rest :=
    fun hres x hx => hres x (List.mem_cons_of_mem _ hx)
  induction h with
  | nil => exact hts
  | word htu _ ih =>
    intro x hx hsymbol
    rcases List.mem_cons.mp hx with rfl | hx
    · exact hword htu hts hsymbol
    · exact ih (htail hts) x hx hsymbol
  | raised _ _ hm _ _ ih =>
    intro x hx hsymbol
    rcases List.mem_cons.mp hx with rfl | hx
    · simp [hm] at hsymbol
    · exact ih (htail (htail hts)) x hx hsymbol
  | lowered hhat hn _ _ _ ih =>
    intro x hx hsymbol
    rcases List.mem_cons.mp hx with rfl | hx
    · simp [hhat] at hsymbol
    · rcases List.mem_cons.mp hx with rfl | hx
      · simp [hn] at hsymbol
      · exact ih (htail hts) x hx hsymbol
  | dropped _ _ htu _ ih =>
    intro x hx hsymbol
    rcases List.mem_cons.mp hx with rfl | hx
    · exact hword htu (htail hts) hsymbol
    · exact ih (htail (htail hts)) x hx hsymbol
  | inserted hsign _ htu _ ih =>
    intro x hx hsymbol
    rcases List.mem_cons.mp hx with rfl | hx
    · simp [hsign] at hsymbol
    · rcases List.mem_cons.mp hx with rfl | hx
      · exact hword htu hts hsymbol
      · exact ih (htail hts) x hx hsymbol

/-! ### Exponents -/

variable {ts us : List Token}

theorem integerOf_eq {t u : Token} (h : t.value = u.value) : integerOf t = integerOf u := by
  rw [integerOf, integerOf, h]

theorem exists_numerator_of_respelt (n : Numerator) (h : Respelt true (n.tokens ++ ts) us) :
    ∃ (n' : Numerator) (us' : List Token), us = n'.tokens ++ us' ∧ Respelt true ts us' ∧
      n'.value = n.value := by
  rcases n with ⟨hat, i⟩ | i
  · have hhat := hat.2
    have hi := i.2
    cases h with
    | @word _ _ u _ _ htu hs =>
      obtain ⟨v, us', rfl, hiv, hrest⟩ := hs.exists_word (by simp [hi]) (by simp [hi])
        (by simp [hi]) (by simp [Starts, hi])
      rw [hi] at hrest
      exact ⟨.raised ⟨u, htu.kind.symm.trans hhat⟩ ⟨v, hiv.kind.symm.trans hi⟩, us', rfl, hrest,
        (integerOf_eq hiv.value).symm⟩
    | @raised _ _ _ m _ us' _ _ hm hvalue hs =>
      exact ⟨.superscript ⟨m, hm⟩, us', rfl, hs, (integerOf_eq hvalue).symm⟩
    | lowered _ _ hm => simp [hhat] at hm
    | dropped hsign => simp [hhat] at hsign
    | inserted _ ht => simp [Starts, hhat] at ht
  · have hi := i.2
    cases h with
    | @word _ _ u _ us' htu hs =>
      rw [hi] at hs
      exact ⟨.superscript ⟨u, htu.kind.symm.trans hi⟩, us', rfl, hs, (integerOf_eq htu.value).symm⟩
    | raised hhat => simp [hi] at hhat
    | @lowered _ hat n _ _ us' hhat hn _ hvalue hs =>
      exact ⟨.raised ⟨hat, hhat⟩ ⟨n, hn⟩, us', rfl, hs, (integerOf_eq hvalue).symm⟩
    | dropped hsign => simp [hi] at hsign
    | inserted _ ht => simp [Starts, hi] at ht

theorem exists_denominator_of_respelt (d : Denominator) (h : Respelt true (d.tokens ++ ts) us) :
    ∃ (d' : Denominator) (us' : List Token), us = d'.tokens ++ us' ∧ Respelt true ts us' ∧
      integerOf d'.n.1 = integerOf d.n.1 := by
  have hslash := d.slash.2
  have hn := d.n.2
  obtain ⟨u, vs, rfl, hu, hinteger⟩ := h.exists_word (by simp [hslash]) (by simp [hslash])
    (by simp [hslash]) (by simp [Starts, hslash])
  obtain ⟨v, us', rfl, hv, hrest⟩ := hinteger.exists_word (by simp [hn]) (by simp [hn])
    (by simp [hn]) (by simp [Starts, hn])
  rw [hn] at hrest
  exact ⟨⟨⟨u, hu.kind.symm.trans hslash⟩, ⟨v, hv.kind.symm.trans hn⟩⟩, us', rfl, hrest,
    (integerOf_eq hv.value).symm⟩

theorem exists_power_of_respelt (e : Option Power) (h : Respelt true (powerTokens e ++ ts) us) :
    ∃ (e' : Option Power) (us' : List Token), us = powerTokens e' ++ us' ∧ Respelt true ts us' ∧
      e'.map Power.value = e.map Power.value ∧
      e'.toList.map Power.den = e.toList.map Power.den := by
  rcases e with _ | ⟨n, d⟩
  · exact ⟨none, us, rfl, h, rfl, rfl⟩
  · simp only [powerTokens, Power.tokens, Option.map_some, Option.getD_some,
      List.append_assoc] at h
    obtain ⟨n', vs, rfl, hdenominator, hvalue⟩ := exists_numerator_of_respelt n h
    cases d with
    | none =>
      refine ⟨some ⟨n', none⟩, vs, ?_, hdenominator, ?_, rfl⟩
      · simp [powerTokens, Power.tokens]
      · simp [Power.value, Power.den, hvalue]
    | some d =>
      obtain ⟨d', us', rfl, hrest, hden⟩ := exists_denominator_of_respelt d hdenominator
      refine ⟨some ⟨n', some d'⟩, us', ?_, hrest, ?_, ?_⟩
      · simp [powerTokens, Power.tokens]
      · simp [Power.value, Power.den, hvalue, hden]
      · simp [Power.den, hden]

/-! ### Signs -/

theorem exists_sign_of_respelt (s : Option Sign) {t : Token} (ht : Starts t)
    (h : Respelt true (signTokens s ++ t :: ts) us) :
    ∃ (s' : Option Sign) (us' : List Token), us = signTokens s' ++ us' ∧
      Respelt false (t :: ts) us' ∧ signOperator s' = signOperator s := by
  rcases s with _ | ⟨m | d⟩
  · -- No sign: either there is none in the other spelling, or one was put in.
    cases h with
    | word htu hs => exact ⟨none, _, rfl, .word htu hs, rfl⟩
    | raised hhat => simp [Starts, hhat] at ht
    | lowered _ _ hm => simp [Starts, hm] at ht
    | dropped hsign => simp [Starts, hsign] at ht
    | @inserted sign _ _ _ _ hsign _ htu hs =>
      exact ⟨some (.times ⟨sign, hsign⟩), _, rfl, .word htu hs, rfl⟩
  · -- A multiplication sign: it is still there, or it was left out.
    have hm := m.2
    cases h with
    | @word _ _ u _ us' htu hs =>
      simp only [Sign.token, hm, closes] at hs
      exact ⟨some (.times ⟨u, htu.kind.symm.trans hm⟩), us', rfl, hs, rfl⟩
    | raised hhat => simp [Sign.token, hm] at hhat
    | lowered _ _ hsup => simp [Sign.token, hm] at hsup
    | dropped _ _ htu hs => exact ⟨none, _, rfl, .word htu hs, rfl⟩
    | inserted _ hstarts => simp [Starts, Sign.token, hm] at hstarts
  · have hd := d.2
    obtain ⟨u, us', rfl, hu, hrest⟩ := h.exists_word (by simp [Sign.token, hd])
      (by simp [Sign.token, hd]) (by simp [Sign.token, hd]) (by simp [Starts, Sign.token, hd])
    simp only [Sign.token, hd, closes] at hrest
    exact ⟨some (.over ⟨u, hu.kind.symm.trans hd⟩), us', rfl, hrest, rfl⟩

/-! ### Trees -/

mutual

/-- Another spelling of an atom is an atom with the same value. -/
theorem exists_atom_of_respelt : ∀ (a : Atom) {ts us : List Token},
    Respelt false (a.tokens ++ ts) us →
    ∃ (a' : Atom) (us' : List Token), us = a'.tokens ++ us' ∧ Respelt true ts us' ∧
      (∀ table, a'.eval table = a.eval table) ∧
      a'.powers.map Power.den = a.powers.map Power.den
  | .symbol t, ts, us, h => by
      have ht := t.2
      rw [Atom.tokens] at h
      obtain ⟨u, us', rfl, hu, hrest⟩ := h.exists_word (by simp [ht]) (by simp [ht]) (by simp [ht])
        (by simp)
      rw [ht] at hrest
      refine ⟨.symbol ⟨u, hu.kind.symm.trans ht⟩, us', by rw [Atom.tokens]; rfl, hrest, ?_, by
        rw [Atom.powers, Atom.powers]⟩
      intro table
      rw [Atom.eval, Atom.eval, hu.name ht]
  | .group l p r, ts, us, h => by
      have hl := l.2
      have hr := r.2
      rw [Atom.tokens, List.cons_append, List.append_assoc] at h
      obtain ⟨u, vs, rfl, hu, hgroup⟩ := h.exists_word (by simp [hl]) (by simp [hl]) (by simp [hl])
        (by simp)
      rw [hl] at hgroup
      obtain ⟨p', ws, rfl, hclose, heval, hden⟩ := exists_product_of_respelt p hgroup
      obtain ⟨v, us', rfl, hv, hrest⟩ := hclose.exists_word (by simp [hr]) (by simp [hr])
        (by simp [hr]) (by simp [Starts, hr])
      rw [hr] at hrest
      refine ⟨.group ⟨u, hu.kind.symm.trans hl⟩ p' ⟨v, hv.kind.symm.trans hr⟩, us', ?_, hrest, ?_,
        by rw [Atom.powers, Atom.powers, hden]⟩
      · rw [Atom.tokens, List.cons_append, List.append_assoc]
        rfl
      · intro table
        rw [Atom.eval, Atom.eval, heval]

theorem exists_powered_of_respelt : ∀ (f : Powered) {ts us : List Token},
    Respelt false (f.tokens ++ ts) us →
    ∃ (f' : Powered) (us' : List Token), us = f'.tokens ++ us' ∧ Respelt true ts us' ∧
      (∀ table, f'.eval table = f.eval table) ∧
      f'.powers.map Power.den = f.powers.map Power.den
  | .mk a e, ts, us, h => by
      rw [Powered.tokens, List.append_assoc] at h
      obtain ⟨a', vs, rfl, hpower, heval, hden⟩ := exists_atom_of_respelt a h
      obtain ⟨e', us', rfl, hrest, hvalue, hdenominator⟩ := exists_power_of_respelt e hpower
      refine ⟨.mk a' e', us', by rw [Powered.tokens, List.append_assoc], hrest, ?_, ?_⟩
      · intro table
        cases e with
        | none =>
          obtain rfl := Option.map_eq_none_iff.mp hvalue
          rw [Powered.eval, Powered.eval, heval]
        | some e =>
          obtain ⟨e', rfl, hsame⟩ := Option.map_eq_some_iff.mp hvalue
          rw [Powered.eval, Powered.eval, heval, hsame]
      · rw [Powered.powers, Powered.powers, List.map_append, List.map_append, hden, hdenominator]

theorem exists_product_of_respelt : ∀ (p : Product) {ts us : List Token},
    Respelt false (p.tokens ++ ts) us →
    ∃ (p' : Product) (us' : List Token), us = p'.tokens ++ us' ∧ Respelt true ts us' ∧
      (∀ table, p'.eval table = p.eval table) ∧
      p'.powers.map Power.den = p.powers.map Power.den
  | .mk f m, ts, us, h => by
      rw [Product.tokens, List.append_assoc] at h
      obtain ⟨f', vs, rfl, hmore, heval, hden⟩ := exists_powered_of_respelt f h
      obtain ⟨m', us', rfl, hrest, hevalFrom, hdenominator⟩ := exists_tail_of_respelt m hmore
      refine ⟨.mk f' m', us', by rw [Product.tokens, List.append_assoc], hrest, ?_, ?_⟩
      · intro table
        rw [Product.eval, Product.eval, heval]
        exact bind_congr fun q => hevalFrom table q
      · rw [Product.powers, Product.powers, List.map_append, List.map_append, hden, hdenominator]

theorem exists_tail_of_respelt : ∀ (m : Tail) {ts us : List Token},
    Respelt true (m.tokens ++ ts) us →
    ∃ (m' : Tail) (us' : List Token), us = m'.tokens ++ us' ∧ Respelt true ts us' ∧
      (∀ table q, m'.evalFrom table q = m.evalFrom table q) ∧
      m'.powers.map Power.den = m.powers.map Power.den
  | .nil, ts, us, h => by
      rw [Tail.tokens] at h
      exact ⟨.nil, us, by rw [Tail.tokens]; rfl, h, fun _ _ => rfl, rfl⟩
  | .cons s f m, ts, us, h => by
      obtain ⟨t, rest, ht, hstarts⟩ := f.exists_head
      rw [Tail.tokens, List.append_assoc, List.append_assoc, ht, List.cons_append] at h
      obtain ⟨s', vs, rfl, hfactor, hoperator⟩ := exists_sign_of_respelt s hstarts h
      rw [← List.cons_append, ← ht] at hfactor
      obtain ⟨f', ws, rfl, hmore, heval, hden⟩ := exists_powered_of_respelt f hfactor
      obtain ⟨m', us', rfl, hrest, hevalFrom, hdenominator⟩ := exists_tail_of_respelt m hmore
      refine ⟨.cons s' f' m', us', ?_, hrest, ?_, ?_⟩
      · rw [Tail.tokens, List.append_assoc, List.append_assoc]
      · intro table q
        rw [Tail.evalFrom, Tail.evalFrom, heval, hoperator]
        exact bind_congr fun r => bind_congr fun q' => hevalFrom table q'
      · rw [Tail.powers, Tail.powers, List.map_append, List.map_append, hden, hdenominator]

end

/-! ### Reading another spelling -/

theorem divides_of_map_den {es fs : List Power} (h : fs.map Power.den = es.map Power.den)
    (hes : Divides es) : Divides fs := by
  intro f hf
  have hmem : f.den ∈ es.map Power.den := by
    rw [← h]
    exact List.mem_map_of_mem hf
  obtain ⟨e, he, hden⟩ := List.mem_map.mp hmem
  rw [← hden]
  exact hes e he

/-- Another spelling of what is read is read as the same quantity. -/
theorem ofTokens_respelt {s s' : Scope} (htable : s.table = s'.table) (h : Respelt false ts us)
    (hvalued : Valued ts) (hvalued' : Valued us) {q : Quantity} (hread : ofTokens s ts = .ok q) :
    ofTokens s' us = .ok q := by
  rcases isExpression_of_ofTokens s hread with rfl | ⟨p, rfl, hm⟩
  · cases h
    exact hread
  · rw [← List.append_nil p.tokens] at h
    obtain ⟨p', us', rfl, hrest, heval, hden⟩ := exists_product_of_respelt p h
    cases hrest
    rw [List.append_nil] at hvalued' ⊢
    rw [List.append_nil, List.append_nil] at h
    have hm' : Meaningful s'.table p'.tokens p'.powers :=
      htable ▸ ⟨h.resolves hm.resolves, divides_of_map_den hden hm.divides⟩
    rw [ofTokens_product s hm hvalued] at hread
    rw [ofTokens_product s' hm' hvalued', heval, ← htable, hread]

end UnitCalculus.Expression
