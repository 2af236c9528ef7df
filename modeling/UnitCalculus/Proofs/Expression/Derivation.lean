import Mathlib.Tactic.Common
import UnitCalculus.Expression

/-! # Derivations of unit expressions

The grammar that the reader of unit expressions accepts, as trees over tokens:

    product := powered ((mul | div)? powered)*
    powered := atom power?
    power   := (exp integer | supinteger) (div integer)?
    atom    := lparen product rparen | symbol

`tokens` is the text that a tree derives, `eval` its meaning: the factors are combined from left to
right, a division sign divides by the next factor only, and a power is an exact fraction.  No text
has two derivations (`Product.tokens_injective`); what makes this so is that the tokens after a
factor cannot extend it (`extendsFactor`) and that a product ends where its group does (`ends`). -/

namespace UnitCalculus.Expression.Derivation

/-! ### Trees -/

/-- A token of the given kind. -/
abbrev Terminal (k : TokenKind) := { t : Token // t.kind = k }

/-- A sign between two factors. -/
inductive Sign where
  | times (t : Terminal .mul)
  | over (t : Terminal .div)

/-- An integer that is raised with a sign, or by its script. -/
inductive Numerator where
  | raised (hat : Terminal .exp) (n : Terminal .integer)
  | superscript (n : Terminal .supinteger)

structure Denominator where
  slash : Terminal .div
  n : Terminal .integer

/-- An exponent: an integer or a fraction. -/
structure Power where
  numerator : Numerator
  denominator : Option Denominator

mutual

/-- A symbol or a group. -/
inductive Atom where
  | symbol (t : Terminal .symbol)
  | group (l : Terminal .lparen) (p : Product) (r : Terminal .rparen)

/-- A symbol or a group with its exponent. -/
inductive Powered where
  | mk (a : Atom) (e : Option Power)

/-- A first factor and more factors. -/
inductive Product where
  | mk (first : Powered) (more : Tail)

/-- Factors with the signs before them. -/
inductive Tail where
  | nil
  | cons (sign : Option Sign) (f : Powered) (more : Tail)

end

/-! ### The derived tokens -/

def Sign.token : Sign → Token
  | .times t => t.1
  | .over t => t.1

/-- The token of a sign, if there is one. -/
def signTokens (s : Option Sign) : List Token := (s.map Sign.token).toList

def Numerator.tokens : Numerator → List Token
  | .raised hat n => [hat.1, n.1]
  | .superscript n => [n.1]

def Denominator.tokens (d : Denominator) : List Token := [d.slash.1, d.n.1]

def Power.tokens (e : Power) : List Token :=
  e.numerator.tokens ++ (e.denominator.map Denominator.tokens).getD []

/-- The tokens of an exponent, if there is one. -/
def powerTokens (e : Option Power) : List Token := (e.map Power.tokens).getD []

mutual

def Atom.tokens : Atom → List Token
  | .symbol t => [t.1]
  | .group l p r => l.1 :: (p.tokens ++ [r.1])

def Powered.tokens : Powered → List Token
  | .mk a e => a.tokens ++ powerTokens e

def Product.tokens : Product → List Token
  | .mk first more => first.tokens ++ more.tokens

def Tail.tokens : Tail → List Token
  | .nil => []
  | .cons sign f more => signTokens sign ++ (f.tokens ++ more.tokens)

end

theorem ne_symbol_of_mem_signTokens {s : Option Sign} {t : Token} (ht : t ∈ signTokens s) :
    t.kind ≠ .symbol := by
  rcases s with _ | ⟨m | d⟩
  · cases ht
  · rw [List.mem_singleton.mp ht]
    simp [Sign.token, m.2]
  · rw [List.mem_singleton.mp ht]
    simp [Sign.token, d.2]

theorem ne_symbol_of_mem_powerTokens {e : Option Power} {t : Token} (ht : t ∈ powerTokens e) :
    t.kind ≠ .symbol := by
  rcases e with _ | ⟨⟨hat, i⟩ | i, _ | ⟨slash, n⟩⟩ <;>
    simp only [powerTokens, Power.tokens, Numerator.tokens, Denominator.tokens, Option.map_some,
      Option.map_none, Option.getD_some, Option.getD_none, List.append_nil, List.cons_append,
      List.nil_append, List.mem_cons, List.not_mem_nil, or_false] at ht
  · rcases ht with rfl | rfl <;> simp [hat.2, i.2]
  · rcases ht with rfl | rfl | rfl | rfl <;> simp [hat.2, i.2, slash.2, n.2]
  · simp [ht, i.2]
  · rcases ht with rfl | rfl | rfl <;> simp [i.2, slash.2, n.2]

/-! ### The meaning of a tree -/

/-- The operator that a sign stands for; without a sign it is a product. -/
def signOperator : Option Sign → Operator
  | some (.over _) => .div
  | _ => .mul

/-- The value of an integer token. -/
def integerOf (t : Token) : Int := t.value.getD 0

def Numerator.value : Numerator → Int
  | .raised _ n => integerOf n.1
  | .superscript n => integerOf n.1

namespace Power

/-- The denominator, one when there is none. -/
def den (e : Power) : Int := (e.denominator.map fun d => integerOf d.n.1).getD 1

/-- The exponent as an exact fraction. -/
def value (e : Power) : Rat := (e.numerator.value : Rat) / (e.den : Rat)

end Power

mutual

def Atom.eval (table : UnitTable) : Atom → Except Fault Quantity
  | .symbol t => table.lookup t.1.text
  | .group _ p _ => p.eval table

def Powered.eval (table : UnitTable) : Powered → Except Fault Quantity
  | .mk a none => a.eval table
  | .mk a (some e) => do (← a.eval table).pow e.value

def Product.eval (table : UnitTable) : Product → Except Fault Quantity
  | .mk first more => do more.evalFrom table (← first.eval table)

/-- The product of `q` and the factors, taken in from left to right. -/
def Tail.evalFrom (table : UnitTable) : Tail → Quantity → Except Fault Quantity
  | .nil, q => .ok q
  | .cons sign f more, q => do
    let r ← f.eval table
    more.evalFrom table (← q.withQuantity (signOperator sign) r)

end

mutual

/-- The exponents in a tree. -/
def Atom.powers : Atom → List Power
  | .symbol _ => []
  | .group _ p _ => p.powers

def Powered.powers : Powered → List Power
  | .mk a e => a.powers ++ e.toList

def Product.powers : Product → List Power
  | .mk first more => first.powers ++ more.powers

def Tail.powers : Tail → List Power
  | .nil => []
  | .cons _ f more => f.powers ++ more.powers

end

/-- Every symbol among the tokens stands for a quantity. -/
def Resolves (table : UnitTable) (ts : List Token) : Prop :=
  ∀ t ∈ ts, t.kind = .symbol → ∃ q, table.lookup t.text = .ok q

/-- No exponent has the denominator zero. -/
def Divides (es : List Power) : Prop := ∀ e ∈ es, e.den ≠ 0

/-- The symbols of a tree stand for quantities, and its exponents are numbers. -/
structure Meaningful (table : UnitTable) (ts : List Token) (es : List Power) : Prop where
  resolves : Resolves table ts
  divides : Divides es

section meaningful

variable {table : UnitTable}

theorem meaningful_nil : Meaningful table [] [] := ⟨by simp [Resolves], by simp [Divides]⟩

theorem Meaningful.append {ts us : List Token} {es fs : List Power} (h : Meaningful table ts es)
    (h' : Meaningful table us fs) : Meaningful table (ts ++ us) (es ++ fs) :=
  ⟨fun t ht => (List.mem_append.mp ht).elim (h.resolves t) (h'.resolves t),
    fun e he => (List.mem_append.mp he).elim (h.divides e) (h'.divides e)⟩

theorem meaningful_symbol {t : Token} {q : Quantity} (h : table.lookup t.text = .ok q) :
    Meaningful table [t] [] := by
  refine ⟨fun u hu _ => ⟨q, ?_⟩, by simp [Divides]⟩
  rw [List.mem_singleton.mp hu]
  exact h

/-- Tokens that are no symbols need not stand for anything. -/
theorem meaningful_of_ne_symbol {ts : List Token} {es : List Power}
    (h : ∀ t ∈ ts, t.kind ≠ .symbol) (he : Divides es) : Meaningful table ts es :=
  ⟨fun t ht hs => absurd hs (h t ht), he⟩

theorem meaningful_sign (s : Option Sign) : Meaningful table (signTokens s) [] :=
  meaningful_of_ne_symbol (fun _ ht => ne_symbol_of_mem_signTokens ht) (by simp [Divides])

theorem meaningful_power {e : Option Power} (h : Divides e.toList) :
    Meaningful table (powerTokens e) e.toList :=
  meaningful_of_ne_symbol (fun _ ht => ne_symbol_of_mem_powerTokens ht) h

theorem Meaningful.parens {ts : List Token} {es : List Power} (h : Meaningful table ts es)
    {l r : Token} (hl : l.kind = .lparen) (hr : r.kind = .rparen) :
    Meaningful table (l :: (ts ++ [r])) es := by
  have hleft : Meaningful table [l] [] :=
    meaningful_of_ne_symbol (by simp [hl]) (by simp [Divides])
  have hright : Meaningful table [r] [] :=
    meaningful_of_ne_symbol (by simp [hr]) (by simp [Divides])
  simpa using hleft.append (h.append hright)

end meaningful

/-! ### What may follow a factor -/

/-- Whether the tokens continue the factor before them: an exponent, or its denominator. -/
def extendsFactor : List Token → Bool
  | [] => false
  | t :: ts =>
    match t.kind with
    | .exp | .supinteger => true
    | .div => (ts.head?.map Token.kind) == some .integer
    | _ => false

/-- Whether a factor starts with the token. -/
def Starts (t : Token) : Prop := t.kind = .lparen ∨ t.kind = .symbol

theorem Atom.exists_head (a : Atom) : ∃ t ts, a.tokens = t :: ts ∧ Starts t := by
  cases a with
  | symbol t => exact ⟨t.1, [], by rw [Atom.tokens], Or.inr t.2⟩
  | group l p r => exact ⟨l.1, p.tokens ++ [r.1], by rw [Atom.tokens], Or.inl l.2⟩

theorem Powered.exists_head (f : Powered) : ∃ t ts, f.tokens = t :: ts ∧ Starts t := by
  obtain ⟨a, e⟩ := f
  obtain ⟨t, ts, ht, hs⟩ := a.exists_head
  exact ⟨t, ts ++ powerTokens e, by rw [Powered.tokens, ht, List.cons_append], hs⟩

theorem extendsFactor_of_starts {t : Token} (h : Starts t) (ts : List Token) :
    extendsFactor (t :: ts) = false := by
  rcases h with h | h <;> simp [extendsFactor, h]

/-- After the end of a product no factor goes on. -/
theorem extendsFactor_of_ends {grouped : Bool} {ts : List Token} (h : ends grouped ts = true) :
    extendsFactor ts = false := by
  cases ts with
  | nil => rfl
  | cons t ts =>
    simp only [ends, Bool.and_eq_true, beq_iff_eq] at h
    simp [extendsFactor, h.2]

/-- What follows a factor in a product does not extend it. -/
theorem extendsFactor_tail (m : Tail) {rest : List Token} (h : extendsFactor rest = false) :
    extendsFactor (m.tokens ++ rest) = false := by
  cases m with
  | nil => simpa [Tail.tokens] using h
  | cons sign f more =>
    obtain ⟨t, ts, ht, hs⟩ := f.exists_head
    rw [Tail.tokens, ht]
    rcases sign with _ | ⟨m | d⟩
    · exact extendsFactor_of_starts hs _
    · simp [signTokens, Sign.token, extendsFactor, m.2]
    · rcases hs with hs | hs <;> simp [signTokens, Sign.token, extendsFactor, d.2, hs]

/-- A product does not end before another factor. -/
theorem ends_cons (grouped : Bool) (sign : Option Sign) (f : Powered) (more : Tail)
    (rest : List Token) : ends grouped ((Tail.cons sign f more).tokens ++ rest) = false := by
  obtain ⟨t, ts, ht, hs⟩ := f.exists_head
  rw [Tail.tokens, ht]
  rcases sign with _ | ⟨m | d⟩
  · rcases hs with hs | hs <;> simp [signTokens, ends, hs]
  · simp [signTokens, Sign.token, ends, m.2]
  · simp [signTokens, Sign.token, ends, d.2]

/-! ### No text has two derivations -/

theorem terminal_ext {k : TokenKind} {t t' : Terminal k} {ts ts' : List Token}
    (h : t.1 :: ts = t'.1 :: ts') : t = t' ∧ ts = ts' :=
  ⟨Subtype.ext (List.cons.inj h).1, (List.cons.inj h).2⟩

/-- Tokens of different kinds differ. -/
theorem terminal_ne {k k' : TokenKind} (hk : k ≠ k') {t : Terminal k} {t' : Terminal k'}
    {ts ts' : List Token} (h : t.1 :: ts = t'.1 :: ts') : False :=
  hk (t.2.symm.trans ((congrArg Token.kind (List.cons.inj h).1).trans t'.2))

theorem signTokens_inj {s s' : Option Sign} {t t' : Token} {ts ts' : List Token} (ht : Starts t)
    (ht' : Starts t') (h : signTokens s ++ t :: ts = signTokens s' ++ t' :: ts') :
    s = s' ∧ t :: ts = t' :: ts' := by
  have clash : ∀ {u : Token}, Starts u → ∀ {us : List Token} {v : Sign} {vs : List Token},
      u :: us = v.token :: vs → False := by
    intro u hu us v vs he
    have hkind := congrArg Token.kind (List.cons.inj he).1
    rcases v with m | d
    · rcases hu with hu | hu <;> simp [Sign.token, hu, m.2] at hkind
    · rcases hu with hu | hu <;> simp [Sign.token, hu, d.2] at hkind
  rcases s with _ | v <;> rcases s' with _ | v'
  · exact ⟨rfl, h⟩
  · exact (clash ht h).elim
  · exact (clash ht' h.symm).elim
  · rcases v with m | d <;> rcases v' with m' | d'
    · obtain ⟨rfl, hts⟩ := terminal_ext h
      exact ⟨rfl, hts⟩
    · exact (terminal_ne (by decide) h).elim
    · exact (terminal_ne (by decide) h).elim
    · obtain ⟨rfl, hts⟩ := terminal_ext h
      exact ⟨rfl, hts⟩

theorem Numerator.tokens_inj {n n' : Numerator} {ts ts' : List Token}
    (h : n.tokens ++ ts = n'.tokens ++ ts') : n = n' ∧ ts = ts' := by
  rcases n with ⟨hat, i⟩ | i <;> rcases n' with ⟨hat', i'⟩ | i'
  · obtain ⟨rfl, htail⟩ := terminal_ext h
    obtain ⟨rfl, hts⟩ := terminal_ext htail
    exact ⟨rfl, hts⟩
  · exact (terminal_ne (by decide) h).elim
  · exact (terminal_ne (by decide) h).elim
  · obtain ⟨rfl, hts⟩ := terminal_ext h
    exact ⟨rfl, hts⟩

theorem extendsFactor_denominator (d : Denominator) (ts : List Token) :
    extendsFactor (d.tokens ++ ts) = true := by
  simp [Denominator.tokens, extendsFactor, d.slash.2, d.n.2]

theorem extendsFactor_power (e : Power) (ts : List Token) :
    extendsFactor (e.tokens ++ ts) = true := by
  obtain ⟨⟨hat, n⟩ | n, d⟩ := e
  · simp [Power.tokens, Numerator.tokens, extendsFactor, hat.2]
  · simp [Power.tokens, Numerator.tokens, extendsFactor, n.2]

theorem extendsFactor_ne {ts us : List Token} (hts : extendsFactor ts = false)
    (hus : extendsFactor us = true) : ts ≠ us := by
  intro h
  rw [h, hus] at hts
  exact Bool.noConfusion hts

theorem denominatorTokens_inj {d d' : Option Denominator} {ts ts' : List Token}
    (hts : extendsFactor ts = false) (hts' : extendsFactor ts' = false)
    (h : (d.map Denominator.tokens).getD [] ++ ts = (d'.map Denominator.tokens).getD [] ++ ts') :
    d = d' ∧ ts = ts' := by
  rcases d with _ | d <;> rcases d' with _ | d'
  · exact ⟨rfl, h⟩
  · exact absurd h (extendsFactor_ne hts (extendsFactor_denominator d' ts'))
  · exact absurd h.symm (extendsFactor_ne hts' (extendsFactor_denominator d ts))
  · obtain ⟨hslash, htail⟩ := terminal_ext h
    obtain ⟨hn, hrest⟩ := terminal_ext htail
    obtain ⟨slash, n⟩ := d
    obtain ⟨slash', n'⟩ := d'
    dsimp only at hslash hn
    rw [hslash, hn]
    exact ⟨rfl, hrest⟩

theorem powerTokens_inj {e e' : Option Power} {ts ts' : List Token}
    (hts : extendsFactor ts = false) (hts' : extendsFactor ts' = false)
    (h : powerTokens e ++ ts = powerTokens e' ++ ts') : e = e' ∧ ts = ts' := by
  rcases e with _ | e <;> rcases e' with _ | e'
  · exact ⟨rfl, h⟩
  · exact absurd h (extendsFactor_ne hts (extendsFactor_power e' ts'))
  · exact absurd h.symm (extendsFactor_ne hts' (extendsFactor_power e ts))
  · obtain ⟨n, d⟩ := e
    obtain ⟨n', d'⟩ := e'
    simp only [powerTokens, Power.tokens, Option.map_some, Option.getD_some,
      List.append_assoc] at h
    obtain ⟨rfl, htail⟩ := Numerator.tokens_inj h
    obtain ⟨rfl, hrest⟩ := denominatorTokens_inj hts hts' htail
    exact ⟨rfl, hrest⟩

mutual

/-- An atom ends where its last token says so, whatever follows. -/
theorem Atom.tokens_inj : ∀ (a a' : Atom) {ts ts' : List Token},
    a.tokens ++ ts = a'.tokens ++ ts' → a = a' ∧ ts = ts'
  | .symbol t, .symbol t', ts, ts', h => by
      rw [Atom.tokens, Atom.tokens] at h
      obtain ⟨rfl, hts⟩ := terminal_ext h
      exact ⟨rfl, hts⟩
  | .symbol t, .group l p r, ts, ts', h => by
      rw [Atom.tokens, Atom.tokens] at h
      exact (terminal_ne (by decide) h).elim
  | .group l p r, .symbol t, ts, ts', h => by
      rw [Atom.tokens, Atom.tokens] at h
      exact (terminal_ne (by decide) h).elim
  | .group l p r, .group l' p' r', ts, ts', h => by
      rw [Atom.tokens, Atom.tokens, List.cons_append, List.cons_append] at h
      obtain ⟨rfl, htail⟩ := terminal_ext h
      rw [List.append_assoc, List.append_assoc] at htail
      have hends : ∀ (c : Terminal .rparen) (us : List Token), ends true ([c.1] ++ us) = true := by
        intro c us
        simp [ends, c.2]
      obtain ⟨rfl, hclose⟩ := Product.tokens_inj p p' (hends r ts) (hends r' ts') htail
      obtain ⟨rfl, hts⟩ := terminal_ext hclose
      exact ⟨rfl, hts⟩

theorem Powered.tokens_inj : ∀ (f f' : Powered) {ts ts' : List Token},
    extendsFactor ts = false → extendsFactor ts' = false →
      f.tokens ++ ts = f'.tokens ++ ts' → f = f' ∧ ts = ts'
  | .mk a e, .mk a' e', ts, ts', hts, hts', h => by
      rw [Powered.tokens, Powered.tokens, List.append_assoc, List.append_assoc] at h
      obtain ⟨rfl, htail⟩ := Atom.tokens_inj a a' h
      obtain ⟨rfl, hrest⟩ := powerTokens_inj hts hts' htail
      exact ⟨rfl, hrest⟩

theorem Product.tokens_inj : ∀ (p p' : Product) {ts ts' : List Token},
    ends true ts = true → ends true ts' = true →
      p.tokens ++ ts = p'.tokens ++ ts' → p = p' ∧ ts = ts'
  | .mk f m, .mk f' m', ts, ts', hts, hts', h => by
      rw [Product.tokens, Product.tokens, List.append_assoc, List.append_assoc] at h
      obtain ⟨rfl, htail⟩ := Powered.tokens_inj f f'
        (extendsFactor_tail m (extendsFactor_of_ends hts))
        (extendsFactor_tail m' (extendsFactor_of_ends hts')) h
      obtain ⟨rfl, hrest⟩ := Tail.tokens_inj m m' hts hts' htail
      exact ⟨rfl, hrest⟩

theorem Tail.tokens_inj : ∀ (m m' : Tail) {ts ts' : List Token},
    ends true ts = true → ends true ts' = true →
      m.tokens ++ ts = m'.tokens ++ ts' → m = m' ∧ ts = ts'
  | .nil, .nil, ts, ts', _, _, h => by
      rw [Tail.tokens] at h
      exact ⟨rfl, h⟩
  | .nil, .cons s f m, ts, ts', hts, _, h => by
      have hcons := ends_cons true s f m ts'
      rw [← h, Tail.tokens, List.nil_append, hts] at hcons
      exact absurd hcons (by decide)
  | .cons s f m, .nil, ts, ts', _, hts', h => by
      have hcons := ends_cons true s f m ts
      rw [h, Tail.tokens, List.nil_append, hts'] at hcons
      exact absurd hcons (by decide)
  | .cons s f m, .cons s' f' m', ts, ts', hts, hts', h => by
      obtain ⟨t, us, ht, hs⟩ := f.exists_head
      obtain ⟨t', us', ht', hs'⟩ := f'.exists_head
      rw [Tail.tokens, Tail.tokens, List.append_assoc, List.append_assoc, List.append_assoc,
        List.append_assoc] at h
      have hsigns := h
      rw [ht, ht'] at hsigns
      obtain ⟨rfl, hf⟩ := signTokens_inj hs hs' hsigns
      have htail := List.append_cancel_left h
      obtain ⟨rfl, hmore⟩ := Powered.tokens_inj f f'
        (extendsFactor_tail m (extendsFactor_of_ends hts))
        (extendsFactor_tail m' (extendsFactor_of_ends hts')) htail
      obtain ⟨rfl, hrest⟩ := Tail.tokens_inj m m' hts hts' hmore
      exact ⟨rfl, hrest⟩

end

/-- The grammar is unambiguous. -/
theorem Product.tokens_injective {p p' : Product} (h : p.tokens = p'.tokens) : p = p' := by
  have h' : p.tokens ++ [] = p'.tokens ++ [] := by rw [h]
  exact (Product.tokens_inj p p' rfl rfl h').1

end UnitCalculus.Expression.Derivation
