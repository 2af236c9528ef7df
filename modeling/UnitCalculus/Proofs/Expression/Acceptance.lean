import UnitCalculus.Proofs.Expression.Reading

/-! # What is a unit expression

A text is a unit expression when its tokens are none at all or have a derivation whose symbols stand
for quantities and whose exponents have denominators other than zero; the derivation is the only
one, and its value is what the text stands for (`readUnit_iff_derivation`).  Any other text is
refused with a fault of the expression, unless the arithmetic fails before.

`OnlyFaults` follows the faults through the reader: evaluating a tree fails by its arithmetic alone
(`onlyFaults_product`), reading by the expression or by arithmetic (`onlyFaults_read_product`). -/

namespace UnitCalculus

/-! ### The faults of arithmetic -/

theorem onlyFaults_withQuantity {o : Operator} (ho : o = .mul ∨ o = .div) (q r : Quantity) :
    OnlyFaults Arithmetic (q.withQuantity o r) := by
  rcases ho with rfl | rfl
  · exact (onlyFaults_liftNumber _).bind fun a _ => onlyFaults_ok _
  · exact (onlyFaults_liftNumber _).bind fun a _ => onlyFaults_ok _

theorem onlyFaults_pow (q : Quantity) (e : Rat) : OnlyFaults Arithmetic (q.pow e) :=
  (onlyFaults_liftNumber _).bind fun _ _ => onlyFaults_ok _

namespace Expression

open UnitCalculus.Expression.Derivation

theorem onlyFaults_sign (s : Option Sign) (q r : Quantity) :
    OnlyFaults Arithmetic (q.withQuantity (signOperator s) r) := by
  refine onlyFaults_withQuantity ?_ q r
  rcases s with _ | ⟨m | d⟩
  · exact Or.inl rfl
  · exact Or.inl rfl
  · exact Or.inr rfl

mutual

/-- A tree whose symbols stand for quantities fails by its arithmetic alone. -/
theorem onlyFaults_atom {table : UnitTable} : ∀ (a : Atom), Resolves table a.tokens →
    OnlyFaults Arithmetic (a.eval table)
  | .symbol t, h => by
      rw [Atom.tokens] at h
      obtain ⟨q, hq⟩ := h t.1 (List.mem_singleton_self _) t.2
      rw [Atom.eval, hq]
      exact onlyFaults_ok q
  | .group l p r, h => by
      rw [Atom.eval]
      refine onlyFaults_product p fun t ht => h t ?_
      rw [Atom.tokens]
      simp [ht]

theorem onlyFaults_powered {table : UnitTable} : ∀ (f : Powered), Resolves table f.tokens →
    OnlyFaults Arithmetic (f.eval table)
  | .mk a e, h => by
      have ha := onlyFaults_atom a fun t ht => h t (by rw [Powered.tokens]; simp [ht])
      cases e with
      | none => rwa [Powered.eval]
      | some e =>
        rw [Powered.eval]
        exact ha.bind fun q _ => onlyFaults_pow q e.value

theorem onlyFaults_product {table : UnitTable} : ∀ (p : Product), Resolves table p.tokens →
    OnlyFaults Arithmetic (p.eval table)
  | .mk f m, h => by
      rw [Product.eval]
      refine (onlyFaults_powered f fun t ht => h t ?_).bind fun q _ =>
        onlyFaults_tail m q fun t ht => h t ?_
      · rw [Product.tokens]
        exact List.mem_append_left _ ht
      · rw [Product.tokens]
        exact List.mem_append_right _ ht

theorem onlyFaults_tail {table : UnitTable} : ∀ (m : Tail) (q : Quantity),
    Resolves table m.tokens → OnlyFaults Arithmetic (m.evalFrom table q)
  | .nil, q, _ => by
      rw [Tail.evalFrom]
      exact onlyFaults_ok q
  | .cons s f m, q, h => by
      rw [Tail.evalFrom]
      refine (onlyFaults_powered f fun t ht => h t ?_).bind fun r _ =>
        (onlyFaults_sign s q r).bind fun q' _ => onlyFaults_tail m q' fun t ht => h t ?_
      · rw [Tail.tokens]
        simp [ht]
      · rw [Tail.tokens]
        simp [ht]

end

/-! ### The faults of the reader -/

/-- The fault is one of the expression or of arithmetic. -/
def OfReading (f : Fault) : Prop := (∃ e, f = .expression e) ∨ Arithmetic f

theorem ofReading_fault (s : Scope) (c : ExpressionCause) (n : ℕ) : OfReading (s.fault c n) :=
  Or.inl ⟨_, rfl⟩

theorem ofReading_endFault (s : Scope) : OfReading s.endFault := ofReading_fault s _ _

theorem ofReading_unexpected (s : Scope) (t : Token) (ks : List TokenKind) :
    OfReading (s.unexpected t ks) :=
  ofReading_fault s _ _

theorem OnlyFaults.ofReading {α : Type} {x : Except Fault α} (h : OnlyFaults Arithmetic x) :
    OnlyFaults OfReading x :=
  h.imp fun _ hf => Or.inr hf

theorem onlyFaults_lookup (table : UnitTable) (symbol : String) :
    OnlyFaults OfReading (table.lookup symbol) := by
  have split : ∀ n, OnlyFaults OfReading (table.lookupSplit symbol n) := by
    intro n
    induction n with
    | zero => exact onlyFaults_error (Or.inl ⟨_, rfl⟩)
    | succ n ih =>
      unfold UnitTable.lookupSplit
      dsimp only
      split
      · exact ih
      · split
        · exact onlyFaults_error (Or.inl ⟨_, rfl⟩)
        · split
          · exact OnlyFaults.ofReading ((onlyFaults_liftNumber _).bind fun _ _ => onlyFaults_ok _)
          · exact ih
  unfold UnitTable.lookup
  split
  · exact onlyFaults_ok _
  · exact split _

theorem onlyFaults_integer (s : Scope) (ts : List Token) : OnlyFaults OfReading (integer s ts) := by
  unfold integer
  split
  · exact onlyFaults_error (ofReading_endFault s)
  · split
    · split
      · exact onlyFaults_ok _
      · exact onlyFaults_error (ofReading_fault s _ _)
    · exact onlyFaults_error (ofReading_unexpected s _ _)

theorem onlyFaults_denominator (s : Scope) (ts : List Token) :
    OnlyFaults OfReading (denominator s ts) := by
  unfold denominator
  split
  · split
    · refine (onlyFaults_integer s _).bind fun x _ => ?_
      obtain ⟨⟨n, t⟩, rest⟩ := x
      dsimp only
      split
      · exact onlyFaults_error (ofReading_fault s _ _)
      · exact onlyFaults_ok _
    · exact onlyFaults_ok _
  · exact onlyFaults_ok _

theorem onlyFaults_rational (s : Scope) (ts : List Token) :
    OnlyFaults OfReading (rational s ts) :=
  (onlyFaults_integer s ts).bind fun _ _ =>
    (onlyFaults_denominator s _).bind fun _ _ => onlyFaults_ok _

theorem onlyFaults_exponent? (s : Scope) (ts : List Token) :
    OnlyFaults OfReading (exponent? s ts) := by
  unfold exponent?
  split
  · exact onlyFaults_ok _
  · split
    · split
      · exact onlyFaults_error (ofReading_endFault s)
      · split
        · exact (onlyFaults_rational s _).bind fun _ _ => onlyFaults_ok _
        · exact onlyFaults_error (ofReading_unexpected s _ _)
    · exact (onlyFaults_rational s _).bind fun _ _ => onlyFaults_ok _
    · exact onlyFaults_ok _

theorem onlyFaults_resolve (s : Scope) (t : Token) : OnlyFaults OfReading (resolve s t) := by
  unfold resolve
  split
  · exact onlyFaults_ok _
  · exact onlyFaults_error (ofReading_fault s _ _)
  · next f hf hl => exact onlyFaults_error (onlyFaults_lookup s.table t.text f hl)

theorem onlyFaults_close (s : Scope) (ts : List Token) : OnlyFaults OfReading (close s ts) := by
  unfold close
  split
  · exact onlyFaults_error (ofReading_endFault s)
  · split
    · exact onlyFaults_ok _
    · exact onlyFaults_error (ofReading_unexpected s _ _)

theorem onlyFaults_operator (s : Scope) (ts : List Token) :
    OnlyFaults OfReading (operator s ts) := by
  unfold operator
  split
  · exact onlyFaults_error (ofReading_endFault s)
  · split
    · exact onlyFaults_error (ofReading_endFault s)
    · exact onlyFaults_error (ofReading_endFault s)
    · exact onlyFaults_ok _
    · exact onlyFaults_ok _
    · exact onlyFaults_ok _

section group

variable {s : Scope} {group : Reader Quantity}

theorem onlyFaults_unit (hg : ∀ ts, OnlyFaults OfReading (group ts)) (ts : List Token) :
    OnlyFaults OfReading (unit s group ts) := by
  unfold unit
  split
  · exact onlyFaults_ok _
  · split
    · exact (hg _).bind fun _ _ => (onlyFaults_close s _).bind fun _ _ => onlyFaults_ok _
    · exact (onlyFaults_resolve s _).bind fun _ _ => onlyFaults_ok _
    · exact onlyFaults_error (ofReading_unexpected s _ _)

theorem onlyFaults_factor (hg : ∀ ts, OnlyFaults OfReading (group ts)) (ts : List Token) :
    OnlyFaults OfReading (factor s group ts) := by
  refine (onlyFaults_unit hg ts).bind fun x _ => (onlyFaults_exponent? s x.2).bind fun y _ => ?_
  obtain ⟨e, us⟩ := y
  cases e with
  | none => exact onlyFaults_ok _
  | some e => exact (OnlyFaults.ofReading (onlyFaults_pow _ e)).bind fun _ _ => onlyFaults_ok _

theorem onlyFaults_moreFactors (hg : ∀ ts, OnlyFaults OfReading (group ts)) (grouped : Bool)
    (rounds : ℕ) (q : Quantity) (ts : List Token) :
    OnlyFaults OfReading (moreFactors s group grouped rounds q ts) := by
  induction rounds generalizing q ts with
  | zero => exact onlyFaults_ok _
  | succ rounds ih =>
    rw [moreFactors]
    split
    · exact onlyFaults_ok _
    · refine (onlyFaults_operator s ts).bind fun x hx => ?_
      obtain ⟨o, us⟩ := x
      obtain ⟨sign, -, -, -, -, rfl⟩ := operator_sound hx
      exact (onlyFaults_factor hg _).bind fun y _ =>
        (OnlyFaults.ofReading (onlyFaults_sign sign q y.1)).bind fun q' _ => ih q' _

end group

theorem onlyFaults_read_product (s : Scope) (depth : ℕ) (grouped : Bool) (ts : List Token) :
    OnlyFaults OfReading (product s depth grouped ts) := by
  induction depth generalizing grouped ts with
  | zero => exact onlyFaults_ok _
  | succ depth ih =>
    exact (onlyFaults_factor (fun us => ih true us) ts).bind fun _ _ =>
      onlyFaults_moreFactors (fun us => ih true us) grouped _ _ _

/-! ### The tokens of a text -/

theorem valued_ofBlock {text : String} {n : ℕ} {cs : List Char} {t : Option Token}
    (h : Token.ofBlock? text n cs = .ok t) : Valued t.toList := by
  unfold Token.ofBlock? at h
  split at h
  · cases h
    simp [Valued]
  · next k hk =>
    split at h
    · split at h
      · cases h
        simp [Valued]
      · cases h
    · next hno =>
      cases h
      intro t ht hkind
      rw [Option.toList_some, List.mem_singleton] at ht
      subst ht
      rcases hkind with rfl | rfl <;> exact absurd rfl hno

/-- The integers among the tokens of a text have values. -/
theorem valued_lex {text : String} {ts : List Token} (h : Token.lex text = .ok ts) :
    Valued ts := by
  unfold Token.lex at h
  generalize Token.blocks text.toList = bs at h
  generalize 0 = n at h
  induction bs generalizing n ts with
  | nil =>
    cases h
    simp [Valued]
  | cons b bs ih =>
    obtain ⟨t, hblock, h⟩ := bind_eq_ok h
    obtain ⟨us, hrest, h⟩ := bind_eq_ok h
    cases h
    intro u hu
    rcases List.mem_append.mp hu with hu | hu
    · exact valued_ofBlock hblock u hu
    · exact ih _ hrest u hu

/-! ### Texts that are read -/

/-- The tokens are those of a unit expression: there are none, or a tree derives them, their symbols
stand for quantities and no exponent of the tree has the denominator zero. -/
def IsExpression (table : UnitTable) (ts : List Token) : Prop :=
  ts = [] ∨ ∃ p : Product, p.tokens = ts ∧ Meaningful table ts p.powers

/-- The tree derives the tokens of the text; a text without tokens has no tree. -/
def Derives (text : String) (p : Option Product) : Prop :=
  Token.lex text = .ok ((p.map Product.tokens).getD [])

theorem readUnit_of_lex (table : UnitTable) {text : String} {ts : List Token}
    (h : Token.lex text = .ok ts) : readUnit table text = ofTokens ⟨table, text⟩ ts := by
  rw [readUnit, tokens, h]
  rfl

theorem onlyFaults_readUnit (table : UnitTable) {text : String} {ts : List Token}
    (h : Token.lex text = .ok ts) : OnlyFaults OfReading (readUnit table text) := by
  rw [readUnit_of_lex table h]
  exact (onlyFaults_read_product _ _ _ _).bind fun x _ => onlyFaults_ok x.1

/-- The tokens of a meaningful tree are read as its value. -/
theorem ofTokens_product (s : Scope) {p : Product} (hm : Meaningful s.table p.tokens p.powers)
    (hv : Valued p.tokens) : ofTokens s p.tokens = p.eval s.table := by
  have hread := product_tokens s p false p.tokens.length [] (Nat.le_refl _) ⟨hm, hv⟩ rfl
  rw [List.append_nil] at hread
  rw [ofTokens, hread]
  cases p.eval s.table <;> rfl

/-- What is read is nothing at all or the tokens of a meaningful tree. -/
theorem isExpression_of_ofTokens (s : Scope) {ts : List Token} {q : Quantity}
    (h : ofTokens s ts = .ok q) : IsExpression s.table ts := by
  obtain ⟨⟨r, rest⟩, hread, h⟩ := bind_eq_ok h
  cases h
  rcases product_sound s _ (Nat.lt_succ_self _) hread with ⟨hts, -⟩ | ⟨p, hp, hm, hends⟩
  · exact Or.inl hts
  · have hrest : rest = [] := by
      cases rest with
      | nil => rfl
      | cons t rest => cases hends
    rw [hrest, List.append_nil] at hp
    rw [← hp] at hm
    exact Or.inr ⟨p, hp.symm, hm⟩

/-- A text that is read is cut into tokens. -/
theorem exists_lex_of_readUnit {table : UnitTable} {text : String} {q : Quantity}
    (h : readUnit table text = .ok q) :
    ∃ ts, Token.lex text = .ok ts ∧ ofTokens ⟨table, text⟩ ts = .ok q := by
  obtain ⟨ts, htokens, hread⟩ := bind_eq_ok h
  refine ⟨ts, ?_, hread⟩
  unfold Expression.tokens at htokens
  split at htokens
  · next hts => rwa [← Except.ok.inj htokens]
  · cases htokens

/-- What is read is the number one, for a text without tokens, or the value of a tree that derives
the text. -/
theorem exists_derivation {table : UnitTable} {text : String} {q : Quantity}
    (h : readUnit table text = .ok q) : ∃ p : Option Product, Derives text p ∧
      (p.map (Product.eval table)).getD (.ok .one) = .ok q := by
  obtain ⟨ts, hlex, hread⟩ := exists_lex_of_readUnit h
  rcases isExpression_of_ofTokens ⟨table, text⟩ hread with rfl | ⟨p, rfl, hp⟩
  · exact ⟨none, hlex, hread⟩
  · rw [ofTokens_product ⟨table, text⟩ hp (valued_lex hlex)] at hread
    exact ⟨some p, hlex, hread⟩

/-- The texts that are read are the unit expressions, and their derivations say what they stand for.
A text that is cut into tokens has at most one derivation; it is read as the quantity `q` exactly
when it has no tokens and `q` is the number one, or its derivation is meaningful and evaluates to
`q`; and unless the arithmetic of the quantities fails, all unit expressions are read and every
other text is refused with a fault of the expression. -/
theorem readUnit_iff_derivation (table : UnitTable) (text : String) (ts : List Token)
    (hlex : Token.lex text = .ok ts) :
    (∀ p p' : Product, p.tokens = ts → p'.tokens = ts → p = p') ∧
    (∀ q, readUnit table text = .ok q ↔ (ts = [] ∧ q = .one) ∨
      ∃ p : Product, p.tokens = ts ∧ Meaningful table ts p.powers ∧ p.eval table = .ok q) ∧
    ((∀ n, readUnit table text ≠ .error (.number n)) →
      (IsExpression table ts → ∃ q, readUnit table text = .ok q) ∧
      (¬ IsExpression table ts → ∃ e, readUnit table text = .error (.expression e))) := by
  have hread := readUnit_of_lex table hlex
  have hvalued := valued_lex hlex
  have hempty : ts = [] → readUnit table text = .ok .one := by
    rintro rfl
    rw [hread]
    rfl
  have htree : ∀ p : Product, p.tokens = ts → Meaningful table ts p.powers →
      readUnit table text = p.eval table := by
    rintro p rfl hm
    rw [hread]
    exact ofTokens_product ⟨table, text⟩ hm hvalued
  refine ⟨fun p p' hp hp' => Product.tokens_injective (hp.trans hp'.symm), fun q => ⟨?_, ?_⟩,
    fun hnumber => ⟨?_, ?_⟩⟩
  · intro h
    rcases isExpression_of_ofTokens ⟨table, text⟩ (hread ▸ h) with hnil | ⟨p, hp, hm⟩
    · rw [hempty hnil] at h
      cases h
      exact Or.inl ⟨hnil, rfl⟩
    · rw [htree p hp hm] at h
      exact Or.inr ⟨p, hp, hm, h⟩
  · rintro (⟨hnil, rfl⟩ | ⟨p, hp, hm, h⟩)
    · exact hempty hnil
    · rw [htree p hp hm, h]
  · rintro (hnil | ⟨p, hp, hm⟩)
    · exact ⟨_, hempty hnil⟩
    · have heval := htree p hp hm
      cases h : p.eval table with
      | ok q => exact ⟨q, heval.trans h⟩
      | error f =>
        obtain ⟨n, rfl⟩ := onlyFaults_product p (hp ▸ hm.resolves) f h
        exact absurd (heval.trans h) (hnumber n)
  · intro hno
    cases h : readUnit table text with
    | ok q => exact absurd (isExpression_of_ofTokens ⟨table, text⟩ (hread ▸ h)) hno
    | error f =>
      rcases onlyFaults_readUnit table hlex f h with ⟨e, rfl⟩ | ⟨n, rfl⟩
      · exact ⟨e, rfl⟩
      · exact absurd h (hnumber n)

/-- A table with a unit of length and one of time. -/
def motionTable : UnitTable :=
  (UnitTable.empty.insertUnit "m" ⟨.ratio 1, Dimension.base "L" none⟩).insertUnit "s"
    ⟨.ratio 1, Dimension.base "T" none⟩

/-- The tokens of `m/s²`. -/
def accelerationTokens : List Token :=
  [⟨.symbol, "m", 0, none⟩, ⟨.div, "/", 1, none⟩, ⟨.symbol, "s", 2, none⟩,
    ⟨.supinteger, "²", 3, some 2⟩]

theorem acceleration_isExpression : Token.lex "m/s²" = .ok accelerationTokens ∧
    (∀ n, readUnit motionTable "m/s²" ≠ .error (.number n)) ∧
    IsExpression motionTable accelerationTokens := by
  have hlex : Token.lex "m/s²" = .ok accelerationTokens := by decide +kernel
  have hok : (readUnit motionTable "m/s²").toBool = true := by decide +kernel
  have hnumber : ∀ n, readUnit motionTable "m/s²" ≠ .error (.number n) := by
    intro n h
    rw [h] at hok
    cases hok
  obtain ⟨-, -, hread⟩ := readUnit_iff_derivation motionTable "m/s²" accelerationTokens hlex
  refine ⟨hlex, hnumber, ?_⟩
  by_contra hno
  obtain ⟨e, he⟩ := (hread hnumber).2 hno
  rw [he] at hok
  cases hok

end Expression

end UnitCalculus
