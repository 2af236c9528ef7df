import UnitCalculus.Proofs.Magnitude.Ratio
import UnitCalculus.Proofs.UnitTable

/-! # Unit expressions as products of their symbols

However an expression is grouped and divided, its dimension is the product of the dimensions of its
symbols, each raised to the net exponent of the occurrence (`Weighs`, `powerSum`).  Where a table
holds nothing but integers, an expression without divisions and with natural exponents has the
product of the powers of those integers for its value, and no digit is lost (`Multiplies`,
`integerProduct`).  Both follow from what one exponent and one sign do to a value. -/

namespace UnitCalculus

open Dimension Expression Expression.Derivation

/-- All units and factors are integers. -/
structure UnitTable.Integral (t : UnitTable) : Prop where
  units : ∀ u ∈ t.units.entries, ∃ n, u.2.magnitude = .integer n
  factors : ∀ f ∈ t.factors.entries, ∃ n, f.2 = .integer n

namespace Expression.Derivation

variable {table : UnitTable}

/-! ### The quantities of the symbols -/

namespace Occurrence

/-- The quantity of the symbol, the number one if it stands for nothing. -/
def quantity (table : UnitTable) (o : Occurrence) : Quantity :=
  match table.lookup o.symbol.1.text with
  | .ok q => q
  | .error _ => .one

/-- The integer that the symbol stands for. -/
def integer (table : UnitTable) (o : Occurrence) : Int :=
  match (o.quantity table).magnitude with
  | .integer n => n
  | _ => 0

/-- The net exponent of a whole occurrence. -/
def count (o : Occurrence) : ℕ := o.net.num.toNat

theorem quantity_of_lookup {o : Occurrence} {q : Quantity}
    (h : table.lookup o.symbol.1.text = .ok q) : o.quantity table = q := by
  rw [quantity, h]

@[simp] theorem quantity_raise (e : Power) (o : Occurrence) :
    (o.raise e).quantity table = o.quantity table := rfl

@[simp] theorem quantity_under (s : Option Sign) (o : Occurrence) :
    (o.under s).quantity table = o.quantity table := by
  rw [quantity, quantity, symbol_under]

@[simp] theorem integer_raise (e : Power) (o : Occurrence) :
    (o.raise e).integer table = o.integer table := rfl

theorem prod_natural {es : List Power} (h : ∀ e ∈ es, ∃ n : ℕ, e.value = n) :
    ∃ n : ℕ, (es.map Power.value).prod = n := by
  induction es with
  | nil => exact ⟨1, by simp⟩
  | cons e es ih =>
    obtain ⟨m, hm⟩ := h e List.mem_cons_self
    obtain ⟨n, hn⟩ := ih fun f hf => h f (List.mem_cons_of_mem e hf)
    exact ⟨m * n, by rw [List.map_cons, List.prod_cons, hm, hn, Nat.cast_mul]⟩

theorem net_eq_count {o : Occurrence} (h : o.IsWhole) : o.net = o.count := by
  obtain ⟨n, hn⟩ := prod_natural h.natural
  have hnet : o.net = n := by rw [net, h.divisions, hn, pow_zero, one_mul]
  rw [count, hnet]
  simp

theorem count_raise {o : Occurrence} (h : o.IsWhole) {e : Power} {n : ℕ} (he : e.value = n) :
    (o.raise e).count = o.count * n := by
  have hraise : (o.raise e).IsWhole := isWhole_raise.mpr ⟨h, n, he⟩
  have hnet := net_raise e o
  rw [net_eq_count hraise, net_eq_count h, he] at hnet
  exact_mod_cast hnet

end Occurrence

open Occurrence

/-! ### Dimensions -/

/-- The powers of a symbol of dimension in the units, each times the net exponent, added up. -/
def powerSum (table : UnitTable) (os : List Occurrence) (s : String) : Rat :=
  (os.map fun o => o.net * (o.quantity table).dimension.powerOf s).sum

theorem powerSum_append (os os' : List Occurrence) (s : String) :
    powerSum table (os ++ os') s = powerSum table os s + powerSum table os' s := by
  rw [powerSum, List.map_append, List.sum_append, powerSum, powerSum]

theorem powerSum_raise (e : Power) (os : List Occurrence) (s : String) :
    powerSum table (os.map (Occurrence.raise e)) s = powerSum table os s * e.value := by
  induction os with
  | nil => simp [powerSum]
  | cons o os ih =>
    simp only [powerSum, List.map_cons, List.sum_cons, net_raise, quantity_raise] at ih ⊢
    rw [ih]
    ring

theorem powerSum_under_of_div {sign : Option Sign} (h : signOperator sign = .div)
    (os : List Occurrence) (s : String) :
    powerSum table (os.map (under sign)) s = -powerSum table os s := by
  induction os with
  | nil => simp [powerSum]
  | cons o os ih =>
    simp only [powerSum, List.map_cons, List.sum_cons, net_under_of_div h, quantity_under] at ih ⊢
    rw [ih]
    ring

/-- The symbols stand for quantities, and the dimension adds up their powers. -/
structure Weighs (table : UnitTable) (os : List Occurrence) (q : Quantity) : Prop where
  resolved : ∀ o ∈ os, table.lookup o.symbol.1.text = .ok (o.quantity table)
  canonical : Canonical q.dimension.factors
  powerOf : ∀ s, q.dimension.powerOf s = powerSum table os s

theorem weighs_one : Weighs table [] .one := ⟨by simp, canonical_nil, fun _ => rfl⟩

theorem yields_lookup_canonical (h : ∀ u ∈ table.units.entries, Built u.2.dimension)
    (symbol : String) :
    Yields (fun q : Quantity => Canonical q.dimension.factors) (table.lookup symbol) :=
  yields_lookup_of (fun u hu => (h u hu).canonical)
    (fun _ _ _ hq => (yields_any _).bind fun _ _ => yields_ok hq) symbol

theorem compositional_weighs (h : ∀ u ∈ table.units.entries, Built u.2.dimension) :
    Compositional table (Weighs table) where
  symbol t q hq := by
    have hquantity : (plain t).quantity table = q := quantity_of_lookup hq
    refine ⟨?_, yields_lookup_canonical h _ q hq, fun s => ?_⟩
    · intro o ho
      rw [List.mem_singleton.mp ho, hquantity]
      exact hq
    · simp [powerSum, net_plain, hquantity]
  pow os q e hq := by
    refine (yields_any _).bind fun m _ => yields_ok ⟨?_, hq.canonical.pow e.value, fun s => ?_⟩
    · intro o' ho'
      obtain ⟨o, ho, rfl⟩ := List.mem_map.mp ho'
      exact hq.resolved o ho
    · rw [powerOf_pow hq.canonical, hq.powerOf, powerSum_raise]
  sign sign os os' q r hq hr := by
    have hresolved : ∀ o ∈ os ++ os'.map (under sign),
        table.lookup o.symbol.1.text = .ok (o.quantity table) := by
      intro o ho
      rcases List.mem_append.mp ho with ho | ho
      · exact hq.resolved o ho
      · obtain ⟨o', ho', rfl⟩ := List.mem_map.mp ho
        rw [symbol_under, quantity_under]
        exact hr.resolved o' ho'
    rcases signOperator_eq sign with hs | hs
    · rw [hs]
      refine (yields_any _).bind fun m _ => yields_ok ⟨hresolved, hq.canonical.mul, fun s => ?_⟩
      rw [powerOf_mul hq.canonical hr.canonical, hq.powerOf, hr.powerOf, powerSum_append,
        under_of_mul hs, List.map_id]
    · rw [hs]
      refine (yields_any _).bind fun m _ => yields_ok ⟨hresolved, hq.canonical.mul, fun s => ?_⟩
      rw [powerOf_div hq.canonical hr.canonical, hq.powerOf, hr.powerOf, powerSum_append,
        powerSum_under_of_div hs, sub_eq_add_neg]

/-! ### Integers -/

/-- The integers of the symbols, each to the power of the net exponent, multiplied. -/
def integerProduct (table : UnitTable) (os : List Occurrence) : Int :=
  (os.map fun o => o.integer table ^ o.count).prod

theorem integerProduct_append (os os' : List Occurrence) :
    integerProduct table (os ++ os') = integerProduct table os * integerProduct table os' := by
  rw [integerProduct, List.map_append, List.prod_append, integerProduct, integerProduct]

theorem integerProduct_raise {os : List Occurrence} (h : ∀ o ∈ os, o.IsWhole) {e : Power} {n : ℕ}
    (he : e.value = n) :
    integerProduct table (os.map (Occurrence.raise e)) = integerProduct table os ^ n := by
  induction os with
  | nil => simp [integerProduct]
  | cons o os ih =>
    obtain ⟨ho, hos⟩ := List.forall_mem_cons.mp h
    have ih := ih hos
    simp only [integerProduct, List.map_cons, List.prod_cons, integer_raise, count_raise ho he]
      at ih ⊢
    rw [ih, mul_pow, pow_mul]

theorem evaluate_mul_integer (a b : Int) :
    Operator.mul.evaluate (.integer a) (.integer b) = .ok (.integer (a * b)) := rfl

theorem powerOfMagnitude_integer (a : Int) (n : ℕ) :
    Quantity.powerOfMagnitude (.integer a) (n : Rat) = .ok (.integer (a ^ n)) := by
  have hpow : Magnitude.pow (.integer a) (.integer n) =
      .ok (.integer (Magnitude.integerPow a n)) := by
    simp [Magnitude.pow, Magnitude.align, Magnitude.numeric, bind, Except.bind,
      Magnitude.Aligned.power]
  rw [Magnitude.integerPow_eq] at hpow
  simpa [Quantity.powerOfMagnitude] using hpow

/-- The symbols stand for integers, and if all are whole their powers multiply to the value. -/
structure Multiplies (table : UnitTable) (os : List Occurrence) (q : Quantity) : Prop where
  ne_nil : os ≠ []
  integer : ∀ o ∈ os, (o.quantity table).magnitude = .integer (o.integer table)
  magnitude : (∀ o ∈ os, o.IsWhole) → q.magnitude = .integer (integerProduct table os)

theorem yields_lookup_integer (h : table.Integral) (symbol : String) :
    Yields (fun q : Quantity => ∃ n, q.magnitude = .integer n) (table.lookup symbol) := by
  refine yields_lookup_of h.units (fun f hf q hq => ?_) symbol
  obtain ⟨m, hm⟩ := h.factors f hf
  obtain ⟨n, hn⟩ := hq
  simp only [Quantity.numberWith, hm, hn, evaluate_mul_integer]
  exact yields_ok ⟨m * n, rfl⟩

theorem integer_of_magnitude {o : Occurrence} {n : Int}
    (h : (o.quantity table).magnitude = .integer n) : o.integer table = n := by
  rw [Occurrence.integer, h]

theorem compositional_multiplies (h : table.Integral) :
    Compositional table (Multiplies table) where
  symbol t q hq := by
    have hquantity : (plain t).quantity table = q := quantity_of_lookup hq
    obtain ⟨n, hn⟩ := yields_lookup_integer h _ q hq
    have hinteger : (plain t).integer table = n := integer_of_magnitude (hquantity ▸ hn)
    refine ⟨List.cons_ne_nil _ _, ?_, fun _ => ?_⟩
    · intro o ho
      rw [List.mem_singleton.mp ho, hquantity, hinteger, hn]
    · simp [integerProduct, hinteger, count, net_plain, hn]
  pow os q e hq q' hq' := by
    obtain ⟨m, hm, hq'⟩ := bind_eq_ok hq'
    cases hq'
    refine ⟨fun hnil => hq.ne_nil (List.map_eq_nil_iff.mp hnil), ?_, fun hwhole => ?_⟩
    · intro o' ho'
      obtain ⟨o, ho, rfl⟩ := List.mem_map.mp ho'
      exact hq.integer o ho
    · have hos : ∀ o ∈ os, o.IsWhole ∧ ∃ n : ℕ, e.value = n := fun o ho =>
        isWhole_raise.mp (hwhole _ (List.mem_map_of_mem ho))
      obtain ⟨o, ho⟩ := List.exists_mem_of_ne_nil os hq.ne_nil
      obtain ⟨n, hn⟩ := (hos o ho).2
      have hq := hq.magnitude fun o ho => (hos o ho).1
      rw [hq, hn, powerOfMagnitude_integer] at hm
      cases hm
      rw [integerProduct_raise (fun o ho => (hos o ho).1) hn]
  sign sign os os' q r hq hr q' hq' := by
    have hinteger : ∀ o ∈ os ++ os'.map (under sign),
        (o.quantity table).magnitude = .integer (o.integer table) := by
      intro o ho
      rcases List.mem_append.mp ho with ho | ho
      · exact hq.integer o ho
      · obtain ⟨o', ho', rfl⟩ := List.mem_map.mp ho
        rw [Occurrence.integer, quantity_under]
        exact hr.integer o' ho'
    refine ⟨fun hnil => hq.ne_nil (List.append_eq_nil_iff.mp hnil).1, hinteger, fun hwhole => ?_⟩
    obtain ⟨hos, hos'⟩ := List.forall_mem_append.mp hwhole
    rcases signOperator_eq sign with hs | hs
    · rw [under_of_mul hs, List.map_id] at hos' ⊢
      rw [hs, Quantity.withQuantity, hq.magnitude hos, hr.magnitude hos'] at hq'
      cases hq'
      rw [integerProduct_append]
      rfl
    · -- a symbol on the right side of a division is not whole
      obtain ⟨o, ho⟩ := List.exists_mem_of_ne_nil os' hr.ne_nil
      have hdivisions := (hos' _ (List.mem_map_of_mem ho)).divisions
      rw [divisions_under_of_div hs] at hdivisions
      exact absurd hdivisions (Nat.succ_ne_zero _)

/-! ### Texts -/

/-- The occurrences in a text, which are none if it has no tokens. -/
def flattened (p : Option Product) : List Occurrence := (p.map Product.occurrences).getD []

theorem Product.tokens_ne_nil (p : Product) : p.tokens ≠ [] := by
  obtain ⟨first, more⟩ := p
  obtain ⟨t, ts, ht, -⟩ := first.exists_head
  rw [Product.tokens, ht]
  exact List.cons_ne_nil _ _

/-- A text has one derivation. -/
theorem eq_of_derives {text : String} {p p' : Option Product} (h : Derives text p)
    (h' : Derives text p') : p = p' := by
  have htokens := Except.ok.inj (h.symm.trans h')
  cases p with
  | none => cases p' with
    | none => rfl
    | some p' => exact absurd htokens.symm p'.tokens_ne_nil
  | some p => cases p' with
    | none => exact absurd htokens p.tokens_ne_nil
    | some p' => exact congrArg some (Product.tokens_injective htokens)

theorem symbols_flattened (p : Option Product) :
    (flattened p).map (·.symbol.1) = symbolsOf ((p.map Product.tokens).getD []) := by
  cases p with
  | none => rfl
  | some p => exact p.symbols

theorem isWhole_flattened {p : Option Product} (h : ∀ p' ∈ p, Monomial p'.signs p'.powers) :
    ∀ o ∈ flattened p, o.IsWhole := by
  cases p with
  | none => simp [flattened]
  | some p => exact p.isWhole (h p rfl)

/-- The number in front of a text multiplies its integer. -/
theorem read_integer {text whole : String} {q : Quantity} {n v : Int}
    (hq : readUnit table text = .ok q) (hv : q.magnitude = .integer v)
    (hwhole : NumberReader.integer.read whole = .ok (some (.integer n, text))) :
    read table .integer whole = .ok ⟨.integer (n * v), q.dimension⟩ := by
  rw [read, hwhole, ok_bind]
  dsimp only [Option.getD_some]
  split
  · next htext =>
    rw [beq_iff_eq.mp htext] at hq
    cases hq
    cases hv
    rw [mul_one]
    rfl
  · rw [hq, ok_bind, Quantity.numberWith, hv, evaluate_mul_integer]
    rfl

/-- Without a number in front, a text is read as the unit expression that it is. -/
theorem read_no_number {text : String} {q : Quantity} {v : Int}
    (hq : readUnit table text = .ok q) (hv : q.magnitude = .integer v)
    (htext : NumberReader.integer.read text = .ok none) : read table .integer text = .ok q := by
  rw [read, htext, ok_bind]
  dsimp only [Option.getD_none]
  split
  · next hempty =>
    rw [beq_iff_eq.mp hempty] at hq
    cases hq
    rfl
  · rw [hq, ok_bind, Quantity.numberWith, hv, evaluate_mul_integer, one_mul, ← hv]
    rfl

end Expression.Derivation

open Derivation.Occurrence

/-- What is read as a unit expression has a derivation, and the derivation is flattened into the
symbols of the text: the power of a symbol of dimension is the sum of its powers in their units,
each times the net exponent.  If all units and factors are integers, no sign is a division and the
exponents are natural numbers, the value is the product of the powers of the integers, and reading
the text with an integer in front multiplies by it. -/
theorem Expression.readUnit_flattens {table : UnitTable}
    (hunits : ∀ u ∈ table.units.entries, Built u.2.dimension) {text : String} {q : Quantity}
    (hq : readUnit table text = .ok q) :
    (∃ p, Derives text p) ∧
    ∀ p, Derives text p →
      (flattened p).map (·.symbol.1) = symbolsOf ((p.map Product.tokens).getD []) ∧
      (∀ o ∈ flattened p, table.lookup o.symbol.1.text = .ok (o.quantity table)) ∧
      (∀ s, q.dimension.powerOf s =
        ((flattened p).map fun o => o.net * (o.quantity table).dimension.powerOf s).sum) ∧
      (table.Integral → (∀ p' ∈ p, Monomial p'.signs p'.powers) →
        (∀ o ∈ flattened p, o.net = o.count ∧
          (o.quantity table).magnitude = .integer (o.integer table)) ∧
        ∃ v, v = ((flattened p).map fun o => o.integer table ^ o.count).prod ∧
          q.magnitude = .integer v ∧
          (∀ whole n, NumberReader.integer.read whole = .ok (some (.integer n, text)) →
            read table .integer whole = .ok ⟨.integer (n * v), q.dimension⟩) ∧
          (NumberReader.integer.read text = .ok none → read table .integer text = .ok q)) := by
  obtain ⟨p, hp, heval⟩ := exists_derivation hq
  refine ⟨⟨p, hp⟩, fun p' hp' => ?_⟩
  obtain rfl := eq_of_derives hp' hp
  have hweighs : Weighs table (flattened p') q := by
    cases p' with
    | none => exact Except.ok.inj heval ▸ weighs_one
    | some p => exact (compositional_weighs hunits).product p q heval
  refine ⟨symbols_flattened p', hweighs.resolved, hweighs.powerOf, fun hintegral hwhole => ?_⟩
  have hwhole := isWhole_flattened hwhole
  have hinteger : (∀ o ∈ flattened p', (o.quantity table).magnitude = .integer (o.integer table)) ∧
      q.magnitude = .integer (integerProduct table (flattened p')) := by
    cases p' with
    | none =>
      cases heval
      exact ⟨by simp [flattened], rfl⟩
    | some p =>
      have hmultiplies := (compositional_multiplies hintegral).product p q heval
      exact ⟨hmultiplies.integer, hmultiplies.magnitude hwhole⟩
  refine ⟨fun o ho => ⟨net_eq_count (hwhole o ho), hinteger.1 o ho⟩, _, rfl, hinteger.2, ?_, ?_⟩
  · exact fun whole n h => read_integer hq hinteger.2 h
  · exact fun h => read_no_number hq hinteger.2 h

/-- A table of integers: a metre, a minute and a dozen, with the factor one thousand. -/
def clockTable : UnitTable :=
  (((UnitTable.empty.insertUnit "m" ⟨.integer 1, base "L" (some 0)⟩).insertUnit "min"
    ⟨.integer 60, base "T" (some 2)⟩).insertUnit "dozen" ⟨.integer 12, .one⟩).insertFactor "k"
    (.integer 1000)

/-- The tree of `km(dozen.min²)³`. -/
def clockTree : Product :=
  .mk (.mk (.symbol ⟨⟨.symbol, "km", 0, none⟩, rfl⟩) none)
    (.cons none
      (.mk
        (.group ⟨⟨.lparen, "(", 2, none⟩, rfl⟩
          (.mk (.mk (.symbol ⟨⟨.symbol, "dozen", 3, none⟩, rfl⟩) none)
            (.cons (some (.times ⟨⟨.mul, ".", 8, none⟩, rfl⟩))
              (.mk (.symbol ⟨⟨.symbol, "min", 9, none⟩, rfl⟩)
                (some ⟨.superscript ⟨⟨.supinteger, "²", 12, some 2⟩, rfl⟩, none⟩))
              .nil))
          ⟨⟨.rparen, ")", 13, none⟩, rfl⟩)
        (some ⟨.superscript ⟨⟨.supinteger, "³", 14, some 3⟩, rfl⟩, none⟩))
      .nil)

theorem clockTable_entries : clockTable.units.entries =
    [("m", ⟨.integer 1, base "L" (some 0)⟩), ("min", ⟨.integer 60, base "T" (some 2)⟩),
      ("dozen", ⟨.integer 12, .one⟩)] ∧ clockTable.factors.entries = [("k", .integer 1000)] := by
  decide +kernel

theorem built_clockTable : ∀ u ∈ clockTable.units.entries, Built u.2.dimension := by
  rw [clockTable_entries.1]
  simp only [List.forall_mem_cons, List.not_mem_nil, false_implies, implies_true, and_true]
  exact ⟨.base _ _, .base _ _, .ofFactors []⟩

theorem integral_clockTable : clockTable.Integral := by
  constructor
  · rw [clockTable_entries.1]
    simp
  · rw [clockTable_entries.2]
    simp

theorem monomial_clockTree : Monomial clockTree.signs clockTree.powers := by
  constructor
  · simp [clockTree, Product.signs, Powered.signs, Tail.signs, Atom.signs, signOperator]
  · simp only [clockTree, Product.powers, Powered.powers, Tail.powers, Atom.powers]
    simp only [Option.toList_none, Option.toList_some, List.nil_append, List.append_nil,
      List.cons_append, List.forall_mem_cons, List.not_mem_nil, false_implies, implies_true,
      and_true]
    exact ⟨⟨2, by decide +kernel⟩, ⟨3, by decide +kernel⟩⟩

theorem Expression.readUnit_flattens_clock :
    (∀ u ∈ clockTable.units.entries, Built u.2.dimension) ∧
      ∃ q, readUnit clockTable "km(dozen.min²)³" = .ok q ∧
        Derives "km(dozen.min²)³" (some clockTree) ∧ q.dimension.powerOf "T" = 6 ∧
        clockTable.Integral ∧ Monomial clockTree.signs clockTree.powers ∧
        read clockTable .integer "-7km(dozen.min²)³" =
          .ok ⟨.integer (-7 * (1000 * (12 ^ 3 * 60 ^ 6))), q.dimension⟩ := by
  have hderives : Derives "km(dozen.min²)³" (some clockTree) := by
    unfold Derives
    decide +kernel
  have hok : (readUnit clockTable "km(dozen.min²)³").toBool = true := by decide +kernel
  cases hq : readUnit clockTable "km(dozen.min²)³" with
  | error f =>
    rw [hq] at hok
    cases hok
  | ok q =>
    obtain ⟨-, -, hpower, hvalue⟩ := (readUnit_flattens built_clockTable hq).2 _ hderives
    obtain ⟨-, v, hv, -, hread, -⟩ := hvalue integral_clockTable (by simpa using monomial_clockTree)
    have hproduct : v = 1000 * (12 ^ 3 * 60 ^ 6) := hv.trans (by decide +kernel)
    refine ⟨built_clockTable, q, rfl, hderives, (hpower "T").trans (by decide +kernel),
      integral_clockTable, monomial_clockTree, ?_⟩
    rw [← hproduct]
    exact hread _ _ (by decide +kernel)

end UnitCalculus
