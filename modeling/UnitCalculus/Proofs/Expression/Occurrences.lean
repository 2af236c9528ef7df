import Mathlib.Algebra.BigOperators.Group.List.Basic
import Mathlib.Algebra.Order.Ring.Rat
import Mathlib.Tactic.Ring
import UnitCalculus.Proofs.Expression.Derivation
import UnitCalculus.Proofs.Outcome

/-! # The symbols of a tree

A tree is flattened into the occurrences of its symbols, in the order of the text
(`Product.symbols`).  An occurrence keeps the exponents after it and after the groups around it, and
counts the divisions whose right side it belongs to; from these comes its net exponent.

What holds of every symbol and is kept by exponents and signs holds of every tree
(`Compositional.product`); this is the induction that later results about values of trees use. -/

namespace UnitCalculus.Expression.Derivation

/-! ### Occurrences -/

/-- A symbol at its place in a tree. -/
structure Occurrence where
  symbol : Terminal .symbol
  /-- The exponents after the symbol and after the groups around it, from the inside out. -/
  exponents : List Power
  /-- How many divisions have the symbol on their right side. -/
  divisions : Nat

namespace Occurrence

/-- A symbol with nothing around it. -/
def plain (t : Terminal .symbol) : Occurrence := ⟨t, [], 0⟩

/-- The occurrence with one more exponent after the groups around it. -/
def raise (e : Power) (o : Occurrence) : Occurrence :=
  { o with exponents := o.exponents ++ [e] }

/-- The occurrence on the right side of a sign, or of none. -/
def under : Option Sign → Occurrence → Occurrence
  | some (.over _), o => { o with divisions := o.divisions + 1 }
  | _, o => o

/-- The product of the exponents, negated once for every division. -/
def net (o : Occurrence) : Rat :=
  (-1) ^ o.divisions * (o.exponents.map Power.value).prod

theorem net_plain (t : Terminal .symbol) : (plain t).net = 1 := by simp [net, plain]

theorem net_raise (e : Power) (o : Occurrence) : (o.raise e).net = o.net * e.value := by
  simp [net, raise, mul_assoc]

theorem under_of_mul {s : Option Sign} (h : signOperator s = .mul) : under s = id := by
  rcases s with _ | ⟨t | t⟩
  · rfl
  · rfl
  · cases h

theorem divisions_under_of_div {s : Option Sign} (h : signOperator s = .div) (o : Occurrence) :
    (o.under s).divisions = o.divisions + 1 := by
  rcases s with _ | ⟨t | t⟩
  · cases h
  · cases h
  · rfl

@[simp] theorem exponents_under (s : Option Sign) (o : Occurrence) :
    (o.under s).exponents = o.exponents := by
  rcases s with _ | ⟨t | t⟩ <;> rfl

theorem net_under_of_div {s : Option Sign} (h : signOperator s = .div) (o : Occurrence) :
    (o.under s).net = -o.net := by
  rw [net, net, divisions_under_of_div h, exponents_under, pow_succ]
  ring

@[simp] theorem symbol_raise (e : Power) (o : Occurrence) : (o.raise e).symbol = o.symbol := rfl

@[simp] theorem symbol_under (s : Option Sign) (o : Occurrence) :
    (o.under s).symbol = o.symbol := by
  rcases s with _ | ⟨t | t⟩ <;> rfl

end Occurrence

open Occurrence

mutual

/-- The occurrences in a tree, in the order of the text. -/
def Atom.occurrences : Atom → List Occurrence
  | .symbol t => [plain t]
  | .group _ p _ => p.occurrences

def Powered.occurrences : Powered → List Occurrence
  | .mk a none => a.occurrences
  | .mk a (some e) => a.occurrences.map (raise e)

def Product.occurrences : Product → List Occurrence
  | .mk first more => first.occurrences ++ more.occurrences

def Tail.occurrences : Tail → List Occurrence
  | .nil => []
  | .cons sign f more => f.occurrences.map (under sign) ++ more.occurrences

end

/-! ### The symbols among the tokens -/

/-- The tokens that are symbols. -/
def symbolsOf (ts : List Token) : List Token := ts.filter (·.kind = .symbol)

theorem symbolsOf_append (ts us : List Token) :
    symbolsOf (ts ++ us) = symbolsOf ts ++ symbolsOf us :=
  List.filter_append ..

theorem symbolsOf_eq_nil {ts : List Token} (h : ∀ t ∈ ts, t.kind ≠ .symbol) : symbolsOf ts = [] :=
  List.filter_eq_nil_iff.mpr (by simpa using h)

mutual

theorem Atom.symbols :
    ∀ a : Atom, a.occurrences.map (·.symbol.1) = symbolsOf a.tokens
  | .symbol t => by
      rw [Atom.occurrences, Atom.tokens]
      simp [plain, symbolsOf, t.2]
  | .group l p r => by
      have hl : symbolsOf [l.1] = [] := symbolsOf_eq_nil (by simp [l.2])
      have hr : symbolsOf [r.1] = [] := symbolsOf_eq_nil (by simp [r.2])
      rw [Atom.occurrences, Atom.tokens, p.symbols, ← List.singleton_append, symbolsOf_append,
        symbolsOf_append, hl, hr, List.nil_append, List.append_nil]

theorem Powered.symbols :
    ∀ f : Powered, f.occurrences.map (·.symbol.1) = symbolsOf f.tokens
  | .mk a none => by
      rw [Powered.occurrences, Powered.tokens, symbolsOf_append, a.symbols]
      simp [powerTokens, symbolsOf]
  | .mk a (some e) => by
      have he : symbolsOf (powerTokens (some e)) = [] :=
        symbolsOf_eq_nil fun t ht => ne_symbol_of_mem_powerTokens ht
      rw [Powered.occurrences, Powered.tokens, symbolsOf_append, he, List.append_nil, ← a.symbols]
      simp

/-- The occurrences are the symbols of the text, in its order. -/
theorem Product.symbols :
    ∀ p : Product, p.occurrences.map (·.symbol.1) = symbolsOf p.tokens
  | .mk first more => by
      rw [Product.occurrences, Product.tokens, List.map_append, symbolsOf_append, first.symbols,
        more.symbols]

theorem Tail.symbols :
    ∀ m : Tail, m.occurrences.map (·.symbol.1) = symbolsOf m.tokens
  | .nil => by
      rw [Tail.occurrences, Tail.tokens]
      rfl
  | .cons sign f more => by
      have hs : symbolsOf (signTokens sign) = [] :=
        symbolsOf_eq_nil fun t ht => ne_symbol_of_mem_signTokens ht
      rw [Tail.occurrences, Tail.tokens, symbolsOf_append, symbolsOf_append, hs, List.nil_append,
        List.map_append, more.symbols, ← f.symbols]
      simp

end

/-! ### Induction over the value of a tree -/

/-- The relation holds of every symbol with its quantity, and exponents and signs keep it. -/
structure Compositional (table : UnitTable) (R : List Occurrence → Quantity → Prop) : Prop where
  symbol : ∀ t : Terminal .symbol, Yields (R [plain t]) (table.lookup t.1.text)
  pow : ∀ os q e, R os q → Yields (R (os.map (raise e))) (q.pow e.value)
  sign : ∀ s os os' q r, R os q → R os' r →
    Yields (R (os ++ os'.map (under s))) (q.withQuantity (signOperator s) r)

namespace Compositional

variable {table : UnitTable} {R : List Occurrence → Quantity → Prop}

mutual

theorem atom (h : Compositional table R) :
    ∀ a : Atom, Yields (R a.occurrences) (a.eval table)
  | .symbol t => by
      rw [Atom.eval, Atom.occurrences]
      exact h.symbol t
  | .group l p r => by
      rw [Atom.eval, Atom.occurrences]
      exact h.product p

theorem powered (h : Compositional table R) :
    ∀ f : Powered, Yields (R f.occurrences) (f.eval table)
  | .mk a none => by
      rw [Powered.eval, Powered.occurrences]
      exact h.atom a
  | .mk a (some e) => by
      rw [Powered.eval, Powered.occurrences]
      exact (h.atom a).bind fun q hq => h.pow _ q e hq

/-- The relation holds of every tree with its value. -/
theorem product (h : Compositional table R) :
    ∀ p : Product, Yields (R p.occurrences) (p.eval table)
  | .mk first more => by
      rw [Product.eval, Product.occurrences]
      exact (h.powered first).bind fun q hq => h.tail more _ q hq

/-- The factors before the tail are in `q`, whose occurrences are `os`. -/
theorem tail (h : Compositional table R) : ∀ (m : Tail) (os : List Occurrence) (q : Quantity),
    R os q → Yields (R (os ++ m.occurrences)) (m.evalFrom table q)
  | .nil, os, q, hq => by
      rw [Tail.evalFrom, Tail.occurrences, List.append_nil]
      exact yields_ok hq
  | .cons s f more, os, q, hq => by
      rw [Tail.evalFrom, Tail.occurrences, ← List.append_assoc]
      exact (h.powered f).bind fun r hr =>
        (h.sign s os _ q r hq hr).bind fun q' hq' => h.tail more _ q' hq'

end

end Compositional

/-! ### Trees without divisions -/

mutual

/-- The signs between the factors of a tree. -/
def Atom.signs : Atom → List Sign
  | .symbol _ => []
  | .group _ p _ => p.signs

def Powered.signs : Powered → List Sign
  | .mk a _ => a.signs

def Product.signs : Product → List Sign
  | .mk first more => first.signs ++ more.signs

def Tail.signs : Tail → List Sign
  | .nil => []
  | .cons sign f more => sign.toList ++ (f.signs ++ more.signs)

end

/-- There are no divisions among the signs, and the exponents are natural numbers. -/
structure Monomial (signs : List Sign) (powers : List Power) : Prop where
  times : ∀ s ∈ signs, signOperator (some s) = .mul
  natural : ∀ e ∈ powers, ∃ n : ℕ, e.value = n

theorem Monomial.append {signs signs' : List Sign} {powers powers' : List Power}
    (h : Monomial (signs ++ signs') (powers ++ powers')) :
    Monomial signs powers ∧ Monomial signs' powers' :=
  ⟨⟨fun s hs => h.times s (List.mem_append_left _ hs),
    fun e he => h.natural e (List.mem_append_left _ he)⟩,
    ⟨fun s hs => h.times s (List.mem_append_right _ hs),
    fun e he => h.natural e (List.mem_append_right _ he)⟩⟩

/-- The symbol is in no divisor, and the exponents around it are natural numbers. -/
structure Occurrence.IsWhole (o : Occurrence) : Prop where
  divisions : o.divisions = 0
  natural : ∀ e ∈ o.exponents, ∃ n : ℕ, e.value = n

theorem Occurrence.isWhole_raise {e : Power} {o : Occurrence} :
    (o.raise e).IsWhole ↔ o.IsWhole ∧ ∃ n : ℕ, e.value = n := by
  constructor
  · rintro ⟨hd, hn⟩
    exact ⟨⟨hd, fun f hf => hn f (List.mem_append_left _ hf)⟩,
      hn e (List.mem_append_right _ (List.mem_singleton_self e))⟩
  · rintro ⟨⟨hd, hn⟩, he⟩
    refine ⟨hd, fun f hf => ?_⟩
    rcases List.mem_append.mp hf with hf | hf
    · exact hn f hf
    · rwa [List.mem_singleton.mp hf]

mutual

theorem Atom.isWhole : ∀ a : Atom, Monomial a.signs a.powers → ∀ o ∈ a.occurrences, o.IsWhole
  | .symbol t, _, o, ho => by
      rw [Atom.occurrences, List.mem_singleton] at ho
      rw [ho]
      exact ⟨rfl, by simp [plain]⟩
  | .group l p r, h, o, ho => by
      rw [Atom.occurrences] at ho
      rw [Atom.signs, Atom.powers] at h
      exact p.isWhole h o ho

theorem Powered.isWhole : ∀ f : Powered, Monomial f.signs f.powers → ∀ o ∈ f.occurrences, o.IsWhole
  | .mk a none, h, o, ho => by
      rw [Powered.occurrences] at ho
      rw [Powered.signs, Powered.powers, Option.toList_none, List.append_nil] at h
      exact a.isWhole h o ho
  | .mk a (some e), h, o, ho => by
      rw [Powered.signs, Powered.powers, ← List.append_nil a.signs] at h
      rw [Powered.occurrences] at ho
      obtain ⟨o', ho', rfl⟩ := List.mem_map.mp ho
      exact isWhole_raise.mpr ⟨a.isWhole h.append.1 o' ho', h.append.2.natural e (by simp)⟩

/-- In a tree without divisions that has natural exponents, all symbols are whole. -/
theorem Product.isWhole : ∀ p : Product, Monomial p.signs p.powers → ∀ o ∈ p.occurrences, o.IsWhole
  | .mk first more, h, o, ho => by
      rw [Product.signs, Product.powers] at h
      rw [Product.occurrences] at ho
      rcases List.mem_append.mp ho with ho | ho
      · exact first.isWhole h.append.1 o ho
      · exact more.isWhole h.append.2 o ho

theorem Tail.isWhole : ∀ m : Tail, Monomial m.signs m.powers → ∀ o ∈ m.occurrences, o.IsWhole
  | .nil, _, o, ho => by
      rw [Tail.occurrences] at ho
      cases ho
  | .cons s f more, h, o, ho => by
      rw [Tail.signs, Tail.powers, ← List.nil_append (f.powers ++ more.powers)] at h
      have hs : signOperator s = .mul := by
        cases s with
        | none => rfl
        | some s => exact h.append.1.times s (by simp)
      rw [Tail.occurrences, under_of_mul hs, List.map_id] at ho
      rcases List.mem_append.mp ho with ho | ho
      · exact f.isWhole h.append.2.append.1 o ho
      · exact more.isWhole h.append.2.append.2 o ho

end

end UnitCalculus.Expression.Derivation
