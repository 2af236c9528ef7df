import Mathlib.Data.List.Chain
import UnitCalculus.Proofs.Expression.Derivation

/-! # Neighbouring tokens of an expression

Which kinds of tokens may stand next to each other in what a tree derives (`mayFollow`), with which
kinds it starts and with which it ends.  A list of tokens that is put together from such lists is
one itself if the ends that meet may (`Linked.append`); so every tree derives one
(`Product.linked`). -/

namespace UnitCalculus.Expression.Derivation

/-- Whether a factor may start with a token of the kind. -/
def opens : TokenKind → Bool
  | .symbol | .lparen => true
  | _ => false

/-- Whether a factor may end with a token of the kind. -/
def closes : TokenKind → Bool
  | .symbol | .rparen | .integer | .supinteger => true
  | _ => false

/-- Whether a token of the second kind may come right after one of the first. -/
def mayFollow : TokenKind → TokenKind → Bool
  | .exp, k => k == .integer
  | .div, k => opens k || k == .integer
  | .mul, k | .lparen, k => opens k
  | .symbol, k | .rparen, k => k != .integer
  | .integer, k | .supinteger, k => k != .integer && k != .supinteger && k != .exp

theorem starts_iff {t : Token} : Starts t ↔ opens t.kind = true := by
  unfold Starts
  cases t.kind <;> simp [opens]

/-- Neighbours may stand next to each other, and the first and the last token are of given kinds. -/
structure Linked (first last : TokenKind → Bool) (ts : List Token) : Prop where
  chain : ts.IsChain fun t u => mayFollow t.kind u.kind = true
  head : ∃ t ∈ ts.head?, first t.kind = true
  getLast : ∃ t ∈ ts.getLast?, last t.kind = true

section linked

variable {first last first' last' : TokenKind → Bool} {ts us : List Token} {t : Token}

theorem linked_singleton (hfirst : first t.kind = true) (hlast : last t.kind = true) :
    Linked first last [t] :=
  ⟨List.isChain_singleton t, ⟨t, rfl, hfirst⟩, ⟨t, rfl, hlast⟩⟩

theorem Linked.append (h : Linked first last ts) (h' : Linked first' last' us)
    (hmeet : ∀ k k', last k = true → first' k' = true → mayFollow k k' = true) :
    Linked first last' (ts ++ us) := by
  obtain ⟨t, ht, hfirst⟩ := h.head
  obtain ⟨u, hu, hlast⟩ := h.getLast
  obtain ⟨v, hv, hfirst'⟩ := h'.head
  obtain ⟨w, hw, hlast'⟩ := h'.getLast
  refine ⟨List.isChain_append.mpr ⟨h.chain, h'.chain, ?_⟩, ⟨t, ?_, hfirst⟩, ⟨w, ?_, hlast'⟩⟩
  · intro x hx y hy
    rw [Option.mem_unique hx hu, Option.mem_unique hy hv]
    exact hmeet _ _ hlast hfirst'
  · rw [List.head?_append_of_ne_nil _ (List.ne_nil_of_mem (List.mem_of_mem_head? ht))]
    exact ht
  · rw [List.getLast?_append_of_ne_nil _ (List.ne_nil_of_mem (List.mem_of_getLast? hw))]
    exact hw

theorem Linked.mono (h : Linked first last ts)
    (hfirst : ∀ k, first k = true → first' k = true) (hlast : ∀ k, last k = true → last' k = true) :
    Linked first' last' ts := by
  obtain ⟨t, ht, hft⟩ := h.head
  obtain ⟨u, hu, hlu⟩ := h.getLast
  exact ⟨h.chain, ⟨t, ht, hfirst _ hft⟩, ⟨u, hu, hlast _ hlu⟩⟩

/-- What comes before a token may stand before it. -/
theorem Linked.previous (h : Linked first last (ts ++ t :: us)) {u : Token} (hu : u ∈ ts.getLast?) :
    mayFollow u.kind t.kind = true :=
  (List.isChain_append.mp h.chain).2.2 u hu t rfl

/-- What comes after a token may stand after it. -/
theorem Linked.next (h : Linked first last (ts ++ t :: us)) {u : Token} (hu : u ∈ us.head?) :
    mayFollow t.kind u.kind = true := by
  obtain ⟨us, rfl⟩ := List.head?_eq_some_iff.mp hu
  exact (List.isChain_cons_cons.mp (List.isChain_append.mp h.chain).2.1).1

/-- There are tokens before and after one that can be neither the first nor the last. -/
theorem Linked.exists_neighbours (h : Linked first last (ts ++ t :: us))
    (hfirst : first t.kind = false) (hlast : last t.kind = false) :
    (∃ x, x ∈ ts.getLast?) ∧ ∃ y, y ∈ us.head? := by
  constructor
  · rcases List.eq_nil_or_concat ts with rfl | ⟨ts', x, rfl⟩
    · obtain ⟨x, hx, hx'⟩ := h.head
      cases hx
      rw [hfirst] at hx'
      cases hx'
    · exact ⟨x, by simp⟩
  · cases us with
    | nil =>
      obtain ⟨y, hy, hy'⟩ := h.getLast
      rw [List.getLast?_append_of_ne_nil _ (List.cons_ne_nil t []), List.getLast?_singleton] at hy
      cases hy
      rw [hlast] at hy'
      cases hy'
    | cons y us => exact ⟨y, rfl⟩

end linked

/-! ### The tokens of a tree -/

/-- Whether an atom may end with a token of the kind. -/
def closesAtom : TokenKind → Bool
  | .symbol | .rparen => true
  | _ => false

/-- Whether an exponent may start with a token of the kind. -/
def opensPower : TokenKind → Bool
  | .exp | .supinteger => true
  | _ => false

/-- Whether an exponent may end with a token of the kind. -/
def closesPower : TokenKind → Bool
  | .integer | .supinteger => true
  | _ => false

/-- Whether the rest of a product may start with a token of the kind. -/
def opensTail : TokenKind → Bool
  | .mul | .div | .symbol | .lparen => true
  | _ => false

theorem Power.linked (e : Power) : Linked opensPower closesPower e.tokens := by
  obtain ⟨n, d⟩ := e
  have hnumerator : Linked opensPower closesPower n.tokens := by
    rcases n with ⟨hat, i⟩ | i
    · have hhat : Linked opensPower (· == .exp) [hat.1] :=
        linked_singleton (by simp [hat.2, opensPower]) (by simp [hat.2])
      have hinteger : Linked (· == .integer) closesPower [i.1] :=
        linked_singleton (by simp [i.2]) (by simp [i.2, closesPower])
      exact hhat.append hinteger (by simp [mayFollow])
    · exact linked_singleton (by simp [i.2, opensPower]) (by simp [i.2, closesPower])
  cases d with
  | none => simpa [Power.tokens] using hnumerator
  | some d =>
    have hslash : Linked (· == .div) (· == .div) [d.slash.1] :=
      linked_singleton (by simp [d.slash.2]) (by simp [d.slash.2])
    have hinteger : Linked (· == .integer) closesPower [d.n.1] :=
      linked_singleton (by simp [d.n.2]) (by simp [d.n.2, closesPower])
    have hdenominator := hslash.append hinteger (by simp [mayFollow])
    refine hnumerator.append hdenominator fun k k' hk hk' => ?_
    rw [beq_iff_eq.mp hk']
    revert hk
    cases k <;> decide

theorem signTokens_linked (s : Option Sign) :
    signTokens s = [] ∨ Linked opensTail (fun k => k == .mul || k == .div) (signTokens s) := by
  rcases s with _ | ⟨m | d⟩
  · exact .inl rfl
  · exact .inr (linked_singleton (by simp [Sign.token, m.2, opensTail]) (by simp [Sign.token, m.2]))
  · exact .inr (linked_singleton (by simp [Sign.token, d.2, opensTail]) (by simp [Sign.token, d.2]))

mutual

theorem Atom.linked : ∀ a : Atom, Linked opens closesAtom a.tokens
  | .symbol t => by
      rw [Atom.tokens]
      exact linked_singleton (by simp [t.2, opens]) (by simp [t.2, closesAtom])
  | .group l p r => by
      have hleft : Linked opens (· == .lparen) [l.1] :=
        linked_singleton (by simp [l.2, opens]) (by simp [l.2])
      have hright : Linked (· == .rparen) closesAtom [r.1] :=
        linked_singleton (by simp [r.2]) (by simp [r.2, closesAtom])
      rw [Atom.tokens]
      refine hleft.append (p.linked.append hright ?_) ?_
      · intro k k' hk hk'
        rw [beq_iff_eq.mp hk']
        revert hk
        cases k <;> decide
      · intro k k' hk hk'
        rw [beq_iff_eq.mp hk]
        exact hk'

theorem Powered.linked : ∀ f : Powered, Linked opens closes f.tokens
  | .mk a none => by
      rw [Powered.tokens]
      have hatom : Linked opens closes a.tokens :=
        a.linked.mono (fun _ => id) (fun k => by cases k <;> decide)
      simpa [powerTokens] using hatom
  | .mk a (some e) => by
      rw [Powered.tokens]
      refine (a.linked.append e.linked ?_).mono (fun _ => id) (fun k => by cases k <;> decide)
      intro k k'
      cases k <;> cases k' <;> decide

/-- Neighbours in what a tree derives may stand next to each other. -/
theorem Product.linked : ∀ p : Product, Linked opens closes p.tokens
  | .mk f m => by
      rw [Product.tokens]
      rcases m.linked with hm | hm
      · rw [hm, List.append_nil]
        exact f.linked
      · refine f.linked.append hm fun k k' => ?_
        cases k <;> cases k' <;> decide

theorem Tail.linked : ∀ m : Tail, m.tokens = [] ∨ Linked opensTail closes m.tokens
  | .nil => .inl (by rw [Tail.tokens])
  | .cons s f m => by
      right
      have hrest : Linked opens closes (f.tokens ++ m.tokens) := by
        rcases m.linked with hm | hm
        · rw [hm, List.append_nil]
          exact f.linked
        · refine f.linked.append hm fun k k' => ?_
          cases k <;> cases k' <;> decide
      rw [Tail.tokens]
      rcases signTokens_linked s with hs | hs
      · rw [hs, List.nil_append]
        exact hrest.mono (fun k => by cases k <;> decide) (fun _ => id)
      · refine hs.append hrest fun k k' => ?_
        cases k <;> cases k' <;> decide

end

end UnitCalculus.Expression.Derivation
