import Mathlib.Algebra.Order.Ring.Unbundled.Rat
import UnitCalculus.Proofs.Outcome
import UnitCalculus.Magnitude.Order

/-! # The sides of a comparison

A relation between two magnitudes holds exactly when the swapped relation holds between them the
other way round, and the comparison fails alike (`relate_swap`). -/

namespace UnitCalculus

theorem Relation.holds_swap (r : Relation) (o : Option Ordering) :
    r.swap.holds (o.map Ordering.swap) = r.holds o := by
  cases r <;> rcases o with _ | o <;> try cases o
  all_goals rfl

theorem Extended.map_swap_order? (x y : Extended) :
    (x.order? y).map Ordering.swap = y.order? x := by
  cases x with
  | undefined => cases y <;> rfl
  | infinite a =>
    cases y with
    | infinite b => cases a <;> cases b <;> rfl
    | finite q => cases a <;> rfl
    | undefined => rfl
  | finite p =>
    cases y with
    | infinite b => cases b <;> rfl
    | undefined => rfl
    | finite q =>
      rcases lt_trichotomy p q with h | rfl | h
      · simp [order?, h, h.asymm]
      · simp [order?]
      · simp [order?, h, h.asymm]

theorem Extended.holds_order?_swap (r : Relation) (x y : Extended) :
    r.swap.holds (y.order? x) = r.holds (x.order? y) := by
  rw [← map_swap_order?, Relation.holds_swap]

namespace Magnitude

/-! ### Single numbers -/

/-- Two computations that have one fault at most may be run in either order. -/
theorem bind_swap {α β γ ε : Type} {x : Except ε α} {y : Except ε β} {e : ε}
    (hx : ∀ f, x = .error f → f = e) (hy : ∀ f, y = .error f → f = e) (k : α → β → Except ε γ) :
    (y >>= fun b => x >>= fun a => k a b) = x >>= fun a => y >>= fun b => k a b := by
  cases x with
  | ok a => cases y <;> rfl
  | error f =>
    cases y with
    | ok b => rfl
    | error g =>
      rw [hx f rfl, hy g rfl]
      rfl

theorem exact_error (m : Magnitude) (f : NumberFault) (h : m.exact = .error f) :
    f = .unsupported := by
  cases m <;> cases h <;> rfl

/-- A complex number has its parts whatever it is compared with. -/
theorem exists_partsBeside {m : Magnitude} (h : m.isComplex = true) (other : Magnitude) :
    ∃ p, m.partsBeside other = .ok p := by
  cases m
  case complex | uncheckedComplex => exact ⟨_, rfl⟩
  all_goals cases h

theorem order_swap (a b : Magnitude) : (Option.map Ordering.swap) <$> a.order b = b.order a := by
  have hexact : (Option.map Ordering.swap) <$> (do return (← a.exact).order? (← b.exact)) =
      (do return (← b.exact).order? (← a.exact) : Except NumberFault (Option Ordering)) := by
    rw [bind_swap (exact_error a) (exact_error b) fun x y => return y.order? x]
    simp only [map_bind, map_pure, Extended.map_swap_order?]
  -- Only an integer beside an unchecked number has to be rounded, which may fail.
  cases a <;> cases b
  all_goals first
    | exact hexact
    | exact congrArg Except.ok (Extended.map_swap_order? _ _)
    | simp only [order, map_bind, map_pure, Extended.map_swap_order?]

theorem equalParts_comm (a b : Extended × Extended) : equalParts b a = equalParts a b :=
  congrArg₂ and (Extended.holds_order?_swap .eq a.1 b.1) (Extended.holds_order?_swap .eq a.2 b.2)

theorem relateNumbers_swap (r : Relation) (a b : Magnitude) :
    relateNumbers r.swap b a = relateNumbers r a b := by
  have horder : (do return truth (r.swap.holds (← order b a))) =
      (do return truth (r.holds (← order a b)) : Except NumberFault Magnitude) := by
    rw [← order_swap]
    simp only [bind_map_left, Relation.holds_swap]
  have hparts (h : (a.isComplex || b.isComplex) = true) : (do
        let same := equalParts (← b.partsBeside a) (← a.partsBeside b)
        return truth (if r == .eq then same else !same)) = (do
        let same := equalParts (← a.partsBeside b) (← b.partsBeside a)
        return truth (if r == .eq then same else !same) : Except NumberFault Magnitude) := by
    rcases Bool.or_eq_true_iff.mp h with ha | hb
    · obtain ⟨p, hp⟩ := exists_partsBeside ha b
      simp only [hp, ok_bind, equalParts_comm p]
    · obtain ⟨p, hp⟩ := exists_partsBeside hb a
      simp only [hp, ok_bind, equalParts_comm p]
  unfold relateNumbers
  rw [Bool.or_comm, horder]
  split
  · next h => cases r <;> first | exact hparts h | rfl
  · rfl

/-! ### Vectors -/

theorem matchLengths_swap {α β : Type} (xs : List α) (ys : List β) :
    matchLengths ys xs = Prod.swap <$> matchLengths xs ys := by
  unfold matchLengths
  rw [beq_eq_beq.mpr eq_comm]
  split
  · rfl
  · next h =>
    have hne : ¬ys.length = xs.length := fun heq => h (beq_iff_eq.mpr heq.symm)
    match xs, ys with
    | [x], [y] => exact absurd rfl hne
    | [x], [] | [], [y] | [], [] => rfl
    | [x], y :: y' :: ys => rfl
    | x :: x' :: xs, [y] => rfl
    | x :: x' :: xs, [] | [], y :: y' :: ys | x :: x' :: xs, y :: y' :: ys => rfl

theorem relateEntries_swap (r : Relation) (xs ys : List Float) :
    relateEntries r.swap ys xs = relateEntries r xs ys := by
  unfold relateEntries
  rw [List.zipWith_comm]
  simp only [Extended.holds_order?_swap]

/-! ### All magnitudes -/

/-- A comparison may be read from either side. -/
theorem relate_swap (r : Relation) (a b : Magnitude) : b.relate r.swap a = a.relate r b := by
  have hequality : r.swap.isEquality = r.isEquality := by cases r <;> rfl
  have heq : (r.swap == .eq) = (r == .eq) := by cases r <;> rfl
  have hne : (r.swap == .ne) = (r == .ne) := by cases r <;> rfl
  have hincomparable : incomparable r.swap = incomparable r := by cases r <;> rfl
  have hnumbers : ∀ m n : Magnitude,
      (if n.isNumber && m.isNumber then relateNumbers r.swap n m else incomparable r.swap) =
        if m.isNumber && n.isNumber then relateNumbers r m n else incomparable r := by
    intro m n
    rw [Bool.and_comm, relateNumbers_swap, hincomparable]
  unfold relate
  generalize a.numeric = m
  generalize b.numeric = n
  cases m <;> cases n
  all_goals first
    | exact hnumbers _ _
    | simp only [Extended.holds_order?_swap, hequality, hne]
  case vector.vector xs ys =>
    rw [matchLengths_swap, bind_map_left]
    simp only [Prod.fst_swap, Prod.snd_swap, relateEntries_swap]
  case text.text s t =>
    rw [show compare t s = (compare s t).swap from Std.OrientedCmp.eq_swap]
    exact congrArg (fun b => Except.ok (truth b)) (Relation.holds_swap r (some (compare s t)))
  case absent.absent => rw [heq]

end Magnitude

end UnitCalculus
