import UnitCalculus.Operand.Conversion
import UnitCalculus.Proofs.Magnitude.Comparison
import UnitCalculus.Proofs.Magnitude.Unity

/-! # Keys of equal values

Values that compare equal should have keys that agree, or they are lost in tables.  Equal quantities
have the same dimension, whether they are kinded or not, so their keys agree when those of their
magnitudes do.  Two things come between equality and keys: a quantity may equal a bare number, whose
key has no dimension, and a whole number is rounded when it meets certain numbers with a
floating-point part, so that it may equal one of another value (`key_agrees_iff`). -/

namespace UnitCalculus

open Magnitude (HashKey)

theorem Extended.ne_undefined_of_order?_eq {x y : Extended} (h : x.order? y = some .eq) :
    x ≠ .undefined := by
  rintro rfl
  cases h

namespace Magnitude

/-! ### Single numbers -/

/-- Whether the first number is rounded before it is compared with the second: an integer beside an
unchecked number, and a word beside any number with a floating-point part. -/
def isRoundedBeside : Magnitude → Magnitude → Bool
  | integer _, unchecked _ => true
  | integer _, uncheckedComplex _ => true
  | word _, real _ => true
  | word _, unchecked _ => true
  | word _, complex _ => true
  | word _, uncheckedComplex _ => true
  | _, _ => false

/-- The parts by which a number is compared with another. -/
def comparedParts (m other : Magnitude) : Except NumberFault (Extended × Extended) :=
  if m.isRoundedBeside other then do return (.ofFloat (← m.toFloat), .finite 0)
  else m.complexParts

/-- Two magnitudes are compared by their exact values: if one is rounded, that changes nothing. -/
def ComparesExactly (m n : Magnitude) : Prop :=
  m.numeric.comparedParts n.numeric = m.numeric.complexParts ∧
    n.numeric.comparedParts m.numeric = n.numeric.complexParts

theorem comparedParts_of_not_rounded {m other : Magnitude}
    (h : m.isRoundedBeside other = false) : m.comparedParts other = m.complexParts := by
  simp only [comparedParts, h, Bool.false_eq_true, if_false]

/-- One of two numbers is rounded at most. -/
theorem isRoundedBeside_comm {m n : Magnitude} (h : m.isRoundedBeside n = true) :
    n.isRoundedBeside m = false := by
  cases m <;> cases n <;> first | rfl | cases h

/-- The parts of a number, none of them undefined. -/
def DefinedParts (x : Except NumberFault (Extended × Extended)) (p : Extended × Extended) : Prop :=
  x = .ok p ∧ p.1 ≠ .undefined ∧ p.2 ≠ .undefined

/-- A number whose rounded parts are defined has defined parts. -/
theorem exists_definedParts {m other : Magnitude} {p : Extended × Extended}
    (h : DefinedParts (m.comparedParts other) p) : ∃ q, DefinedParts m.complexParts q := by
  unfold comparedParts at h
  split at h
  · next hrounded =>
    cases m
    case integer n => exact ⟨(.finite n, .finite 0), rfl, nofun, nofun⟩
    case word n => exact ⟨(.finite n.toInt, .finite 0), rfl, nofun, nofun⟩
    all_goals cases hrounded
  · exact ⟨p, h⟩

/-- The parts of a real number that is not rounded. -/
theorem comparedParts_of_exact {m other : Magnitude} {x : Extended} (hx : m.exact = .ok x)
    (h : m.isRoundedBeside other = false) : m.comparedParts other = .ok (x, .finite 0) := by
  have hparts : m.complexParts = .ok (x, .finite 0) := by
    cases m
    case complex | uncheckedComplex => cases hx
    all_goals simp only [complexParts, hx, ok_bind, pure, Except.pure]
  rw [comparedParts_of_not_rounded h, hparts]

theorem exists_comparedParts_of_order {m n : Magnitude} (h : m.order n = .ok (some .eq)) :
    ∃ p, DefinedParts (m.comparedParts n) p ∧ DefinedParts (n.comparedParts m) p := by
  have hsame {x y : Extended} (hxy : x.order? y = some .eq)
      (hx : m.comparedParts n = .ok (x, .finite 0)) (hy : n.comparedParts m = .ok (y, .finite 0)) :
      ∃ p, DefinedParts (m.comparedParts n) p ∧ DefinedParts (n.comparedParts m) p := by
    have hdefined := Extended.ne_undefined_of_order?_eq hxy
    have heq := Extended.eq_of_order?_eq hxy
    exact ⟨(x, .finite 0), ⟨hx, hdefined, nofun⟩, ⟨heq ▸ hy, hdefined, nofun⟩⟩
  unfold order at h
  split at h
  case h_1 k y =>
    obtain ⟨x, hx, h⟩ := bind_eq_ok h
    exact hsame (Except.ok.inj h) (by simp [comparedParts, isRoundedBeside, toFloat, hx]) rfl
  case h_2 x k =>
    obtain ⟨y, hy, h⟩ := bind_eq_ok h
    exact hsame (Except.ok.inj h) rfl (by simp [comparedParts, isRoundedBeside, toFloat, hy])
  case h_7 h₁ h₂ h₃ h₄ h₅ h₆ =>
    obtain ⟨x, hx, h⟩ := bind_eq_ok h
    obtain ⟨y, hy, h⟩ := bind_eq_ok h
    -- The families that round are those of the cases before, or complex.
    have hround : m.isRoundedBeside n = false ∧ n.isRoundedBeside m = false := by
      cases m <;> cases n
      all_goals first
        | exact ⟨rfl, rfl⟩
        | (cases hx; done)
        | (cases hy; done)
        | exact (h₁ _ _ rfl rfl).elim
        | exact (h₂ _ _ rfl rfl).elim
        | exact (h₃ _ _ rfl rfl).elim
        | exact (h₄ _ _ rfl rfl).elim
        | exact (h₅ _ _ rfl rfl).elim
        | exact (h₆ _ _ rfl rfl).elim
    exact hsame (Except.ok.inj h) (comparedParts_of_exact hx hround.1)
      (comparedParts_of_exact hy hround.2)
  all_goals exact hsame (Except.ok.inj h) rfl rfl

theorem exists_comparedParts_of_equalParts {m n : Magnitude} {p q : Extended × Extended}
    (hp : m.comparedParts n = .ok p) (hq : n.comparedParts m = .ok q)
    (h : equalParts p q = true) :
    ∃ p, DefinedParts (m.comparedParts n) p ∧ DefinedParts (n.comparedParts m) p := by
  obtain ⟨hre, him⟩ := Bool.and_eq_true_iff.mp h
  have hpq : p = q := Prod.ext (Extended.eq_of_order?_eq (beq_iff_eq.mp hre))
    (Extended.eq_of_order?_eq (beq_iff_eq.mp him))
  subst hpq
  have hdefined : p.1 ≠ .undefined ∧ p.2 ≠ .undefined :=
    ⟨Extended.ne_undefined_of_order?_eq (beq_iff_eq.mp hre),
      Extended.ne_undefined_of_order?_eq (beq_iff_eq.mp him)⟩
  exact ⟨p, ⟨hp, hdefined⟩, ⟨hq, hdefined⟩⟩

/-- Beside a complex number the parts are those by which complex numbers are compared. -/
theorem partsBeside_eq_comparedParts {m n : Magnitude}
    (h : (m.isComplex || n.isComplex) = true) : m.partsBeside n = m.comparedParts n := by
  cases m <;> cases n <;> first | rfl | cases h

/-- Numbers that compare equal are compared by the same parts. -/
theorem exists_comparedParts {m n : Magnitude}
    (h : relateNumbers .eq m n = .ok (truth true)) :
    ∃ p, DefinedParts (m.comparedParts n) p ∧ DefinedParts (n.comparedParts m) p := by
  unfold relateNumbers at h
  split at h
  · next hcomplex =>
    obtain ⟨p, hp, h⟩ := bind_eq_ok h
    obtain ⟨q, hq, h⟩ := bind_eq_ok h
    rw [partsBeside_eq_comparedParts hcomplex] at hp
    rw [partsBeside_eq_comparedParts (by rwa [Bool.or_comm])] at hq
    exact exists_comparedParts_of_equalParts hp hq (truth.inj (Except.ok.inj h))
  · obtain ⟨o, ho, h⟩ := bind_eq_ok h
    obtain rfl : o = some .eq := beq_iff_eq.mp (truth.inj (Except.ok.inj h))
    exact exists_comparedParts_of_order ho

/-! ### Keys of magnitudes -/

theorem hashKey_of_parts {m : Magnitude} {p : Extended × Extended}
    (h : m.numeric.complexParts = .ok p) : m.hashKey = .ok (.number p.1 p.2) := by
  unfold hashKey
  generalize m.numeric = k at h
  cases k
  case text | absent => cases h
  all_goals simp only [h, ok_bind, pure, Except.pure]

/-- What magnitudes that compare equal have: keys that are defined, and that are the same if the
exact values were compared. -/
def HaveKeys (m n : Magnitude) : Prop :=
  ∃ k l, m.hashKey = .ok k ∧ n.hashKey = .ok l ∧ k.isUndefined = false ∧ l.isUndefined = false ∧
    (k = l ↔ m.ComparesExactly n)

theorem haveKeys_of_relateNumbers {m n : Magnitude}
    (h : relateNumbers .eq m.numeric n.numeric = .ok (truth true)) : m.HaveKeys n := by
  obtain ⟨p, hm, hn⟩ := exists_comparedParts h
  obtain ⟨q, hq, hqre, hqim⟩ := exists_definedParts hm
  obtain ⟨r, hr, hrre, hrim⟩ := exists_definedParts hn
  have hexact : q = r ↔ p = q ∧ p = r := by
    constructor
    · intro hqr
      cases hrounded : m.numeric.isRoundedBeside n.numeric with
      | false =>
        have hpq := hm.1.symm.trans ((comparedParts_of_not_rounded hrounded).trans hq)
        exact ⟨Except.ok.inj hpq, hqr ▸ Except.ok.inj hpq⟩
      | true =>
        have hpr := hn.1.symm.trans
          ((comparedParts_of_not_rounded (isRoundedBeside_comm hrounded)).trans hr)
        exact ⟨hqr ▸ Except.ok.inj hpr, Except.ok.inj hpr⟩
    · rintro ⟨rfl, rfl⟩
      rfl
  refine ⟨_, _, hashKey_of_parts hq, hashKey_of_parts hr, by simp [HashKey.isUndefined, *],
    by simp [HashKey.isUndefined, *], ?_⟩
  rw [ComparesExactly, hm.1, hn.1, hq, hr, Except.ok.injEq, Except.ok.injEq, ← hexact,
    HashKey.number.injEq, Prod.ext_iff]

theorem haveKeys_of_relate {m n : Magnitude} (h : m.relate .eq n = .ok (truth true)) :
    m.HaveKeys n := by
  unfold relate at h
  split at h
  case h_4 s t hs ht =>
    have hst : s = t := Std.LawfulEqCmp.eq_of_compare (beq_iff_eq.mp (truth.inj (Except.ok.inj h)))
    subst hst
    refine ⟨.text s, .text s, ?_, ?_, rfl, rfl, iff_of_true rfl ?_⟩
    · rw [hashKey, hs]
    · rw [hashKey, ht]
    · rw [ComparesExactly, hs, ht]
      exact ⟨rfl, rfl⟩
  case h_5 hs ht =>
    refine ⟨.absent, .absent, ?_, ?_, rfl, rfl, iff_of_true rfl ?_⟩
    · rw [hashKey, hs]
    · rw [hashKey, ht]
    · rw [ComparesExactly, hs, ht]
      exact ⟨rfl, rfl⟩
  case h_6 =>
    split at h
    · exact haveKeys_of_relateNumbers h
    · cases h
  -- A comparison of entries has no truth value.
  case h_1 =>
    obtain ⟨_, _, h⟩ := bind_eq_ok h
    cases h
  all_goals
    split at h
    · obtain ⟨_, _, h⟩ := bind_eq_ok h
      cases h
    · cases h

end Magnitude

/-! ### Keys of numbers and quantities -/

theorem Quantity.relate_eq_ok {q p : Quantity} {r : Relation} {m : Magnitude}
    (h : q.relate r p = .ok m) :
    q.dimension.key = p.dimension.key ∧ q.magnitude.relate r p.magnitude = .ok m := by
  obtain ⟨u, hsame, h⟩ := bind_eq_ok h
  refine ⟨?_, liftNumber_eq_ok h⟩
  unfold requireSame at hsame
  split at hsame
  · next heq => exact eq_of_beq heq
  · cases hsame

theorem Kinded.relate_eq_ok {k l : Kinded} {r : Relation} {m : Magnitude}
    (h : k.relate r l = .ok m) :
    k.dimension.key = l.dimension.key ∧ k.magnitude.relate r l.magnitude = .ok m := by
  obtain ⟨u, hsame, h⟩ := bind_eq_ok h
  refine ⟨?_, liftNumber_eq_ok h⟩
  unfold requireSame at hsame
  split at hsame
  · next heq => exact eq_of_beq heq
  · cases hsame

namespace Operand

variable {a b : Operand} {m n : Magnitude}

/-- The key of a number or a quantity, from the key of its magnitude. -/
theorem key_of_hashKey {k : HashKey} (ha : a.magnitude? = some m) (hk : m.hashKey = .ok k) :
    a.key = .ok (match a.quantity? with
      | some q => .quantity k q.dimension.key
      | none => .magnitude k) := by
  cases a
  case magnitude | quantity | kinded =>
    cases ha
    simp only [key, hk, liftNumber, ok_bind, quantity?, Kinded.toQuantity]
    rfl
  all_goals cases ha

/-- Equal values have equal magnitudes, and equal quantities have one dimension. -/
theorem relate_magnitude (ha : a.magnitude? = some m) (hb : b.magnitude? = some n)
    (h : a.relate .eq b = .ok (.truth true)) :
    m.relate .eq n = .ok (.truth true) ∧
      ∀ q ∈ a.quantity?, ∀ r ∈ b.quantity?, q.dimension.key = r.dimension.key := by
  have hswap {x y : Magnitude} (h : y.relate .eq x = .ok (.truth true)) :
      x.relate .eq y = .ok (.truth true) := by rwa [← Magnitude.relate_swap .eq x y]
  have hnumber {x y : Magnitude} {c : Bool} {u : Except Fault Unit}
      (h : (if c then do
          u
          liftNumber (x.relate .eq y)
        else incomparable .eq) = .ok (.truth true)) : x.relate .eq y = .ok (.truth true) := by
    split at h
    · obtain ⟨_, _, h⟩ := bind_eq_ok h
      exact liftNumber_eq_ok h
    · cases h
  cases a
  case magnitude =>
    cases b
    case magnitude =>
      cases ha; cases hb
      exact ⟨liftNumber_eq_ok h, nofun⟩
    case quantity | kinded =>
      cases ha; cases hb
      exact ⟨hswap (hnumber h), nofun⟩
    all_goals cases hb
  case quantity q =>
    cases b
    case magnitude =>
      cases ha; cases hb
      exact ⟨hnumber h, nofun⟩
    case quantity r =>
      cases ha; cases hb
      have heq := Quantity.relate_eq_ok h
      exact ⟨heq.2, by simpa [quantity?] using heq.1⟩
    case kinded l =>
      cases ha; cases hb
      have heq := Quantity.relate_eq_ok h
      exact ⟨heq.2, by simpa [quantity?] using heq.1⟩
    all_goals cases hb
  case kinded k =>
    cases b
    case magnitude =>
      cases ha; cases hb
      exact ⟨hnumber h, nofun⟩
    case quantity r =>
      cases ha; cases hb
      have heq := Quantity.relate_eq_ok h
      exact ⟨hswap heq.2, by simpa [quantity?] using heq.1.symm⟩
    case kinded l =>
      cases ha; cases hb
      have heq := Kinded.relate_eq_ok h
      exact ⟨heq.2, by simpa [quantity?, Kinded.toQuantity] using heq.1⟩
    all_goals cases hb
  all_goals cases ha

/-- **Keys of equal values**: numbers and quantities that compare equal have keys.  The keys agree
exactly if both are numbers or both quantities, kinded or not, and no rounding of a whole number
made them equal. -/
theorem key_agrees_iff (ha : a.magnitude? = some m) (hb : b.magnitude? = some n)
    (h : a.relate .eq b = .ok (.truth true)) :
    ∃ k l, a.key = .ok k ∧ b.key = .ok l ∧
      (k.agrees l = true ↔ a.quantity?.isSome = b.quantity?.isSome ∧ m.ComparesExactly n) := by
  obtain ⟨hmagnitude, hdimension⟩ := relate_magnitude ha hb h
  obtain ⟨k, l, hk, hl, hdefined, -, hexact⟩ := Magnitude.haveKeys_of_relate hmagnitude
  refine ⟨_, _, key_of_hashKey ha hk, key_of_hashKey hb hl, ?_⟩
  rw [← hexact]
  cases hq : a.quantity? <;> cases hr : b.quantity?
  case some.some q r => simp [Key.agrees, HashKey.agrees, hdefined, hdimension q hq r hr]
  all_goals simp [Key.agrees, HashKey.agrees, hdefined]

/-- Two metres as a kinded quantity and as one without kind. -/
theorem key_agrees_iff_twoMetres :
    ∃ k l, key (kinded ⟨⟨"Length", .base "L" (some 0)⟩, .real 2.0⟩) = .ok k ∧
      key (quantity ⟨.ratio 2, .base "L" none⟩) = .ok l ∧ k.agrees l = true := by
  have hequal : relate .eq (kinded ⟨⟨"Length", .base "L" (some 0)⟩, .real 2.0⟩)
      (quantity ⟨.ratio 2, .base "L" none⟩) = .ok (.truth true) := by decide +kernel
  obtain ⟨k, l, hk, hl, hagrees⟩ := key_agrees_iff rfl rfl hequal
  exact ⟨k, l, hk, hl, hagrees.mpr ⟨rfl, rfl, rfl⟩⟩

/-- A quantity without dimension equals its value, and their keys differ. -/
theorem not_key_agrees_of_equal :
    ¬∀ (a b : Operand) (m n : Magnitude), a.magnitude? = some m → b.magnitude? = some n →
      m.isNumber = true → n.isNumber = true → a.relate .eq b = .ok (.truth true) →
        ∃ k l, a.key = .ok k ∧ b.key = .ok l ∧ k.agrees l = true := by
  intro h
  obtain ⟨k, l, hk, hl, hagrees⟩ := h (quantity (.bare (.integer 5))) (magnitude (.integer 5)) _ _
    rfl rfl rfl rfl (by decide +kernel)
  cases hk
  cases hl
  cases hagrees

end Operand

end UnitCalculus
