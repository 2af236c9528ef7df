import UnitCalculus.Kind

/-! # Outcomes of chained steps

How a chain of steps that may fail is taken apart: it succeeds when every step does (`bind_eq_ok`),
its result is that of the last step (`Yields.bind`), and its fault is that of a step
(`OnlyFaults.bind`).  A chain of steps that decide conditions on dimensions decides their
conjunction (`Decides.bind`).  Two chains whose steps end alike end alike themselves
(`Lockstep.bind`), also where the steps may make kinds (`Interning.Lockstep.bind`). -/

namespace UnitCalculus

variable {α β ε : Type}

theorem ok_bind (a : α) (k : α → Except ε β) : (Except.ok a >>= k) = k a := rfl

theorem error_bind (f : ε) (k : α → Except ε β) :
    (Except.error f >>= k) = Except.error f := rfl

theorem bind_eq_ok {x : Except ε α} {k : α → Except ε β} {b : β} (h : (x >>= k) = .ok b) :
    ∃ a, x = .ok a ∧ k a = .ok b := by
  cases x with
  | error f => cases h
  | ok a => exact ⟨a, rfl, h⟩

theorem liftNumber_eq_ok {x : Except NumberFault α} {r : α}
    (h : liftNumber x = .ok r) : x = .ok r := by
  cases x <;> cases h
  rfl

theorem liftDisplay_eq_ok {x : Except Magnitude.DisplayFault α} {a : α}
    (h : liftDisplay x = .ok a) : x = .ok a := by
  cases x with
  | error f => cases h
  | ok b => rw [Except.ok.inj h]

/-! ### The results of a computation -/

/-- Every result that the computation may end with has the property. -/
def Yields (R : α → Prop) (x : Except ε α) : Prop := ∀ a, x = .ok a → R a

section yields

variable {R : α → Prop} {S : β → Prop}

theorem yields_ok {a : α} (h : R a) : Yields R (.ok a : Except ε α) := by
  intro b hb
  cases hb
  exact h

theorem yields_error (f : ε) : Yields R (.error f : Except ε α) := by
  intro a ha
  cases ha

theorem Yields.imp {R' : α → Prop} {x : Except ε α} (h : Yields R x) (hR : ∀ a, R a → R' a) :
    Yields R' x :=
  fun a ha => hR a (h a ha)

theorem Yields.bind {x : Except ε α} {k : α → Except ε β} (hx : Yields R x)
    (hk : ∀ a, R a → Yields S (k a)) : Yields S (x >>= k) := by
  intro b hb
  obtain ⟨a, ha, hb⟩ := bind_eq_ok hb
  exact hk a (hx a ha) b hb

theorem Yields.map {x : Except ε α} {g : α → β} (hx : Yields R x) (hg : ∀ a, R a → S (g a)) :
    Yields S (g <$> x) := by
  cases x with
  | error f => exact yields_error f
  | ok a => exact yields_ok (hg a (hx a rfl))

theorem yields_any (x : Except ε α) : Yields (fun _ => True) x := fun _ _ => trivial

theorem yields_liftNumber {x : Except NumberFault α} (h : Yields R x) :
    Yields R (liftNumber x) := by
  cases x with
  | error f => exact yields_error _
  | ok a => exact yields_ok (h a rfl)

end yields

/-! ### The faults of a computation -/

/-- Every fault that the computation may end with has the property. -/
def OnlyFaults (P : Fault → Prop) (x : Except Fault α) : Prop := ∀ f, x = .error f → P f

variable {P Q : Fault → Prop}

theorem onlyFaults_ok (a : α) : OnlyFaults P (.ok a) := by
  intro f h
  cases h

theorem onlyFaults_error {f : Fault} (h : P f) : OnlyFaults P (.error f : Except Fault α) := by
  intro g hg
  cases hg
  exact h

theorem OnlyFaults.bind {x : Except Fault α} {k : α → Except Fault β} (hx : OnlyFaults P x)
    (hk : ∀ a, x = .ok a → OnlyFaults P (k a)) : OnlyFaults P (x >>= k) := by
  cases x with
  | error f =>
    rw [error_bind]
    exact onlyFaults_error (hx f rfl)
  | ok a => exact hk a rfl

theorem OnlyFaults.imp {x : Except Fault α} (h : OnlyFaults P x) (hPQ : ∀ f, P f → Q f) :
    OnlyFaults Q x :=
  fun f hf => hPQ f (h f hf)

theorem OnlyFaults.foldlM {step : β → α → Except Fault β} (h : ∀ b a, OnlyFaults P (step b a))
    (b : β) (as : List α) : OnlyFaults P (as.foldlM step b) := by
  induction as generalizing b with
  | nil => exact onlyFaults_ok b
  | cons a as ih =>
    rw [List.foldlM_cons]
    exact (h b a).bind fun b' _ => ih b'

/-- The fault is one of arithmetic. -/
def Arithmetic (f : Fault) : Prop := ∃ n, f = .number n

theorem onlyFaults_liftNumber (x : Except NumberFault α) :
    OnlyFaults Arithmetic (liftNumber x) := by
  cases x with
  | error n => exact onlyFaults_error ⟨n, rfl⟩
  | ok a => exact onlyFaults_ok a

/-! ### Conditions on dimensions -/

/-- The computation decides the condition: where it holds there is a result, which has the property,
and where it does not there is a fault of dimensions.  Arithmetic may fail in both cases. -/
inductive Decides (c : Prop) (R : α → Prop) : Except Fault α → Prop
  | ok {a : α} (hc : c) (h : R a) : Decides c R (.ok a)
  | dimension {f : DimensionFault} (hc : ¬c) : Decides c R (.error (.dimension f))
  | number (f : NumberFault) : Decides c R (.error (.number f))

section decides

variable {c d : Prop} {R : α → Prop} {S : β → Prop}

/-- What already holds may be added to what is decided. -/
theorem Decides.and_left {x : Except Fault α} (hc : c) (hx : Decides d R x) :
    Decides (c ∧ d) R x := by
  cases hx with
  | ok hd hR => exact .ok ⟨hc, hd⟩ hR
  | dimension hd => exact .dimension fun h => hd h.2
  | number f => exact .number f

theorem Decides.bind {x : Except Fault α} {k : α → Except Fault β} (hx : Decides c R x)
    (hk : ∀ a, R a → Decides d S (k a)) : Decides (c ∧ d) S (x >>= k) := by
  cases hx with
  | ok hc hR => exact (hk _ hR).and_left hc
  | dimension hc => exact .dimension fun h => hc h.1
  | number f => exact .number f

theorem Decides.map {x : Except Fault α} {g : α → β} (hx : Decides c R x)
    (hg : ∀ a, R a → S (g a)) : Decides c S (g <$> x) := by
  cases hx with
  | ok hc hR => exact .ok hc (hg _ hR)
  | dimension hc => exact .dimension hc
  | number f => exact .number f

theorem Decides.congr {x : Except Fault α} (hx : Decides c R x) (h : c ↔ d) : Decides d R x := by
  rwa [← propext h]

/-- Unless arithmetic fails, the fault of dimensions tells that the condition does not hold. -/
theorem Decides.outcome {x : Except Fault α} (hx : Decides c R x)
    (hn : ∀ n, x ≠ .error (.number n)) :
    ((∃ f, x = .error (.dimension f)) ↔ ¬c) ∧ (c → ∃ a, x = .ok a ∧ R a) := by
  cases hx with
  | @ok a hc hR =>
    refine ⟨iff_of_false ?_ (not_not_intro hc), fun _ => ⟨a, rfl, hR⟩⟩
    rintro ⟨f, hf⟩
    cases hf
  | @dimension f hc => exact ⟨iff_of_true ⟨f, rfl⟩ hc, fun h => absurd h hc⟩
  | number f => exact absurd rfl (hn f)

/-- Arithmetic asks for nothing. -/
theorem decides_liftNumber {x : Except NumberFault α} (h : Yields R x) :
    Decides True R (liftNumber x) := by
  cases x with
  | error f => exact .number f
  | ok a => exact .ok trivial (h a rfl)

end decides

/-! ### Two computations side by side -/

/-- Two computations end alike: with related results, or with related faults. -/
inductive Lockstep (F : Fault → Fault → Prop) (R : α → β → Prop) :
    Except Fault α → Except Fault β → Prop
  | ok {a : α} {b : β} (h : R a b) : Lockstep F R (.ok a) (.ok b)
  | error {f g : Fault} (h : F f g) : Lockstep F R (.error f) (.error g)

/-- Both faults are one, which has the property. -/
inductive Shared (P : Fault → Prop) : Fault → Fault → Prop
  | intro {f : Fault} (h : P f) : Shared P f f

section lockstep

variable {F : Fault → Fault → Prop} {α' β' : Type} {R : α → α' → Prop} {S : β → β' → Prop}

theorem Lockstep.bind {x : Except Fault α} {y : Except Fault α'} {k : α → Except Fault β}
    {k' : α' → Except Fault β'} (h : Lockstep F R x y)
    (hk : ∀ a a', R a a' → Lockstep F S (k a) (k' a')) : Lockstep F S (x >>= k) (y >>= k') := by
  cases h with
  | ok hR => exact hk _ _ hR
  | error hf => exact .error hf

theorem Lockstep.map {x : Except Fault α} {y : Except Fault α'} {g : α → β} {g' : α' → β'}
    (h : Lockstep F R x y) (hg : ∀ a a', R a a' → S (g a) (g' a')) :
    Lockstep F S (g <$> x) (g' <$> y) := by
  cases h with
  | ok hR => exact .ok (hg _ _ hR)
  | error hf => exact .error hf

theorem Lockstep.refl (x : Except Fault α) : Lockstep Eq Eq x x := by
  cases x with
  | ok a => exact .ok rfl
  | error f => exact .error rfl

theorem Lockstep.eq {x y : Except Fault α} (h : Lockstep Eq Eq x y) : x = y := by
  cases h with
  | ok h => rw [h]
  | error h => rw [h]

end lockstep

/-! ### Computations that may make kinds -/

namespace Interning

variable {F : Fault → Fault → Prop} {α' β' : Type} {R : α → α' → Prop} {S : β → β' → Prop}

/-- Two computations end alike and make no kinds. -/
def Lockstep (F : Fault → Fault → Prop) (R : α → α' → Prop) (x : Interning α) (y : Interning α') :
    Prop :=
  ∀ ks, ∃ u v, runWith ks x = (u, ks) ∧ runWith ks y = (v, ks) ∧ UnitCalculus.Lockstep F R u v

theorem Lockstep.lift {x : Except Fault α} {y : Except Fault α'}
    (h : UnitCalculus.Lockstep F R x y) : Lockstep F R (lift x) (lift y) :=
  fun _ => ⟨x, y, rfl, rfl, h⟩

theorem Lockstep.pure {a : α} {b : α'} (h : R a b) :
    Lockstep F R (Pure.pure a) (Pure.pure b) :=
  fun _ => ⟨.ok a, .ok b, rfl, rfl, .ok h⟩

theorem runWith_bind_ok {ks ks' : Kinds} {x : Interning α} {a : α} (k : α → Interning β)
    (h : runWith ks x = (.ok a, ks')) : runWith ks (x >>= k) = runWith ks' (k a) := by
  unfold runWith at h ⊢
  simp only [bind, ExceptT.bind, ExceptT.mk, StateT.bind, h]
  rfl

theorem runWith_bind_error {ks ks' : Kinds} {x : Interning α} {f : Fault} (k : α → Interning β)
    (h : runWith ks x = (.error f, ks')) : runWith ks (x >>= k) = (.error f, ks') := by
  unfold runWith at h ⊢
  simp only [bind, ExceptT.bind, ExceptT.mk, StateT.bind, h]
  rfl

/-- The computation decides the condition and makes no kinds. -/
def Decides (c : Prop) (R : α → Prop) (x : Interning α) : Prop :=
  ∀ ks, ∃ u, runWith ks x = (u, ks) ∧ UnitCalculus.Decides c R u

section decides

variable {c d : Prop} {R : α → Prop} {S : β → Prop}

theorem Decides.lift {x : Except Fault α} (h : UnitCalculus.Decides c R x) :
    Decides c R (lift x) :=
  fun _ => ⟨x, rfl, h⟩

theorem Decides.pure {a : α} (h : R a) : Decides True R (Pure.pure a : Interning α) :=
  fun _ => ⟨.ok a, rfl, .ok trivial h⟩

theorem Decides.bind {x : Interning α} {k : α → Interning β} (hx : Decides c R x)
    (hk : ∀ a, R a → Decides d S (k a)) : Decides (c ∧ d) S (x >>= k) := by
  intro ks
  obtain ⟨u, hu, hx⟩ := hx ks
  cases hx with
  | dimension hc =>
    rw [runWith_bind_error k hu]
    exact ⟨_, rfl, .dimension fun h => hc h.1⟩
  | number f =>
    rw [runWith_bind_error k hu]
    exact ⟨_, rfl, .number f⟩
  | ok hc hR =>
    rw [runWith_bind_ok k hu]
    obtain ⟨v, hv, hk⟩ := hk _ hR ks
    exact ⟨v, hv, hk.and_left hc⟩

theorem Decides.congr {x : Interning α} (hx : Decides c R x) (h : c ↔ d) : Decides d R x := by
  rwa [← propext h]

/-- No arithmetic fails in the computation. -/
def Computes (ks : Kinds) (x : Interning α) : Prop :=
  ∀ n, (runWith ks x).1 ≠ .error (.number n)

/-- The computation ends with a fault of dimensions, and without new kinds. -/
def Rejects (ks : Kinds) (x : Interning α) : Prop :=
  ∃ f, runWith ks x = (.error (.dimension f), ks)

/-- Whether a computation ended with a fault of arithmetic. -/
def failsByArithmetic : Except Fault α → Bool
  | .error (.number _) => true
  | _ => false

theorem computes_iff {ks : Kinds} {x : Interning α} :
    Computes ks x ↔ failsByArithmetic (runWith ks x).1 = false := by
  unfold Computes
  cases (runWith ks x).1 with
  | ok a => simp [failsByArithmetic]
  | error f => cases f <;> simp [failsByArithmetic]

instance (ks : Kinds) (x : Interning α) : Decidable (Computes ks x) :=
  decidable_of_iff' _ computes_iff

theorem Decides.outcome {x : Interning α} {ks : Kinds} (hx : Decides c R x)
    (hn : Computes ks x) :
    (Rejects ks x ↔ ¬c) ∧ (c → ∃ a, runWith ks x = (.ok a, ks) ∧ R a) := by
  obtain ⟨u, hu, hx⟩ := hx ks
  unfold Computes at hn
  unfold Rejects
  rw [hu] at hn ⊢
  simpa only [Prod.mk.injEq, and_true] using hx.outcome hn

end decides

theorem Lockstep.bind {x : Interning α} {y : Interning α'} {k : α → Interning β}
    {k' : α' → Interning β'} (h : Lockstep F R x y)
    (hk : ∀ a a', R a a' → Lockstep F S (k a) (k' a')) : Lockstep F S (x >>= k) (y >>= k') := by
  intro ks
  obtain ⟨u, v, hx, hy, huv⟩ := h ks
  cases huv with
  | ok hR =>
    rw [runWith_bind_ok k hx, runWith_bind_ok k' hy]
    exact hk _ _ hR ks
  | error hf =>
    rw [runWith_bind_error k hx, runWith_bind_error k' hy]
    exact ⟨_, _, rfl, rfl, .error hf⟩

end Interning

end UnitCalculus
