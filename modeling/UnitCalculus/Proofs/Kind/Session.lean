import UnitCalculus.Operand.Conversion
import UnitCalculus.Proofs.Formula
import UnitCalculus.Proofs.Kind
import UnitCalculus.Proofs.Outcome
import UnitCalculus.SI

/-! # Sessions with kinded quantities

A session holds the kinds that exist and the kinded quantities that were made.  It starts with those
of the international system and goes on by calls: kinds are asked for, base units made, values
combined, functions applied.  A call may make kinds, even one that fails later on (`Session.after`).

Whatever calls are made (`Session.run`), there is one kind for each dimension, it never changes, and
the kinded quantities have the kinds of their dimensions.  Each computation adds kinds and yields
values of kinds that exist then (`Interning.Adds`); from this follows what one call keeps
(`Session.Sound.after`), and by induction what all calls keep (`Session.sound_run`). -/

namespace UnitCalculus

open Dimension

variable {α β : Type}

/-! ### Computations that add kinds -/

namespace Interning

/-- Started with the kinds `ks`, the computation only adds kinds, and a result has the property with
those that exist then. -/
def Adds (ks : Kinds) (R : Kinds → α → Prop) (x : Interning α) : Prop :=
  ∃ u ks', runWith ks x = (u, ks') ∧ ks.Grows ks' ∧ Yields (R ks') u

section adds

variable {ks : Kinds} {R : Kinds → α → Prop} {S : Kinds → β → Prop}

theorem adds_lift {r : Except Fault α} (h : Yields (R ks) r) : Adds ks R (lift r) :=
  ⟨r, ks, rfl, .refl ks, h⟩

theorem adds_throw (f : Fault) : Adds ks R (throw f) :=
  ⟨.error f, ks, rfl, .refl ks, yields_error f⟩

theorem adds_pure {a : α} (h : R ks a) : Adds ks R (pure a) :=
  ⟨.ok a, ks, rfl, .refl ks, yields_ok h⟩

theorem Adds.bind {x : Interning α} {k : α → Interning β} (hx : Adds ks R x)
    (hk : ∀ ks' a, ks.Grows ks' → R ks' a → Adds ks' S (k a)) : Adds ks S (x >>= k) := by
  obtain ⟨u, ks', hu, hgrows, hR⟩ := hx
  cases u with
  | error f =>
    rw [Adds, runWith_bind_error k hu]
    exact ⟨_, _, rfl, hgrows, yields_error f⟩
  | ok a =>
    obtain ⟨v, ks'', hv, hgrows', hS⟩ := hk ks' a hgrows (hR a rfl)
    rw [Adds, runWith_bind_ok k hu]
    exact ⟨v, ks'', hv, hgrows.trans hgrows', hS⟩

theorem Adds.map {x : Interning α} {g : α → β} (hx : Adds ks R x)
    (hg : ∀ ks' a, R ks' a → S ks' (g a)) : Adds ks S (g <$> x) := by
  rw [← bind_pure_comp]
  exact hx.bind fun ks' a _ ha => adds_pure (hg ks' a ha)

theorem Adds.imp {R' : Kinds → α → Prop} {x : Interning α} (hx : Adds ks R x)
    (h : ∀ ks' a, R ks' a → R' ks' a) : Adds ks R' x := by
  obtain ⟨u, ks', hu, hgrows, hR⟩ := hx
  exact ⟨u, ks', hu, hgrows, hR.imp (h ks')⟩

theorem adds_kind (d : Dimension) (name : Option String) :
    Adds ks (fun ks' k => ks'.find? d = some k) (kind d name) :=
  ⟨_, _, runWith_kind ks d name, ks.grows_intern d name, yields_ok (ks.find?_intern d name)⟩

end adds

end Interning

open Interning

/-! ### Kinded quantities -/

namespace Kinded

variable {ks : Kinds} {k l : Kinded}

/-- The kind of the quantity is the one that exists for the dimension. -/
def IsOf (ks : Kinds) (d : Dimension) (k : Kinded) : Prop := ks.find? d = some k.kind

/-- The kind of the quantity is the one that exists for its dimension. -/
def Registered (ks : Kinds) (k : Kinded) : Prop := k.IsOf ks k.dimension

instance (ks : Kinds) (k : Kinded) : Decidable (k.Registered ks) :=
  inferInstanceAs (Decidable (ks.find? k.dimension = some k.kind))

theorem IsOf.same {d : Dimension} (h : k.IsOf ks d) : k.dimension.same d = true :=
  (Kinds.find?_eq_some h).2

theorem IsOf.registered {d : Dimension} (h : k.IsOf ks d) : k.Registered ks :=
  (Kinds.find?_congr h.same).trans h

theorem adds_ofDimension (d : Dimension) (m : Except Fault Magnitude) :
    Adds ks (fun ks' => IsOf ks' d) (ofDimension d m) :=
  (adds_kind d none).bind fun _ _ _ hkind =>
    (adds_lift (R := fun _ _ => True) (yields_any m)).bind fun _ _ hgrows _ =>
      adds_pure (hgrows.find? hkind)

/-- A result that keeps the kind of an operand. -/
theorem yields_sameKind (hk : k.Registered ks) (m : Except Fault Magnitude) :
    Yields (IsOf ks k.dimension) (do return ⟨k.kind, ← m⟩) :=
  (yields_any m).bind fun _ _ => yields_ok hk

end Kinded

namespace Operand

/-- The kinded quantity that a value is. -/
def kinded? : Operand → Option Kinded
  | kinded k => some k
  | _ => none

/-- The dimension of a kinded result of a binary operator. -/
def combinedDimension? (o : Operator) (a b : Operand) : Option Dimension :=
  match a, b with
  | kinded k, kinded l =>
    match o with
    | .mul => some (k.dimension.mul l.dimension)
    | .div => some (k.dimension.div l.dimension)
    | .add | .sub | .mod => some k.dimension
  | kinded k, magnitude _ => some k.dimension
  | magnitude _, kinded l => some (if o = .div then l.dimension.inv else l.dimension)
  | _, _ => none

/-- The value, if it is kinded, has the kind that exists for its dimension. -/
def Registered (ks : Kinds) (x : Operand) : Prop := ∀ k ∈ x.kinded?, k.Registered ks

/-- The value, if it is kinded, has the kind that exists for the given dimension. -/
def IsOf (ks : Kinds) (d : Option Dimension) (x : Operand) : Prop :=
  ∀ k ∈ x.kinded?, ∃ e ∈ d, k.IsOf ks e

variable {ks : Kinds} {d : Option Dimension}

theorem isOf_of_unkinded {x : Operand} (h : x.kinded? = none) : x.IsOf ks d := by
  intro k hk
  rw [h] at hk
  cases hk

theorem isOf_kinded {k : Kinded} {e : Dimension} (hd : d = some e) (h : k.IsOf ks e) :
    (kinded k).IsOf ks d := by
  rintro _ ⟨⟩
  exact ⟨e, hd, h⟩

theorem IsOf.registered {x : Operand} (h : x.IsOf ks d) : x.Registered ks := by
  intro k hk
  obtain ⟨_, _, hkind⟩ := h k hk
  exact hkind.registered

theorem adds_quantity (r : Except Fault Quantity) :
    Adds ks (fun ks' => IsOf ks' d) (Interning.lift (quantity <$> r)) :=
  adds_lift ((yields_any r).map fun _ _ => isOf_of_unkinded rfl)

theorem adds_kinded {e : Dimension} {x : Interning Kinded} (hd : d = some e)
    (h : Adds ks (fun ks' => Kinded.IsOf ks' e) x) :
    Adds ks (fun ks' => IsOf ks' d) (kinded <$> x) :=
  h.map fun _ _ hk => isOf_kinded hd hk

end Operand

namespace Kinded

variable {ks : Kinds} {k l : Kinded}

theorem adds_withKinded (o : Operator) (hk : k.Registered ks) :
    Adds ks (fun ks' => Operand.IsOf ks' (Operand.combinedDimension? o (.kinded k) (.kinded l)))
      (Operand.kinded <$> k.withKinded o l) := by
  cases o with
  | mul => exact Operand.adds_kinded rfl (adds_ofDimension _ _)
  | div => exact Operand.adds_kinded rfl (adds_ofDimension _ _)
  | add | sub | mod =>
    exact Operand.adds_kinded rfl (adds_lift ((yields_any _).bind fun _ _ => yields_sameKind hk _))

theorem adds_withNumber (o : Operator) (hk : k.Registered ks) (m : Magnitude) :
    Adds ks (fun ks' => Operand.IsOf ks' (some k.dimension))
      (Operand.kinded <$> k.withNumber o m) := by
  cases o with
  | add | sub =>
    exact Operand.adds_kinded rfl (adds_lift ((yields_any _).bind fun _ _ => yields_sameKind hk _))
  | mul | div | mod => exact Operand.adds_kinded rfl (adds_lift (yields_sameKind hk _))

theorem adds_numberWith (o : Operator) (hl : l.Registered ks) (m : Magnitude) :
    Adds ks (fun ks' => Operand.IsOf ks' (some (if o = .div then l.dimension.inv else l.dimension)))
      (Operand.kinded <$> numberWith o m l) := by
  cases o with
  | div => exact Operand.adds_kinded rfl (adds_ofDimension _ _)
  | mul => exact Operand.adds_kinded rfl (adds_lift (yields_sameKind hl _))
  | add | sub | mod =>
    exact Operand.adds_kinded rfl (adds_lift ((yields_any _).bind fun _ _ => yields_sameKind hl _))

end Kinded

namespace Operand

variable {ks : Kinds} {a b : Operand}

theorem adds_combine (o : Operator) (ha : a.Registered ks) (hb : b.Registered ks) :
    Adds ks (fun ks' => IsOf ks' (combinedDimension? o a b)) (combine o a b) := by
  unfold combine
  split
  · exact adds_lift ((yields_any _).map fun _ _ => isOf_of_unkinded rfl)
  · exact adds_quantity _
  · exact adds_quantity _
  · exact adds_quantity _
  · next k l => exact Kinded.adds_withKinded o (ha k rfl)
  · split
    · exact adds_quantity _
    · exact adds_throw _
  · split
    · exact adds_quantity _
    · exact adds_throw _
  · next k m =>
    split
    · exact Kinded.adds_withNumber o (ha k rfl) m
    · exact adds_throw _
  · next m k =>
    split
    · exact Kinded.adds_numberWith o (hb k rfl) m
    · exact adds_throw _
  · split
    · exact adds_pure (isOf_of_unkinded rfl)
    · exact adds_pure (isOf_of_unkinded rfl)
    · exact adds_throw _
  · exact adds_throw _

theorem yields_unary (u : UnaryOperator) (ha : a.Registered ks) :
    Yields (IsOf ks a.dimension?) (u.apply a) := by
  cases a with
  | kinded k =>
    cases u <;>
      exact (Kinded.yields_sameKind (ha k rfl) _).map fun _ hk => isOf_kinded rfl hk
  | magnitude m | quantity q =>
    cases u <;> exact (yields_any _).map fun _ _ => isOf_of_unkinded rfl
  | _ => cases u <;> exact yields_error _

/-- The dimension of a kinded result of an elementary function. -/
def appliedDimension? (places : Int) (f : ElementaryFunction) (a : Operand) : Option Dimension :=
  a.kinded?.bind fun k => (f.onDimension places k.dimension).toOption

theorem adds_onKinded (places : Int) (f : ElementaryFunction) (k : Kinded) :
    Adds ks (fun ks' l => ∃ d, f.onDimension places k.dimension = .ok d ∧ l.IsOf ks' d)
      (f.onKinded places k) := by
  have hdimension : Yields (fun d => f.onDimension places k.dimension = .ok d)
      (f.onDimension places k.dimension) := fun _ hd => hd
  exact (adds_lift (R := fun _ d => f.onDimension places k.dimension = .ok d) hdimension).bind
    fun _ d _ hd => (Kinded.adds_ofDimension d _).imp fun _ _ hl => ⟨d, hd, hl⟩

theorem adds_apply (places : Int) (f : ElementaryFunction) (a : Operand) :
    Adds ks (fun ks' => IsOf ks' (appliedDimension? places f a)) (apply places f a) := by
  unfold apply
  split
  · exact adds_throw _
  · split
    · exact adds_quantity _
    · next k =>
      refine (adds_onKinded places f k).map fun _ l hl => ?_
      obtain ⟨d, hd, hl⟩ := hl
      exact isOf_kinded (by simp [appliedDimension?, kinded?, hd, Except.toOption]) hl
    · exact adds_throw _

theorem yields_construct {k : Kind} (hk : ks.find? k.dimension = some k) (a : Operand) :
    Yields (Kinded.IsOf ks k.dimension) (construct (some k) a) := by
  cases a with
  | kinded l =>
    simp only [construct]
    split
    · exact yields_ok hk
    · exact yields_error _
  | quantity q =>
    simp only [construct, Kinded.ofQuantity]
    split
    · exact yields_ok hk
    · exact yields_error _
  | magnitude m =>
    simp only [construct]
    split
    · exact yields_error _
    · split
      · exact yields_ok hk
      · exact yields_error _
  | _ => exact yields_error _

end Operand

/-! ### Sessions -/

/-- The kinds that exist, and the kinded quantities that were made. -/
structure Session where
  kinds : Kinds
  made : List Kinded

namespace Session

/-- A value in a call: a kinded quantity that was made before, or any value that is not kinded. -/
inductive Argument where
  | made (i : Nat)
  | given (x : Operand)

/-- What may be done in a session. -/
inductive Call where
  /-- Ask for the kind of a dimension. -/
  | kind (d : Dimension) (name : Option String)
  /-- Make a unit of a base dimension. -/
  | unit (symbol : String) (rank : Option Int) (m : Magnitude)
  | combine (o : Operator) (a b : Argument)
  | unary (u : UnaryOperator) (a : Argument)
  | apply (f : ElementaryFunction) (a : Argument)
  /-- Make a value one of the `i`-th kind. -/
  | construct (i : Nat) (a : Argument)

/-- The value of an argument. -/
def operand (s : Session) : Argument → Except Fault Operand
  | .made i =>
    match s.made[i]? with
    | some k => .ok (.kinded k)
    | none => .error .noSuchPart
  | .given x => if x.kinded?.isSome then .error .noSuchPart else .ok x

/-- The result of a call. -/
def perform (places : Int) (s : Session) : Call → Interning Operand
  | .kind d name => Operand.kind <$> Interning.kind d name
  | .unit symbol rank m => Operand.kinded <$> Kinded.unit symbol rank m
  | .combine o a b => do Operand.combine o (← .lift (s.operand a)) (← .lift (s.operand b))
  | .unary u a => do .lift (u.apply (← .lift (s.operand a)))
  | .apply f a => do Operand.apply places f (← .lift (s.operand a))
  | .construct i a => do
    let x ← .lift (s.operand a)
    .lift (Operand.kinded <$> Operand.construct s.kinds.all[i]? x)

/-- The session after a call; kinds stay also where the call fails. -/
def after (places : Int) (s : Session) (c : Call) : Session :=
  match (s.perform places c).runWith s.kinds with
  | (.ok (.kinded k), ks) => ⟨ks, s.made ++ [k]⟩
  | (_, ks) => ⟨ks, s.made⟩

/-- The session with the kinds and the units of the international system. -/
def start : Session := ⟨SI.kinds, SI.units.entries.map (·.2)⟩

/-- The session after some calls, the first one first. -/
def run (places : Int) (cs : List Call) : Session := cs.foldl (after places) start

/-- The dimension whose kind a call gives its result. -/
def dimension? (places : Int) (s : Session) : Call → Option Dimension
  | .kind d _ => some d
  | .unit symbol rank _ => some (.base symbol rank)
  | .combine o a b => do
    Operand.combinedDimension? o (← (s.operand a).toOption) (← (s.operand b).toOption)
  | .unary _ a => do (← (s.operand a).toOption).dimension?
  | .apply f a => do Operand.appliedDimension? places f (← (s.operand a).toOption)
  | .construct i _ => s.kinds.all[i]?.map Kind.dimension

/-- No two kinds have the same dimension, and what was made has the kind of its dimension. -/
structure Sound (s : Session) : Prop where
  distinct : s.kinds.Distinct
  registered : ∀ k ∈ s.made, k.Registered s.kinds

variable {s : Session}

theorem Sound.registered_operand (hs : s.Sound) {a : Argument} {x : Operand}
    (hx : s.operand a = .ok x) : x.Registered s.kinds := by
  cases a with
  | made i =>
    cases hk : s.made[i]? with
    | none =>
      simp only [operand, hk] at hx
      cases hx
    | some k =>
      simp only [operand, hk] at hx
      cases hx
      rintro _ ⟨⟩
      exact hs.registered k (List.mem_of_getElem? hk)
  | given y =>
    cases hk : y.kinded? with
    | none =>
      simp only [operand, hk] at hx
      cases hx
      intro k hk'
      rw [hk] at hk'
      cases hk'
    | some k =>
      simp only [operand, hk] at hx
      cases hx

/-- The computation goes on from the value of an argument, which makes no kinds. -/
theorem Sound.adds_operand (hs : s.Sound) (a : Argument) {R : Kinds → Operand → Prop}
    {k : Operand → Interning Operand}
    (hk : ∀ x, s.operand a = .ok x → x.Registered s.kinds → Adds s.kinds R (k x)) :
    Adds s.kinds R (Interning.lift (s.operand a) >>= k) := by
  cases hx : s.operand a with
  | error f => exact adds_throw f
  | ok x => exact hk x hx (hs.registered_operand hx)

theorem Sound.adds_perform (hs : s.Sound) (places : Int) (c : Call) :
    Adds s.kinds (fun ks x => x.IsOf ks (s.dimension? places c)) (s.perform places c) := by
  cases c with
  | kind d name => exact (adds_kind d name).map fun _ _ _ => Operand.isOf_of_unkinded rfl
  | unit symbol rank m => exact Operand.adds_kinded rfl (Kinded.adds_ofDimension _ _)
  | combine o a b =>
    refine hs.adds_operand a fun x hx hxr => hs.adds_operand b fun y hy hyr => ?_
    rw [dimension?, hx, hy]
    exact Operand.adds_combine o hxr hyr
  | unary u a =>
    refine hs.adds_operand a fun x hx hxr => ?_
    rw [dimension?, hx]
    exact adds_lift (Operand.yields_unary u hxr)
  | apply f a =>
    refine hs.adds_operand a fun x hx hxr => ?_
    rw [dimension?, hx]
    exact Operand.adds_apply places f x
  | construct i a =>
    refine hs.adds_operand a fun x hx hxr => ?_
    rw [dimension?]
    cases hk : s.kinds.all[i]? with
    | none => exact adds_lift (yields_error _)
    | some k =>
      have hfind := hs.distinct.find?_eq (List.mem_of_getElem? hk) (same_refl k.dimension)
      exact adds_lift ((Operand.yields_construct hfind x).map fun _ hl =>
        Operand.isOf_kinded rfl hl)

/-- After a call all kinds are still there, and the session is still sound. -/
theorem Sound.after (hs : s.Sound) (places : Int) (c : Call) :
    s.kinds.Grows (s.after places c).kinds ∧ (s.after places c).Sound := by
  obtain ⟨u, ks, hu, hgrows, hresult⟩ := hs.adds_perform places c
  have hmade : ∀ k ∈ s.made, k.Registered ks := fun k hk => hgrows.find? (hs.registered k hk)
  rw [Session.after, hu]
  split
  · next k ks' he =>
    cases he
    refine ⟨hgrows, hgrows.distinct hs.distinct, fun l hl => ?_⟩
    rcases List.mem_append.mp hl with hl | hl
    · exact hmade l hl
    · rw [List.mem_singleton.mp hl]
      exact (hresult _ rfl).registered k rfl
  · next he =>
    cases he
    exact ⟨hgrows, hgrows.distinct hs.distinct, hmade⟩

/-! ### What all calls keep -/

theorem Sound.foldl (hs : s.Sound) (places : Int) (cs : List Call) :
    s.kinds.Grows (cs.foldl (Session.after places) s).kinds ∧
      (cs.foldl (Session.after places) s).Sound := by
  induction cs generalizing s with
  | nil => exact ⟨.refl s.kinds, hs⟩
  | cons c cs ih =>
    obtain ⟨hgrows, hafter⟩ := hs.after places c
    exact ⟨hgrows.trans (ih hafter).1, (ih hafter).2⟩

end Session

end UnitCalculus
