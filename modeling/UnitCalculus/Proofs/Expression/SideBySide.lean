import Mathlib.Data.List.Forall2
import UnitCalculus.Expression
import UnitCalculus.Proofs.Outcome

/-! # Readers side by side

Two lists of tokens are read in two scopes.  If their tokens stand in a relation under which they are
of one kind, with one text and one value, and symbols resolve to the same quantity in both scopes
(`Beside`), then every reader ends alike on both: with the same quantity and rests that stand in the
relation, or with faults that do (`alike_product`, `lockstep_ofTokens`).  What the relations of
tokens and faults are is left open: they may forget the positions, or the other symbols of the
tables. -/

namespace UnitCalculus

/-- The tokens differ at most in their positions. -/
structure Token.Alike (t t' : Token) : Prop where
  kind : t.kind = t'.kind
  text : t.text = t'.text
  value : t.value = t'.value

namespace Expression

/-- In the two scopes, tokens that are related by `T` are read alike, up to faults that are related
by `F`. -/
structure Beside (T : Token → Token → Prop) (F : Fault → Fault → Prop) (s s' : Scope) : Prop where
  alike : ∀ {t t'}, T t t' → t.Alike t'
  resolve : ∀ {t t'}, T t t' → t.kind = .symbol → Lockstep F Eq (resolve s t) (resolve s' t')
  fault : ∀ {t t'}, T t t' → ∀ c, F (s.fault c t.position) (s'.fault c t'.position)
  endFault : F s.endFault s'.endFault
  same : ∀ f, F f f

variable {T : Token → Token → Prop} {F : Fault → Fault → Prop} {s s' : Scope}

/-- The readers end alike on tokens that are related. -/
def ReadAlike {α : Type} (T : Token → Token → Prop) (F : Fault → Fault → Prop) (R : α → α → Prop)
    (r r' : Reader α) : Prop :=
  ∀ ts ts', List.Forall₂ T ts ts' →
    Lockstep F (fun p p' => R p.1 p'.1 ∧ List.Forall₂ T p.2 p'.2) (r ts) (r' ts')

namespace Beside

theorem unexpected (h : Beside T F s s') {t t' : Token} (ht : T t t') (ks : List TokenKind) :
    F (s.unexpected t ks) (s'.unexpected t' ks) := by
  unfold Scope.unexpected
  rw [(h.alike ht).text]
  exact h.fault ht _

/-! ### Exponents -/

theorem alike_integer (h : Beside T F s s') :
    ReadAlike T F (fun p p' => p.1 = p'.1 ∧ T p.2 p'.2) (integer s) (integer s') := by
  intro ts ts' hts
  cases hts with
  | nil => exact .error h.endFault
  | @cons t t' ts ts' ht hts =>
    have halike := h.alike ht
    unfold integer
    dsimp only
    rw [halike.kind, halike.value]
    split
    · split
      · exact .ok ⟨⟨rfl, ht⟩, hts⟩
      · rw [halike.text]
        exact .error (h.fault ht _)
    · exact .error (h.unexpected ht _)

theorem alike_denominator (h : Beside T F s s') :
    ReadAlike T F Eq (denominator s) (denominator s') := by
  intro ts ts' hts
  cases hts with
  | nil => exact .ok ⟨rfl, .nil⟩
  | @cons slash slash' ts ts' hslash hts =>
    cases hts with
    | nil => exact .ok ⟨rfl, .cons hslash .nil⟩
    | @cons d d' ts ts' hd hts =>
      unfold denominator
      dsimp only
      rw [(h.alike hslash).kind, (h.alike hd).kind]
      split
      · refine (h.alike_integer _ _ (.cons hd hts)).bind ?_
        rintro ⟨⟨n, t⟩, rest⟩ ⟨⟨n', t'⟩, rest'⟩ ⟨⟨rfl, ht⟩, hrest⟩
        dsimp only
        split
        · exact .error (h.fault ht _)
        · exact .ok ⟨rfl, hrest⟩
      · exact .ok ⟨rfl, .cons hslash (.cons hd hts)⟩

theorem alike_rational (h : Beside T F s s') : ReadAlike T F Eq (rational s) (rational s') := by
  intro ts ts' hts
  refine (h.alike_integer ts ts' hts).bind ?_
  rintro ⟨⟨n, t⟩, rest⟩ ⟨⟨n', t'⟩, rest'⟩ ⟨⟨rfl, -⟩, hrest⟩
  refine (h.alike_denominator _ _ hrest).bind ?_
  rintro ⟨d, rest⟩ ⟨d', rest'⟩ ⟨rfl, hrest⟩
  exact .ok ⟨rfl, hrest⟩

theorem alike_exponent? (h : Beside T F s s') : ReadAlike T F Eq (exponent? s) (exponent? s') := by
  intro ts ts' hts
  cases hts with
  | nil => exact .ok ⟨rfl, .nil⟩
  | @cons t t' ts ts' ht hts =>
    unfold exponent?
    dsimp only
    rw [(h.alike ht).kind]
    split
    · cases hts with
      | nil => exact .error h.endFault
      | @cons n n' ts ts' hn hts =>
        dsimp only
        rw [(h.alike hn).kind]
        split
        · refine (h.alike_rational _ _ (.cons hn hts)).bind ?_
          rintro ⟨q, rest⟩ ⟨q', rest'⟩ ⟨rfl, hrest⟩
          exact .ok ⟨rfl, hrest⟩
        · exact .error (h.unexpected hn _)
    · refine (h.alike_rational _ _ (.cons ht hts)).bind ?_
      rintro ⟨q, rest⟩ ⟨q', rest'⟩ ⟨rfl, hrest⟩
      exact .ok ⟨rfl, hrest⟩
    · exact .ok ⟨rfl, .cons ht hts⟩

/-! ### Factors -/

theorem alike_close (h : Beside T F s s') : ReadAlike T F Eq (close s) (close s') := by
  intro ts ts' hts
  cases hts with
  | nil => exact .error h.endFault
  | @cons t t' ts ts' ht hts =>
    unfold close
    dsimp only
    rw [(h.alike ht).kind]
    split
    · exact .ok ⟨rfl, hts⟩
    · exact .error (h.unexpected ht _)

variable {group group' : Reader Quantity}

theorem alike_unit (h : Beside T F s s') (hg : ReadAlike T F Eq group group') :
    ReadAlike T F Eq (unit s group) (unit s' group') := by
  intro ts ts' hts
  cases hts with
  | nil => exact .ok ⟨rfl, .nil⟩
  | @cons t t' ts ts' ht hts =>
    have hkind := (h.alike ht).kind
    unfold unit
    dsimp only
    cases hsymbol : t.kind <;> rw [hsymbol] at hkind <;> rw [← hkind] <;> dsimp only
    case lparen =>
      refine (hg _ _ hts).bind ?_
      rintro ⟨q, rest⟩ ⟨q', rest'⟩ ⟨rfl, hrest⟩
      refine (h.alike_close _ _ hrest).bind ?_
      rintro ⟨_, rest⟩ ⟨_, rest'⟩ ⟨-, hrest⟩
      exact .ok ⟨rfl, hrest⟩
    case symbol =>
      refine (h.resolve ht hsymbol).bind ?_
      rintro q _ rfl
      exact .ok ⟨rfl, hts⟩
    all_goals exact .error (h.unexpected ht _)

theorem alike_factor (h : Beside T F s s') (hg : ReadAlike T F Eq group group') :
    ReadAlike T F Eq (factor s group) (factor s' group') := by
  intro ts ts' hts
  refine (h.alike_unit hg ts ts' hts).bind ?_
  rintro ⟨q, rest⟩ ⟨q', rest'⟩ ⟨rfl, hrest⟩
  refine (h.alike_exponent? _ _ hrest).bind ?_
  rintro ⟨e, rest⟩ ⟨e', rest'⟩ ⟨rfl, hrest⟩
  cases e with
  | none => exact .ok ⟨rfl, hrest⟩
  | some e =>
    dsimp only
    cases q.pow e with
    | error f => exact .error (h.same f)
    | ok q => exact .ok ⟨rfl, hrest⟩

/-! ### Products -/

theorem alike_operator (h : Beside T F s s') : ReadAlike T F Eq (operator s) (operator s') := by
  intro ts ts' hts
  cases hts with
  | nil => exact .error h.endFault
  | @cons t t' ts ts' ht hts =>
    unfold operator
    dsimp only
    rw [(h.alike ht).kind]
    cases hts with
    | nil => cases t'.kind <;> first | exact .error h.endFault | exact .ok ⟨rfl, .cons ht .nil⟩
    | cons hu hus =>
      cases t'.kind <;>
        first | exact .ok ⟨rfl, .cons hu hus⟩ | exact .ok ⟨rfl, .cons ht (.cons hu hus)⟩

theorem ends_eq (h : Beside T F s s') (grouped : Bool) {ts ts' : List Token}
    (hts : List.Forall₂ T ts ts') : ends grouped ts = ends grouped ts' := by
  cases hts with
  | nil => rfl
  | cons ht _ => simp [ends, (h.alike ht).kind]

theorem alike_moreFactors (h : Beside T F s s') (hg : ReadAlike T F Eq group group')
    (grouped : Bool) (rounds : Nat) (q : Quantity) :
    ReadAlike T F Eq (moreFactors s group grouped rounds q)
      (moreFactors s' group' grouped rounds q) := by
  induction rounds generalizing q with
  | zero => exact fun ts ts' hts => .ok ⟨rfl, hts⟩
  | succ rounds ih =>
    intro ts ts' hts
    unfold moreFactors
    rw [h.ends_eq grouped hts]
    split
    · exact .ok ⟨rfl, hts⟩
    · refine (h.alike_operator _ _ hts).bind ?_
      rintro ⟨o, rest⟩ ⟨o', rest'⟩ ⟨rfl, hrest⟩
      refine (h.alike_factor hg _ _ hrest).bind ?_
      rintro ⟨r, rest⟩ ⟨r', rest'⟩ ⟨rfl, hrest⟩
      dsimp only
      cases q.withQuantity o r with
      | error f => exact .error (h.same f)
      | ok q => exact ih q _ _ hrest

theorem alike_product (h : Beside T F s s') (depth : Nat) (grouped : Bool) :
    ReadAlike T F Eq (product s depth grouped) (product s' depth grouped) := by
  induction depth generalizing grouped with
  | zero => exact fun ts ts' hts => .ok ⟨rfl, hts⟩
  | succ depth ih =>
    intro ts ts' hts
    refine (h.alike_factor (ih true) _ _ hts).bind ?_
    rintro ⟨q, rest⟩ ⟨q', rest'⟩ ⟨rfl, hrest⟩
    dsimp only at hrest ⊢
    rw [hrest.length_eq]
    exact h.alike_moreFactors (ih true) grouped _ q _ _ hrest

/-- Tokens that are related stand for the same quantity, or are refused with related faults. -/
theorem lockstep_ofTokens (h : Beside T F s s') {ts ts' : List Token}
    (hts : List.Forall₂ T ts ts') : Lockstep F Eq (ofTokens s ts) (ofTokens s' ts') := by
  unfold ofTokens
  rw [hts.length_eq]
  refine (h.alike_product _ _ _ _ hts).bind ?_
  rintro ⟨q, rest⟩ ⟨q', rest'⟩ ⟨rfl, -⟩
  exact .ok rfl

end Beside

end Expression

end UnitCalculus
