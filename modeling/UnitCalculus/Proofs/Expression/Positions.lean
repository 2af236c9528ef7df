import UnitCalculus.Proofs.Expression.Lexing
import UnitCalculus.Proofs.Expression.SideBySide

/-! # Positions in the text

What a unit expression stands for does not depend on where its tokens are in the text: on tokens
that differ in their positions the readers end with the same quantity, or with faults that differ in
their texts and positions (`beside_texts`).  Blanks are no tokens and stand in no token, so that they
can be taken away from both ends of a text (`lockstep_readUnit_trim`). -/

namespace UnitCalculus

open Text

/-! ### Tokens and faults at other places -/

/-- The faults are the same, or faults of expressions with the same cause. -/
inductive Fault.Alike : Fault → Fault → Prop
  | expression {e e' : ExpressionFault} (h : e.cause = e'.cause) :
      Alike (.expression e) (.expression e')
  | same (f : Fault) : Alike f f

theorem Token.Alike.of_right {t u v : Token} (h : t.Alike v) (h' : u.Alike v) : t.Alike u :=
  ⟨h.kind.trans h'.kind.symm, h.text.trans h'.text.symm, h.value.trans h'.value.symm⟩

theorem Fault.Alike.of_right {f g k : Fault} (h : f.Alike k) (h' : g.Alike k) : f.Alike g := by
  cases h with
  | expression h =>
    cases h' with
    | expression h' => exact .expression (h.trans h'.symm)
    | same => exact .expression h
  | same =>
    cases h' with
    | expression h' => exact .expression h'.symm
    | same => exact .same _

theorem lockstep_self {α : Type} (x : Except Fault α) : Lockstep Fault.Alike Eq x x := by
  cases x with
  | error f => exact .error (.same f)
  | ok a => exact .ok rfl

theorem forall₂_of_right {ts us vs : List Token} (h : List.Forall₂ Token.Alike ts vs)
    (h' : List.Forall₂ Token.Alike us vs) : List.Forall₂ Token.Alike ts us := by
  induction h generalizing us with
  | nil =>
    cases h'
    exact .nil
  | cons ht _ ih =>
    cases h' with
    | cons hu hus => exact .cons (ht.of_right hu) (ih hus)

theorem Lockstep.of_right {x y z : Except Fault (List Token)}
    (h : Lockstep Fault.Alike (List.Forall₂ Token.Alike) x z)
    (h' : Lockstep Fault.Alike (List.Forall₂ Token.Alike) y z) :
    Lockstep Fault.Alike (List.Forall₂ Token.Alike) x y := by
  cases h with
  | ok h =>
    cases h' with
    | ok h' => exact .ok (forall₂_of_right h h')
  | error h =>
    cases h' with
    | error h' => exact .error (h.of_right h')

namespace Token

/-! ### Blocks without a token -/

/-- Whether a block is a token. -/
def isVisible (b : List Char) : Bool := (b.head?.bind blockKind?).isSome

theorem singleKind?_of_isBlank {c : Char} (h : isBlank c = true) : singleKind? c = none := by
  unfold singleKind?
  split
  all_goals first | rfl | exact absurd h (by decide)

theorem ordinary?_of_isBlank {c : Char} (h : isBlank c = true) : ordinary? c = none := by
  unfold ordinary?
  split
  all_goals first | rfl | exact absurd h (by decide)

theorem isIntegerChar_of_isBlank {c : Char} (h : isBlank c = true) : isIntegerChar c = false := by
  rw [Bool.eq_false_iff]
  intro hc
  simp only [isIntegerChar, Bool.or_eq_true, beq_iff_eq] at hc
  rcases hc with (hc | rfl) | rfl
  · simp only [Char.isDigit, Bool.and_eq_true, decide_eq_true_eq, UInt32.le_iff_toNat_le] at hc
    simp only [isBlank, Bool.or_eq_true, Bool.and_eq_true, decide_eq_true_eq, beq_iff_eq] at h
    have h48 : '0'.val.toNat = 48 := rfl
    have h57 : '9'.val.toNat = 57 := rfl
    have : c.toNat = c.val.toNat := rfl
    omega
  · exact absurd h (by decide)
  · exact absurd h (by decide)

theorem runKind?_of_isBlank {c : Char} (h : isBlank c = true) : runKind? c = none := by
  simp [runKind?, isIntegerChar_of_isBlank h, ordinary?_of_isBlank h, h]

theorem isVisible_blank {c : Char} (h : isBlank c = true) : isVisible [c] = false := by
  simp [isVisible, blockKind?, runKind?_of_isBlank h, singleKind?_of_isBlank h]

theorem visible_trimLeft (cs : List Char) :
    (blocks (trimLeft cs)).filter isVisible = (blocks cs).filter isVisible := by
  induction cs with
  | nil => rfl
  | cons c cs ih =>
    by_cases hc : isBlank c = true
    · have hsplit : blocks (c :: cs) = [c] :: blocks cs :=
        List.splitBy_append (apart_of_runKind?_none (runKind?_of_isBlank hc))
      rw [trimLeft, List.dropWhile_cons_of_pos hc, hsplit,
        List.filter_cons_of_neg (by simp [isVisible_blank hc])]
      exact ih
    · rw [trimLeft, List.dropWhile_cons_of_neg hc]

theorem visible_trimRight (cs : List Char) :
    (blocks (trimRight cs)).filter isVisible = (blocks cs).filter isVisible := by
  induction cs using List.reverseRecOn with
  | nil => rfl
  | append_singleton cs c ih =>
    by_cases hc : isBlank c = true
    · have hapart : Apart cs [c] := by
        intro x _ y hy
        obtain rfl : c = y := by simpa using hy
        cases hx : runKind? x <;> simp [continues, hx, runKind?_of_isBlank hc]
      have hsplit : blocks (cs ++ [c]) = blocks cs ++ [[c]] := List.splitBy_append hapart
      rw [trimRight_concat hc, hsplit, List.filter_append, ih,
        List.filter_cons_of_neg (by simp [isVisible_blank hc]), List.filter_nil, List.append_nil]
    · rw [trimRight_eq_self (by simpa using hc)]

/-- Blanks at the ends of a text are no tokens. -/
theorem visible_trimBlank (cs : List Char) :
    (blocks (trimBlank cs)).filter isVisible = (blocks cs).filter isVisible := by
  rw [trimBlank, visible_trimRight, visible_trimLeft]

/-! ### The tokens of blocks -/

/-- The tokens of blocks, the faults as those of the library. -/
def readBlocks (text : String) (n : Nat) (bs : List (List Char)) : Except Fault (List Token) :=
  match ofBlocks text n bs with
  | .ok ts => .ok ts
  | .error e => .error (.expression e)

theorem readBlocks_cons_none {text : String} {n : Nat} {b : List Char} (bs : List (List Char))
    (h : ofBlock? text n b = .ok none) :
    readBlocks text n (b :: bs) = readBlocks text (n + b.length) bs := by
  unfold readBlocks
  rw [ofBlocks, h, ok_bind]
  cases ofBlocks text (n + b.length) bs <;> rfl

theorem readBlocks_cons_some {text : String} {n : Nat} {b : List Char} {t : Token}
    (bs : List (List Char)) (h : ofBlock? text n b = .ok (some t)) :
    readBlocks text n (b :: bs) =
      (readBlocks text (n + b.length) bs >>= fun ts => .ok (t :: ts)) := by
  unfold readBlocks
  rw [ofBlocks, h, ok_bind]
  cases ofBlocks text (n + b.length) bs <;> rfl

theorem readBlocks_cons_error {text : String} {n : Nat} {b : List Char} {e : ExpressionFault}
    (bs : List (List Char)) (h : ofBlock? text n b = .error e) :
    readBlocks text n (b :: bs) = .error (.expression e) := by
  unfold readBlocks
  rw [ofBlocks, h]
  rfl

/-- The tokens of blocks depend on those that are visible, but for their positions. -/
theorem lockstep_readBlocks (text text' : String) (n n' : Nat) (bs : List (List Char)) :
    Lockstep Fault.Alike (List.Forall₂ Alike) (readBlocks text n bs)
      (readBlocks text' n' (bs.filter isVisible)) := by
  induction bs generalizing n n' with
  | nil => exact .ok .nil
  | cons b bs ih =>
    cases hkind : b.head?.bind blockKind? with
    | none =>
      have hblock : ofBlock? text n b = .ok none := by rw [ofBlock?, hkind]
      rw [List.filter_cons_of_neg (by simp [isVisible, hkind]), readBlocks_cons_none bs hblock]
      exact ih _ _
    | some k =>
      rw [List.filter_cons_of_pos (by simp [isVisible, hkind])]
      -- Both blocks are tokens without a value, tokens with a value, or no integers.
      by_cases hvalue : hasValue k = true
      · cases hint : integerValue? (ordinary b) with
        | none =>
          have hblock (text : String) (n : Nat) :
              ofBlock? text n b = .error ⟨.malformedInteger (String.ofList b), text, n⟩ := by
            rw [ofBlock?, hkind]
            simp only [hvalue, if_true, hint]
          rw [readBlocks_cons_error bs (hblock ..), readBlocks_cons_error _ (hblock ..)]
          exact .error (.expression rfl)
        | some v =>
          have hblock (text : String) (n : Nat) :
              ofBlock? text n b = .ok (some ⟨k, String.ofList b, n, some v⟩) := by
            rw [ofBlock?, hkind]
            simp only [hvalue, if_true, hint]
          rw [readBlocks_cons_some bs (hblock ..), readBlocks_cons_some _ (hblock ..)]
          exact (ih _ _).bind fun ts ts' hts => .ok (.cons ⟨rfl, rfl, rfl⟩ hts)
      · have hblock (text : String) (n : Nat) :
            ofBlock? text n b = .ok (some ⟨k, String.ofList b, n, none⟩) := by
          rw [ofBlock?, hkind]
          simp only [hvalue]
          rfl
        rw [readBlocks_cons_some bs (hblock ..), readBlocks_cons_some _ (hblock ..)]
        exact (ih _ _).bind fun ts ts' hts => .ok (.cons ⟨rfl, rfl, rfl⟩ hts)

end Token

namespace Expression

open Token

/-! ### Unit expressions -/

/-- Tokens that differ in their positions are read alike in the two texts. -/
theorem beside_texts (table : UnitTable) (text text' : String) :
    Beside Token.Alike Fault.Alike ⟨table, text⟩ ⟨table, text'⟩ where
  alike h := h
  resolve h _ := by
    unfold resolve
    dsimp only
    rw [h.text]
    split
    · exact .ok rfl
    · exact .error (.expression rfl)
    · exact .error (.same _)
  fault _ _ := .expression rfl
  endFault := .expression rfl
  same := .same

theorem tokens_eq_readBlocks (text : String) :
    tokens text = readBlocks text 0 (blocks text.toList) := rfl

theorem lockstep_tokens_trim (text : String) :
    Lockstep Fault.Alike (List.Forall₂ Token.Alike) (tokens text) (tokens (trim text)) := by
  have htrim : (trim text).toList = trimBlank text.toList := String.toList_ofList
  have hwhole := lockstep_readBlocks text text 0 0 (blocks text.toList)
  have hinner := lockstep_readBlocks (trim text) text 0 0 (blocks (trim text).toList)
  have hvisible : (blocks (trim text).toList).filter isVisible =
      (blocks text.toList).filter isVisible := by rw [htrim, visible_trimBlank]
  rw [hvisible, ← tokens_eq_readBlocks] at hinner
  rw [← tokens_eq_readBlocks] at hwhole
  exact hwhole.of_right hinner

/-- Blanks around a unit expression change nothing but the positions in the faults. -/
theorem lockstep_readUnit_trim (table : UnitTable) (text : String) :
    Lockstep Fault.Alike Eq (readUnit table text) (readUnit table (trim text)) :=
  (lockstep_tokens_trim text).bind fun _ _ h =>
    (beside_texts table text (trim text)).lockstep_ofTokens h

end Expression

end UnitCalculus
