import Mathlib.Data.List.SplitBy
import UnitCalculus.Expression.Lexer
import UnitCalculus.Proofs.Decimal.Digits
import UnitCalculus.Proofs.Outcome

/-! # The tokens of a text, piece by piece

A text may be cut where a character does not continue the run of the one before it; its tokens are
then those of the pieces (`lexFrom_append`).  A run of symbol characters is one symbol, a run that
holds an integer is one integer, and a sign or a parenthesis is a token of its own. -/

namespace UnitCalculus.Token

/-- The tokens of characters that stand in a text from a position on. -/
def lexFrom (text : String) (position : Nat) (cs : List Char) :
    Except ExpressionFault (List Token) :=
  ofBlocks text position (blocks cs)

theorem lex_eq_lexFrom (text : String) : lex text = lexFrom text 0 text.toList := rfl

variable {text : String} {n : Nat} {cs ds : List Char} {ts us : List Token}

theorem ofBlocks_append {bs bs' : List (List Char)} (h : ofBlocks text n bs = .ok ts)
    (h' : ofBlocks text (n + bs.flatten.length) bs' = .ok us) :
    ofBlocks text n (bs ++ bs') = .ok (ts ++ us) := by
  induction bs generalizing n ts with
  | nil =>
    cases h
    exact h'
  | cons b bs ih =>
    obtain ⟨t, hblock, h⟩ := bind_eq_ok h
    obtain ⟨ts', hrest, h⟩ := bind_eq_ok h
    cases h
    have hmore := ih hrest (by simpa [Nat.add_assoc] using h')
    rw [List.cons_append, ofBlocks, hblock, ok_bind, hmore, ok_bind]
    exact congrArg Except.ok (List.append_assoc ..).symm

/-- No run goes on from the first characters into the others. -/
def Apart (cs ds : List Char) : Prop :=
  ∀ x ∈ cs.getLast?, ∀ y ∈ ds.head?, continues x y = false

theorem lexFrom_append (h : Apart cs ds) (hcs : lexFrom text n cs = .ok ts)
    (hds : lexFrom text (n + cs.length) ds = .ok us) :
    lexFrom text n (cs ++ ds) = .ok (ts ++ us) := by
  unfold lexFrom blocks
  rw [List.splitBy_append h]
  refine ofBlocks_append hcs ?_
  rw [List.flatten_splitBy]
  exact hds

/-! ### Runs -/

/-- All the characters belong to runs of the kind. -/
def IsRun (k : TokenKind) (cs : List Char) : Prop := ∀ c ∈ cs, runKind? c = some k

instance (k : TokenKind) (cs : List Char) : Decidable (IsRun k cs) :=
  List.decidableBAll (fun c => runKind? c = some k) cs

variable {k : TokenKind}

theorem IsRun.apart (h : IsRun k cs) (hd : ∀ c ∈ ds.head?, runKind? c ≠ some k) :
    Apart cs ds := by
  intro x hx y hy
  have hx' := h x (List.mem_of_getLast? hx)
  simp only [continues, hx', Bool.and_eq_false_imp]
  intro _
  exact beq_eq_false_iff_ne.mpr fun heq => hd y hy heq.symm

theorem IsRun.apart_before (h : IsRun k ds) (hc : ∀ c ∈ cs.getLast?, runKind? c ≠ some k) :
    Apart cs ds := by
  intro x hx y hy
  have hy' := h y (List.mem_of_mem_head? hy)
  simp only [continues, hy', Bool.and_eq_false_imp]
  exact fun _ => beq_eq_false_iff_ne.mpr (hc x hx)

theorem IsRun.blocks (h : IsRun k cs) (hne : cs ≠ []) : blocks cs = [cs] := by
  refine List.splitBy_of_isChain hne ?_
  refine (List.pairwise_iff_forall_sublist.mpr ?_).isChain
  intro x y hxy
  have hx := h x (hxy.subset (by simp))
  have hy := h y (hxy.subset (by simp))
  simp [continues, hx, hy]

theorem IsRun.head (h : IsRun k cs) (hne : cs ≠ []) : cs.head?.bind blockKind? = some k := by
  obtain ⟨c, cs, rfl⟩ := List.exists_cons_of_ne_nil hne
  simp [blockKind?, h c List.mem_cons_self]

theorem lexFrom_symbol (h : IsRun .symbol cs) (hne : cs ≠ []) :
    lexFrom text n cs = .ok [⟨.symbol, String.ofList cs, n, none⟩] := by
  rw [lexFrom, h.blocks hne, ofBlocks, ofBlock?, h.head hne]
  rfl

theorem lexFrom_integer (h : IsRun .integer cs) (hne : cs ≠ []) {v : Int}
    (hv : integerValue? (ordinary cs) = some v) :
    lexFrom text n cs = .ok [⟨.integer, String.ofList cs, n, some v⟩] := by
  rw [lexFrom, h.blocks hne, ofBlocks, ofBlock?, h.head hne]
  simp only [hasValue, if_true, hv]
  rfl

theorem ordinary?_of_isIntegerChar {c : Char} (h : isIntegerChar c = true) :
    ordinary? c = none := by
  unfold ordinary?
  split
  all_goals first | rfl | exact absurd h (by decide)

theorem ordinary_eq_self (h : ∀ c ∈ cs, isIntegerChar c = true) : ordinary cs = cs := by
  unfold ordinary
  refine (List.map_congr_left fun c hc => ?_).trans cs.map_id
  rw [ordinary?_of_isIntegerChar (h c hc)]
  rfl

theorem isIntegerChar_of_mem_toString {v : Int} {c : Char} (hc : c ∈ (toString v).toList) :
    isIntegerChar c = true := by
  rw [Decimal.toList_toString] at hc
  rcases List.mem_append.mp hc with hc | hc
  · split at hc
    · rw [List.mem_singleton.mp hc]
      decide
    · cases hc
  · simp [isIntegerChar, Decimal.isDigit_of_mem_toDigits hc]

theorem isRun_toString (v : Int) : IsRun .integer (toString v).toList := by
  intro c hc
  rw [runKind?, if_pos (isIntegerChar_of_mem_toString hc)]

theorem toList_toString_ne_nil (v : Int) : (toString v).toList ≠ [] := by
  rw [Decimal.toList_toString]
  exact List.append_ne_nil_of_right_ne_nil _ Nat.toDigits_ne_nil

theorem lexFrom_toString {v : Int} (hv : Decimal.isWritable v = true) :
    lexFrom text n (toString v).toList = .ok [⟨.integer, toString v, n, some v⟩] := by
  have hvalue : integerValue? (ordinary (toString v).toList) = some v := by
    rw [ordinary_eq_self fun _ hc => isIntegerChar_of_mem_toString hc]
    exact integerValue?_toString hv
  rw [lexFrom_integer (isRun_toString v) (toList_toString_ne_nil v) hvalue, String.ofList_toList]

/-! ### Single characters -/

theorem apart_of_runKind?_none {c : Char} (h : runKind? c = none) : Apart [c] ds := by
  intro x hx y _
  obtain rfl : c = x := by simpa using hx
  simp [continues, h]

theorem lexFrom_single {c : Char} (hrun : runKind? c = none) (hk : singleKind? c = some k)
    (hv : hasValue k = false) :
    lexFrom text n [c] = .ok [⟨k, String.ofList [c], n, none⟩] := by
  have hblock : ofBlock? text n [c] = .ok (some ⟨k, String.ofList [c], n, none⟩) := by
    simp [ofBlock?, blockKind?, hrun, hk, hv]
  rw [lexFrom, show blocks [c] = [[c]] from rfl, ofBlocks, hblock]
  rfl

theorem lexFrom_blank {c : Char} (hrun : runKind? c = none) (hk : singleKind? c = none) :
    lexFrom text n [c] = .ok [] := by
  have hblock : ofBlock? text n [c] = .ok none := by simp [ofBlock?, blockKind?, hrun, hk]
  rw [lexFrom, show blocks [c] = [[c]] from rfl, ofBlocks, hblock]
  rfl

end UnitCalculus.Token
