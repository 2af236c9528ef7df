import UnitCalculus.Proofs.Expression.Positions
import UnitCalculus.Proofs.Expression.Symbols

/-! # Where the tokens lie in their text

Tokens are laid out on a text one after another, with nothing but blanks between them:
`Laid n cs ts` builds such a layout from position `n` on, blank by blank and token by token, and what
follows from it is that every token is a slice of the text, that the slices are in order and do not
meet, and that they hold the characters that are no blanks.

A block of a text is a whole run or one character outside the runs (`shape_of_mem_blocks`), and no
run goes on beyond its block (`apart_of_blocks_eq`).  Together this says what the tokens of a text
are (`isCut_of_lex`). -/

namespace UnitCalculus

open Text

namespace Token

variable {text : String} {n : Nat} {cs : List Char} {ts : List Token} {t : Token}

/-- The position after the last character of the token. -/
def stop (t : Token) : Nat := t.position + t.text.length

theorem stop_eq (t : Token) : t.stop = t.position + t.text.toList.length := by
  rw [stop, String.length_toList]

/-! ### Blocks -/

theorem isBlank_of_runKind? {c : Char} {k : TokenKind} (h : runKind? c = some k) :
    isBlank c = false := by
  by_contra hc
  rw [runKind?_of_isBlank (by simpa using hc)] at h
  cases h

theorem isBlank_of_singleKind? {c : Char} {k : TokenKind} (h : singleKind? c = some k) :
    isBlank c = false := by
  by_contra hc
  rw [singleKind?_of_isBlank (by simpa using hc)] at h
  cases h

/-- A character that belongs to no run and is no token of its own is blank. -/
theorem isBlank_of_kindless {c : Char} (hrun : runKind? c = none) (hsingle : singleKind? c = none) :
    isBlank c = true := by
  unfold runKind? at hrun
  split at hrun
  · cases hrun
  · split at hrun
    · cases hrun
    · split at hrun
      · next h => simpa [hsingle] using h
      · cases hrun

theorem isIntegerChar_of_runKind? {c : Char} (h : runKind? c = some .integer) :
    isIntegerChar c = true := by
  unfold runKind? at h
  split at h
  · next hc => exact hc
  · split at h
    · cases h
    · split at h <;> cases h

/-- A block is a whole run, or a character outside the runs. -/
theorem shape_of_mem_blocks {b : List Char} (hb : b ∈ blocks cs) :
    (b ≠ [] ∧ ∃ k, IsRun k b) ∨ ∃ c, b = [c] ∧ runKind? c = none := by
  obtain ⟨c, r, rfl⟩ := List.exists_cons_of_ne_nil (List.ne_nil_of_mem_splitBy hb)
  cases hc : runKind? c with
  | some k => exact .inl ⟨by simp, k, isRun_of_mem_blocks hb List.mem_cons_self hc⟩
  | none =>
    have hchain := List.isChain_of_mem_splitBy hb
    cases r with
    | nil => exact .inr ⟨c, rfl, hc⟩
    | cons d r =>
      rw [List.isChain_cons_cons] at hchain
      simp [continues, hc] at hchain

/-- A block is a token without blanks, or a blank. -/
theorem visible_of_mem_blocks {b : List Char} (hb : b ∈ blocks cs) :
    (∃ k, b.head?.bind blockKind? = some k ∧ ∀ c ∈ b, isBlank c = false) ∨
      b.head?.bind blockKind? = none ∧ ∃ c, b = [c] ∧ isBlank c = true := by
  rcases shape_of_mem_blocks hb with ⟨hne, k, hrun⟩ | ⟨c, rfl, hc⟩
  · exact .inl ⟨k, hrun.head hne, fun c hc => isBlank_of_runKind? (hrun c hc)⟩
  · cases hs : singleKind? c with
    | some k =>
      refine .inl ⟨k, by simp [blockKind?, hc, hs], fun d hd => ?_⟩
      rw [List.mem_singleton.mp hd]
      exact isBlank_of_singleKind? hs
    | none =>
      exact .inr ⟨by simp [blockKind?, hc, hs], c, rfl, isBlank_of_kindless hc hs⟩

/-- No run goes on from the characters before a block into it, or from it into those after it. -/
theorem apart_of_blocks_eq {as ds : List (List Char)} {b : List Char}
    (h : blocks cs = as ++ b :: ds) : Apart as.flatten b ∧ Apart b ds.flatten := by
  have hne : ∀ m ∈ as ++ b :: ds, m ≠ [] := by
    intro m hm
    rw [← h] at hm
    exact List.ne_nil_of_mem_splitBy hm
  have hchain := List.isChain_getLast_head_splitBy continues cs
  rw [show cs.splitBy continues = as ++ b :: ds from h, List.isChain_append] at hchain
  obtain ⟨-, hafter, hbefore⟩ := hchain
  constructor
  · intro x hx y hy
    obtain ⟨as', a, rfl⟩ : ∃ as' a, as = as' ++ [a] := by
      rcases List.eq_nil_or_concat as with rfl | ⟨as', a, rfl⟩
      · cases hx
      · exact ⟨as', a, List.concat_eq_append⟩
    have ha : a ≠ [] := hne a (by simp)
    obtain ⟨_, _, hcut⟩ := hbefore a (by simp) b (by simp)
    rw [List.flatten_append, List.flatten_singleton, List.getLast?_append_of_ne_nil _ ha,
      List.getLast?_eq_some_getLast ha, Option.mem_some_iff] at hx
    rw [List.head?_eq_some_head (hne b (by simp)), Option.mem_some_iff] at hy
    rwa [hx, hy] at hcut
  · intro x hx y hy
    cases ds with
    | nil => cases hy
    | cons d ds =>
      rw [List.isChain_cons_cons] at hafter
      obtain ⟨⟨hb, hd, hcut⟩, -⟩ := hafter
      rw [List.getLast?_eq_some_getLast hb, Option.mem_some_iff] at hx
      rw [List.flatten_cons, List.head?_append_of_ne_nil _ hd, List.head?_eq_some_head hd,
        Option.mem_some_iff] at hy
      rwa [hx, hy] at hcut

/-! ### The token of a block -/

theorem ofBlock?_eq_some {b : List Char} (h : ofBlock? text n b = .ok (some t)) :
    t.position = n ∧ t.text.toList = b ∧ b.head?.bind blockKind? = some t.kind ∧
      (hasValue t.kind = true → ∃ v, integerValue? (ordinary b) = some v ∧ t.value = some v) ∧
      (hasValue t.kind = false → t.value = none) := by
  unfold ofBlock? at h
  split at h
  · cases h
  · next k hk =>
    split at h
    · next hvalue =>
      split at h
      · next v hv =>
        cases h
        exact ⟨rfl, String.toList_ofList, hk, fun _ => ⟨v, hv, rfl⟩, fun hno => by simp_all⟩
      · cases h
    · next hvalue =>
      cases h
      exact ⟨rfl, String.toList_ofList, hk, fun hyes => absurd hyes hvalue, fun _ => rfl⟩

theorem ofBlock?_eq_none {b : List Char} (h : ofBlock? text n b = .ok none) :
    b.head?.bind blockKind? = none := by
  unfold ofBlock? at h
  split at h
  · next hk => exact hk
  · split at h
    · split at h <;> cases h
    · cases h

/-- Every token is a block, at the position that the blocks before it leave. -/
theorem exists_block_of_mem {bs : List (List Char)} (h : ofBlocks text n bs = .ok ts)
    (ht : t ∈ ts) : ∃ as b ds, bs = as ++ b :: ds ∧ ofBlock? text (n + as.flatten.length) b = .ok (some t) := by
  induction bs generalizing n ts with
  | nil =>
    cases h
    cases ht
  | cons b bs ih =>
    obtain ⟨u, hblock, h⟩ := bind_eq_ok h
    obtain ⟨us, hrest, h⟩ := bind_eq_ok h
    cases h
    rcases List.mem_append.mp ht with ht | ht
    · refine ⟨[], b, bs, rfl, ?_⟩
      rw [Option.mem_toList.mp ht] at hblock
      exact hblock
    · obtain ⟨as, d, ds, rfl, hd⟩ := ih hrest ht
      refine ⟨b :: as, d, ds, rfl, ?_⟩
      rwa [List.flatten_cons, List.length_append, ← Nat.add_assoc]

/-! ### Layouts -/

/-- The tokens stand in this order on characters that start at a position, between blanks. -/
inductive Laid : Nat → List Char → List Token → Prop
  | nil (n : Nat) : Laid n [] []
  | blank {n : Nat} {c : Char} {cs : List Char} {ts : List Token} (hc : isBlank c = true)
      (h : Laid (n + 1) cs ts) : Laid n (c :: cs) ts
  | token {t : Token} {cs : List Char} {ts : List Token} (hne : t.text.toList ≠ [])
      (hvisible : ∀ c ∈ t.text.toList, isBlank c = false) (h : Laid t.stop cs ts) :
      Laid t.position (t.text.toList ++ cs) (t :: ts)

/-- Blocks lay out their tokens. -/
theorem laid_ofBlocks {bs : List (List Char)} (hbs : ∀ b ∈ bs, b ∈ blocks cs)
    (h : ofBlocks text n bs = .ok ts) : Laid n bs.flatten ts := by
  induction bs generalizing n ts with
  | nil =>
    cases h
    exact .nil n
  | cons b bs ih =>
    obtain ⟨u, hblock, h⟩ := bind_eq_ok h
    obtain ⟨us, hrest, h⟩ := bind_eq_ok h
    cases h
    have hlaid := ih (fun d hd => hbs d (List.mem_cons_of_mem b hd)) hrest
    have hb := hbs b List.mem_cons_self
    rw [List.flatten_cons]
    cases u with
    | none =>
      rcases visible_of_mem_blocks hb with ⟨k, hk, -⟩ | ⟨-, c, rfl, hc⟩
      · rw [ofBlock?_eq_none hblock] at hk
        cases hk
      · exact .blank hc hlaid
    | some u =>
      obtain ⟨hposition, htext, hkind, -⟩ := ofBlock?_eq_some hblock
      rcases visible_of_mem_blocks hb with ⟨k, -, hvisible⟩ | ⟨hnone, -⟩
      · subst hposition htext
        refine .token (List.ne_nil_of_mem_splitBy hb) hvisible ?_
        rwa [stop_eq]
      · rw [hkind] at hnone
        cases hnone

/-- The tokens of a text are laid out on it. -/
theorem laid_of_lex (h : lex text = .ok ts) : Laid 0 text.toList ts := by
  have hlaid := laid_ofBlocks (fun _ hb => hb) h
  rwa [blocks, List.flatten_splitBy] at hlaid

theorem Laid.position_le (h : Laid n cs ts) (ht : t ∈ ts) : n ≤ t.position := by
  induction h with
  | nil => cases ht
  | blank _ _ ih => exact Nat.le_of_succ_le (ih ht)
  | token _ _ _ ih =>
    rcases List.mem_cons.mp ht with rfl | ht
    · exact Nat.le_refl _
    · exact Nat.le_trans (Nat.le_add_right _ _) (ih ht)

theorem Laid.slice (h : Laid n cs ts) (ht : t ∈ ts) :
    t.text.toList ≠ [] ∧ t.text.toList <+: cs.drop (t.position - n) := by
  induction h with
  | nil => cases ht
  | @blank n c cs ts _ h ih =>
    obtain ⟨hne, hslice⟩ := ih ht
    obtain ⟨m, hm⟩ := Nat.exists_eq_add_of_le (h.position_le ht)
    rw [hm, Nat.add_assoc, Nat.add_sub_cancel_left, Nat.add_comm 1 m, List.drop_succ_cons]
    rw [hm, Nat.add_sub_cancel_left] at hslice
    exact ⟨hne, hslice⟩
  | @token u cs ts hne _ h ih =>
    rcases List.mem_cons.mp ht with rfl | ht
    · rw [Nat.sub_self, List.drop_zero]
      exact ⟨hne, List.prefix_append _ _⟩
    · obtain ⟨hne', hslice⟩ := ih ht
      obtain ⟨m, hm⟩ := Nat.exists_eq_add_of_le (h.position_le ht)
      rw [hm, Nat.add_sub_cancel_left] at hslice
      rw [hm, stop_eq, Nat.add_assoc, Nat.add_sub_cancel_left, List.drop_length_add_append]
      exact ⟨hne', hslice⟩

theorem Laid.ordered (h : Laid n cs ts) : ts.Pairwise fun t u => t.stop ≤ u.position := by
  induction h with
  | nil => exact .nil
  | blank _ _ ih => exact ih
  | token _ _ h ih => exact List.pairwise_cons.mpr ⟨fun u hu => h.position_le hu, ih⟩

/-- The characters within the tokens are those that are no blanks. -/
theorem Laid.mem_span_iff (h : Laid n cs ts) {i : Nat} {c : Char} (hc : cs[i]? = some c) :
    (∃ t ∈ ts, t.position ≤ n + i ∧ n + i < t.stop) ↔ isBlank c = false := by
  induction h generalizing i with
  | nil => cases hc
  | @blank n d cs ts hd h ih =>
    cases i with
    | zero =>
      obtain rfl : d = c := by simpa using hc
      rw [hd]
      refine iff_of_false ?_ (by decide)
      rintro ⟨t, ht, hle, -⟩
      have := h.position_le ht
      omega
    | succ i =>
      rw [← ih (i := i) (by simpa using hc), show n + (i + 1) = n + 1 + i by omega]
  | @token u cs ts hne hvisible h ih =>
    have hstop := stop_eq u
    rcases Nat.lt_or_ge i u.text.toList.length with hi | hi
    · rw [List.getElem?_append_left hi] at hc
      refine iff_of_true ⟨u, List.mem_cons_self, by omega, by omega⟩ ?_
      exact hvisible c (List.mem_of_getElem? hc)
    · rw [List.getElem?_append_right hi] at hc
      rw [← ih hc, show u.stop + (i - u.text.toList.length) = u.position + i by omega]
      constructor
      · rintro ⟨t, ht, hle, hlt⟩
        rcases List.mem_cons.mp ht with rfl | ht
        · omega
        · exact ⟨t, ht, hle, hlt⟩
      · rintro ⟨t, ht, hspan⟩
        exact ⟨t, List.mem_cons_of_mem u ht, hspan⟩

/-! ### Integers in text -/

/-- The characters are an integer in decimal notation: a sign, which may be missing, and digits. -/
inductive Denotes : List Char → Int → Prop
  | unsigned {ds : List Char} (hne : ds ≠ []) (hds : ∀ d ∈ ds, d.isDigit = true) :
      Denotes ds (Nat.ofDigitChars 10 ds 0)
  | plus {ds : List Char} (hne : ds ≠ []) (hds : ∀ d ∈ ds, d.isDigit = true) :
      Denotes ('+' :: ds) (Nat.ofDigitChars 10 ds 0)
  | minus {ds : List Char} (hne : ds ≠ []) (hds : ∀ d ∈ ds, d.isDigit = true) :
      Denotes ('-' :: ds) (-(Nat.ofDigitChars 10 ds 0 : Int))

theorem ofDigits_map (ds : List Char) :
    ofDigits (ds.map fun c => c.toNat - '0'.toNat) = Nat.ofDigitChars 10 ds 0 := by
  rw [ofDigits, List.foldl_map, Nat.ofDigitChars_eq_foldl]

theorem leadingSign_cases (cs : List Char) :
    (∃ r, cs = '+' :: r ∧ Decimal.leadingSign cs = (false, r)) ∨
      (∃ r, cs = '-' :: r ∧ Decimal.leadingSign cs = (true, r)) ∨
        Decimal.leadingSign cs = (false, cs) := by
  unfold Decimal.leadingSign
  split
  · next r => exact .inl ⟨r, rfl, rfl⟩
  · next r => exact .inr (.inl ⟨r, rfl, rfl⟩)
  · exact .inr (.inr rfl)

theorem denotes_of_integerValue? {cs : List Char} {v : Int} (h : integerValue? cs = some v) :
    Denotes cs v := by
  -- What is left after the sign is a row of digits, and its value takes the sign.
  have hdigits : ∀ {negative : Bool} {r : List Char}, Decimal.leadingSign cs = (negative, r) →
      r ≠ [] ∧ (∀ d ∈ r, d.isDigit = true) ∧
        v = if negative then -(Nat.ofDigitChars 10 r 0 : Int) else Nat.ofDigitChars 10 r 0 := by
    intro negative r hsign
    unfold integerValue? at h
    rw [hsign] at h
    dsimp only at h
    split at h
    · cases h
    · next hr =>
      unfold Decimal.signedValue at h
      split at h
      · cases h
      · rw [ofDigits_map, Option.some.injEq] at h
        simp only [Bool.or_eq_true, not_or, Bool.not_eq_true, Bool.not_eq_false',
          List.isEmpty_eq_false_iff, List.all_eq_true] at hr
        exact ⟨hr.1, hr.2, h.symm⟩
  rcases leadingSign_cases cs with ⟨r, rfl, hsign⟩ | ⟨r, rfl, hsign⟩ | hsign
  · obtain ⟨hne, hr, rfl⟩ := hdigits hsign
    exact .plus hne hr
  · obtain ⟨hne, hr, rfl⟩ := hdigits hsign
    exact .minus hne hr
  · obtain ⟨hne, hr, rfl⟩ := hdigits hsign
    exact .unsigned hne hr

/-! ### The tokens of a text -/

/-- Whether the tokens of the kind are runs. -/
def isRunKind : TokenKind → Bool
  | .symbol | .integer | .supinteger => true
  | _ => false

theorem isRunKind_of_runKind? {c : Char} {k : TokenKind} (h : runKind? c = some k) :
    isRunKind k = true := by
  unfold runKind? at h
  split at h
  · cases h
    rfl
  · split at h
    · cases h
      rfl
    · split at h
      · cases h
      · cases h
        rfl

theorem isRunKind_of_singleKind? {c : Char} {k : TokenKind} (h : singleKind? c = some k) :
    isRunKind k = false := by
  unfold singleKind? at h
  split at h <;> cases h <;> rfl

/-- The tokens are the text, cut up: nothing but blanks is lost, nothing is there twice, and every
token is what its characters say. -/
structure IsCut (text : String) (ts : List Token) : Prop where
  /-- A token holds the characters of the text at its position, at least one. -/
  slice : ∀ t ∈ ts, t.text ≠ "" ∧
    (text.toList.drop t.position).take t.text.length = t.text.toList
  /-- The tokens come in the order of the text and do not overlap. -/
  ordered : ts.Pairwise fun t u => t.stop ≤ u.position
  /-- A character is in a token unless it is blank. -/
  visible : ∀ i c, text.toList[i]? = some c →
    ((∃ t ∈ ts, t.position ≤ i ∧ i < t.stop) ↔ isBlank c = false)
  /-- Signs and parentheses are single characters of their kind. -/
  single : ∀ t ∈ ts, isRunKind t.kind = false →
    ∃ c, t.text.toList = [c] ∧ singleKind? c = some t.kind
  /-- A run holds only characters of its class, and all of them: its neighbours are of others. -/
  run : ∀ t ∈ ts, isRunKind t.kind = true → IsRun t.kind t.text.toList ∧
    (∀ i c, i + 1 = t.position → text.toList[i]? = some c → runKind? c ≠ some t.kind) ∧
    ∀ c, text.toList[t.stop]? = some c → runKind? c ≠ some t.kind
  /-- The value of an integer is what its characters denote. -/
  integer : ∀ t ∈ ts, t.kind = .integer → ∃ v, t.value = some v ∧ Denotes t.text.toList v
  /-- The value of a superscript integer is what the ordinary characters for it denote. -/
  superscript : ∀ t ∈ ts, t.kind = .supinteger →
    ∃ v, t.value = some v ∧ Denotes (ordinary t.text.toList) v

/-- A run is apart from the character before it if that is of another class, and so after it. -/
theorem runKind?_ne_of_apart {b as ds : List Char} {k : TokenKind} (hrun : IsRun k b)
    (hne : b ≠ []) (hbefore : Apart as b) (hafter : Apart b ds) :
    (∀ c ∈ as.getLast?, runKind? c ≠ some k) ∧ ∀ c ∈ ds.head?, runKind? c ≠ some k := by
  constructor
  · intro c hc hk
    have hcut := hbefore c hc (b.head hne) (List.head_mem_head? hne)
    simp [continues, hk, hrun _ (List.head_mem hne)] at hcut
  · intro c hc hk
    have hcut := hafter (b.getLast hne) (List.getLast_mem_getLast? hne) c hc
    simp [continues, hk, hrun _ (List.getLast_mem hne)] at hcut

/-- A token is a whole run between characters of other classes, or a single character. -/
theorem shape_of_mem_lex (h : lex text = .ok ts) (ht : t ∈ ts) :
    (∃ as ds, text.toList = as ++ (t.text.toList ++ ds) ∧ t.position = as.length ∧
      isRunKind t.kind = true ∧ IsRun t.kind t.text.toList ∧
      (∀ c ∈ as.getLast?, runKind? c ≠ some t.kind) ∧ ∀ c ∈ ds.head?, runKind? c ≠ some t.kind) ∨
    ∃ c, t.text.toList = [c] ∧ singleKind? c = some t.kind ∧ isRunKind t.kind = false := by
  obtain ⟨as, b, ds, hblocks, hblock⟩ := exists_block_of_mem h ht
  obtain ⟨hposition, rfl, hkind, -, -⟩ := ofBlock?_eq_some hblock
  have hmem : t.text.toList ∈ blocks text.toList := by
    rw [hblocks]
    simp
  rcases shape_of_mem_blocks hmem with ⟨hne, k, hrun⟩ | ⟨c, hc, hnone⟩
  · rw [hrun.head hne, Option.some.injEq] at hkind
    subst hkind
    obtain ⟨hbefore, hafter⟩ := apart_of_blocks_eq hblocks
    have hflatten := List.flatten_splitBy continues text.toList
    rw [show text.toList.splitBy continues = _ from hblocks, List.flatten_append,
      List.flatten_cons] at hflatten
    refine .inl ⟨as.flatten, ds.flatten, hflatten.symm, by simpa using hposition,
      isRunKind_of_runKind? (hrun _ (List.head_mem hne)), hrun,
      runKind?_ne_of_apart hrun hne hbefore hafter⟩
  · have hsingle : singleKind? c = some t.kind := by
      simpa [hc, blockKind?, hnone] using hkind
    exact .inr ⟨c, hc, hsingle, isRunKind_of_singleKind? hsingle⟩

/-- The tokens of a text are the text, cut up. -/
theorem isCut_of_lex (text : String) (ts : List Token) (h : lex text = .ok ts) : IsCut text ts where
  slice t ht := by
    obtain ⟨hne, hslice⟩ := (laid_of_lex h).slice ht
    refine ⟨by simpa using hne, ?_⟩
    rw [← String.length_toList]
    exact (List.prefix_iff_eq_take.mp hslice).symm
  ordered := (laid_of_lex h).ordered
  visible i c hc := by
    have hspan := (laid_of_lex h).mem_span_iff hc
    rwa [Nat.zero_add] at hspan
  single t ht hkind := by
    rcases shape_of_mem_lex h ht with ⟨-, -, -, -, hrun, -⟩ | ⟨c, hc, hsingle, -⟩
    · rw [hkind] at hrun
      cases hrun
    · exact ⟨c, hc, hsingle⟩
  run t ht hkind := by
    rcases shape_of_mem_lex h ht with ⟨as, ds, htext, hposition, -, hrun, hbefore, hafter⟩ |
      ⟨c, -, -, hsingle⟩
    · refine ⟨hrun, fun i c hi hc => hbefore c ?_, fun c hc => hafter c ?_⟩
      · rw [htext, List.getElem?_append_left (by omega)] at hc
        rw [List.getLast?_eq_getElem?, show as.length - 1 = i by omega]
        exact hc
      · rw [htext, stop_eq, hposition, ← List.append_assoc, ← List.length_append] at hc
        rwa [List.getElem?_append_right (Nat.le_refl _), Nat.sub_self,
          ← List.head?_eq_getElem?] at hc
    · rw [hkind] at hsingle
      cases hsingle
  integer t ht hkind := by
    obtain ⟨as, b, ds, -, hblock⟩ := exists_block_of_mem h ht
    obtain ⟨-, rfl, -, hvalue, -⟩ := ofBlock?_eq_some hblock
    obtain ⟨v, hv, hvalue⟩ := hvalue (by rw [hkind]; rfl)
    rcases shape_of_mem_lex h ht with ⟨-, -, -, -, -, hrun, -⟩ | ⟨c, -, -, hsingle⟩
    · rw [ordinary_eq_self fun c hc => isIntegerChar_of_runKind? (hkind ▸ hrun c hc)] at hv
      exact ⟨v, hvalue, denotes_of_integerValue? hv⟩
    · rw [hkind] at hsingle
      cases hsingle
  superscript t ht hkind := by
    obtain ⟨as, b, ds, -, hblock⟩ := exists_block_of_mem h ht
    obtain ⟨-, rfl, -, hvalue, -⟩ := ofBlock?_eq_some hblock
    obtain ⟨v, hv, hvalue⟩ := hvalue (by rw [hkind]; rfl)
    exact ⟨v, hvalue, denotes_of_integerValue? hv⟩

/-- The tokens of `kg/(m⋅s⁻²) ^+4`. -/
def stiffnessTokens : List Token :=
  [⟨.symbol, "kg", 0, none⟩, ⟨.div, "/", 2, none⟩, ⟨.lparen, "(", 3, none⟩,
    ⟨.symbol, "m", 4, none⟩, ⟨.mul, "⋅", 5, none⟩, ⟨.symbol, "s", 6, none⟩,
    ⟨.supinteger, "⁻²", 7, some (-2)⟩, ⟨.rparen, ")", 9, none⟩, ⟨.exp, "^", 11, none⟩,
    ⟨.integer, "+4", 12, some 4⟩]

theorem isCut_stiffness : lex "kg/(m⋅s⁻²) ^+4" = .ok stiffnessTokens ∧
    IsCut "kg/(m⋅s⁻²) ^+4" stiffnessTokens := by
  have hlex : lex "kg/(m⋅s⁻²) ^+4" = .ok stiffnessTokens := by decide +kernel
  exact ⟨hlex, isCut_of_lex _ _ hlex⟩

end Token

end UnitCalculus
