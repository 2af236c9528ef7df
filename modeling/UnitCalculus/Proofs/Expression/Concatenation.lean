import UnitCalculus.Proofs.Expression.Spans

/-! # The tokens of texts written one after another

Where a block stands changes the positions of what is found in it and nothing else (`lexFrom_eq`).
So a text that is cut where no run goes on has the tokens of its two parts, those of the second
moved by the length of the first, and has tokens only if both parts have (`lex_append_iff`).  No run
goes on into or out of a sign, a parenthesis or a blank: two texts with such characters between them
are read apart, and every token may be written apart from the others (`lex_separated`). -/

namespace UnitCalculus.Token

open Text

variable {text : String} {n : Nat} {as bs cs ds : List Char} {ts : List Token}

/-! ### Blocks at other places -/

/-- The token, further on by a number of characters. -/
def shift (n : Nat) (t : Token) : Token :=
  { t with position := n + t.position }

/-- What was found in a text, where that text stands in another one from a position on. -/
def moved (text : String) (n : Nat) :
    Except ExpressionFault (List Token) → Except ExpressionFault (List Token)
  | .ok ts => .ok (ts.map (shift n))
  | .error e => .error ⟨e.cause, text, n + e.position⟩

theorem moved_eq_ok_iff {x : Except ExpressionFault (List Token)} :
    moved text n x = .ok ts ↔ ∃ us, x = .ok us ∧ ts = us.map (shift n) := by
  cases x with
  | error e => simp [moved]
  | ok us => simp [moved, eq_comm]

theorem shift_zero (t : Token) : shift 0 t = t := by
  rw [shift, Nat.zero_add]

/-- Moving a block moves its token, or its fault. -/
theorem ofBlock?_moved (text text' : String) (m n : Nat) (b : List Char) :
    ofBlock? text' (m + n) b = match ofBlock? text n b with
      | .ok t => .ok (t.map (shift m))
      | .error e => .error ⟨e.cause, text', m + e.position⟩ := by
  unfold ofBlock?
  split
  · rfl
  · split
    · split <;> rfl
    · rfl

theorem ofBlocks_moved (text text' : String) (m n : Nat) (bs : List (List Char)) :
    ofBlocks text' (m + n) bs = moved text' m (ofBlocks text n bs) := by
  induction bs generalizing n with
  | nil => rfl
  | cons b bs ih =>
    rw [ofBlocks, ofBlocks, ofBlock?_moved text text', Nat.add_assoc, ih]
    cases ofBlock? text n b with
    | error e => rfl
    | ok t =>
      cases ofBlocks text (n + b.length) bs with
      | error e => rfl
      | ok ts => cases t <;> rfl

/-- What is found in characters within a text is what is found in them alone. -/
theorem lexFrom_eq (text : String) (n : Nat) (cs : List Char) :
    lexFrom text n cs = moved text n (lex (String.ofList cs)) := by
  rw [lex_eq_lexFrom, String.toList_ofList]
  exact ofBlocks_moved _ text n 0 _

theorem lexFrom_eq_ok_iff :
    lexFrom text n cs = .ok ts ↔ ∃ us, lex (String.ofList cs) = .ok us ∧ ts = us.map (shift n) := by
  rw [lexFrom_eq, moved_eq_ok_iff]

/-! ### Texts cut in two -/

theorem Apart.append_right (hne : ds ≠ []) (h : Apart cs ds) : Apart cs (ds ++ bs) := by
  intro x hx y hy
  rw [List.head?_append_of_ne_nil _ hne] at hy
  exact h x hx y hy

theorem Apart.append_left (hne : cs ≠ []) (h : Apart cs ds) : Apart (as ++ cs) ds := by
  intro x hx y hy
  rw [List.getLast?_append_of_ne_nil _ hne] at hx
  exact h x hx y hy

theorem ofBlocks_append_eq_ok {bs bs' : List (List Char)}
    (h : ofBlocks text n (bs ++ bs') = .ok ts) :
    ∃ us vs, ofBlocks text n bs = .ok us ∧ ofBlocks text (n + bs.flatten.length) bs' = .ok vs ∧
      ts = us ++ vs := by
  induction bs generalizing n ts with
  | nil => exact ⟨[], ts, rfl, h, rfl⟩
  | cons b bs ih =>
    obtain ⟨t, hblock, h⟩ := bind_eq_ok h
    obtain ⟨ts', hrest, h⟩ := bind_eq_ok h
    cases h
    obtain ⟨us, vs, hus, hvs, rfl⟩ := ih hrest
    refine ⟨t.toList ++ us, vs, ?_, ?_, (List.append_assoc ..).symm⟩
    · rw [ofBlocks, hblock, ok_bind, hus]
      rfl
    · rwa [List.flatten_cons, List.length_append, ← Nat.add_assoc]

/-- Characters that are cut where no run goes on have the tokens of the two parts. -/
theorem lexFrom_append_iff (h : Apart cs ds) :
    lexFrom text n (cs ++ ds) = .ok ts ↔
      ∃ us vs, lexFrom text n cs = .ok us ∧ lexFrom text (n + cs.length) ds = .ok vs ∧
        ts = us ++ vs := by
  constructor
  · intro hlex
    unfold lexFrom blocks at hlex
    rw [List.splitBy_append h] at hlex
    obtain ⟨us, vs, hus, hvs, rfl⟩ := ofBlocks_append_eq_ok hlex
    rw [List.flatten_splitBy] at hvs
    exact ⟨us, vs, hus, hvs, rfl⟩
  · rintro ⟨us, vs, hus, hvs, rfl⟩
    exact lexFrom_append h hus hvs

theorem lex_append_iff {a b : String} (h : Apart a.toList b.toList) :
    lex (a ++ b) = .ok ts ↔
      ∃ us vs, lex a = .ok us ∧ lex b = .ok vs ∧ ts = us ++ vs.map (shift a.length) := by
  rw [lex_eq_lexFrom, String.toList_append, lexFrom_append_iff h]
  simp only [lexFrom_eq_ok_iff, String.ofList_toList, Nat.zero_add, String.length_toList]
  constructor
  · rintro ⟨-, -, ⟨us, hus, rfl⟩, ⟨vs, hvs, rfl⟩, rfl⟩
    exact ⟨us, vs, hus, hvs, by rw [List.map_congr_left fun t _ => shift_zero t, List.map_id']⟩
  · rintro ⟨us, vs, hus, hvs, rfl⟩
    refine ⟨us, vs.map (shift a.length), ⟨us, hus, ?_⟩, ⟨vs, hvs, rfl⟩, rfl⟩
    rw [List.map_congr_left fun t _ => shift_zero t, List.map_id']

/-! ### Separators -/

/-- Whether the character is blank, or a token of its own. -/
def isSeparator (c : Char) : Bool := isBlank c || (singleKind? c).isSome

theorem runKind?_of_singleKind? {c : Char} {k : TokenKind} (h : singleKind? c = some k) :
    runKind? c = none := by
  unfold singleKind? at h
  split at h <;> first | decide | cases h

theorem runKind?_of_isSeparator {c : Char} (h : isSeparator c = true) : runKind? c = none := by
  rcases Bool.or_eq_true_iff.mp h with h | h
  · exact runKind?_of_isBlank h
  · obtain ⟨k, hk⟩ := Option.isSome_iff_exists.mp h
    exact runKind?_of_singleKind? hk

theorem apart_of_runKind?_none_right {c : Char} (h : runKind? c = none) : Apart cs (c :: ds) := by
  intro x _ y hy
  obtain rfl : c = y := by simpa using hy
  cases hx : runKind? x <;> simp [continues, hx, h]

/-- Separators are apart from whatever comes before and after them. -/
theorem apart_of_isSeparator {s : List Char} (hne : s ≠ []) (hs : ∀ c ∈ s, isSeparator c = true) :
    Apart cs s ∧ Apart (cs ++ s) ds := by
  constructor
  · obtain ⟨c, s, rfl⟩ := List.exists_cons_of_ne_nil hne
    exact apart_of_runKind?_none_right (runKind?_of_isSeparator (hs c List.mem_cons_self))
  · intro x hx y _
    rw [List.getLast?_append_of_ne_nil _ hne] at hx
    simp [continues, runKind?_of_isSeparator (hs x (List.mem_of_getLast? hx))]

/-- Separators are tokens or blanks one by one, so there is no fault in them. -/
theorem exists_lexFrom_separators (hs : ∀ c ∈ cs, isSeparator c = true) :
    ∃ ts, lexFrom text n cs = .ok ts := by
  induction cs generalizing n with
  | nil => exact ⟨[], rfl⟩
  | cons c cs ih =>
    have hrun := runKind?_of_isSeparator (hs c List.mem_cons_self)
    obtain ⟨ts, hts⟩ := @ih (n + 1) fun d hd => hs d (List.mem_cons_of_mem c hd)
    cases hk : singleKind? c with
    | none => exact ⟨_, lexFrom_append (apart_of_runKind?_none hrun) (lexFrom_blank hrun hk) hts⟩
    | some k =>
      have hvalue : hasValue k = false := by
        have := isRunKind_of_singleKind? hk
        cases k <;> simp_all [isRunKind, hasValue]
      exact ⟨_, lexFrom_append (apart_of_runKind?_none hrun) (lexFrom_single hrun hk hvalue) hts⟩

/-! ### Tokens written apart -/

/-- A token of a text is the only token of its characters. -/
theorem lex_text_of_mem {t : Token} (h : lex text = .ok ts) (ht : t ∈ ts) :
    ∃ u, lex t.text = .ok [u] ∧ t.Alike u := by
  obtain ⟨as, b, ds, hblocks, hblock⟩ := exists_block_of_mem h ht
  obtain ⟨hposition, rfl, -⟩ := ofBlock?_eq_some hblock
  have hmem : t.text.toList ∈ blocks text.toList := by
    rw [hblocks]
    simp
  have halone : blocks t.text.toList = [t.text.toList] := by
    rcases shape_of_mem_blocks hmem with ⟨hne, k, hrun⟩ | ⟨c, hc, -⟩
    · exact hrun.blocks hne
    · rw [hc]
      rfl
  -- The block has the same token at the start of its own text.
  have hmoved := ofBlock?_moved t.text text t.position 0 t.text.toList
  rw [← hposition] at hblock
  rw [Nat.add_zero, hblock] at hmoved
  cases hstart : ofBlock? t.text 0 t.text.toList with
  | error e =>
    rw [hstart] at hmoved
    cases hmoved
  | ok u =>
    rw [hstart] at hmoved
    dsimp only at hmoved
    obtain ⟨u, rfl, hu⟩ := Option.map_eq_some_iff.mp (Except.ok.inj hmoved).symm
    refine ⟨u, ?_, ?_⟩
    · rw [lex, halone, ofBlocks, hstart]
      rfl
    · rw [← hu]
      exact ⟨rfl, rfl, rfl⟩

/-- Texts with one token each are read one by one when they are written with spaces between. -/
theorem lex_intercalate (h : ∀ t ∈ ts, ∃ u, lex t.text = .ok [u] ∧ t.Alike u) :
    ∃ us, lex (" ".intercalate (ts.map Token.text)) = .ok us ∧ List.Forall₂ Alike ts us := by
  induction ts with
  | nil => exact ⟨[], rfl, .nil⟩
  | cons t ts ih =>
    obtain ⟨u, hu, htu⟩ := h t List.mem_cons_self
    obtain ⟨us, hus, hall⟩ := ih fun x hx => h x (List.mem_cons_of_mem t hx)
    cases ts with
    | nil =>
      cases hall
      exact ⟨[u], hu, .cons htu .nil⟩
    | cons v ts =>
      have hspace : lexFrom " " 0 [' '] = .ok [] := lexFrom_blank (by decide) (by decide)
      have hblank : ∀ c ∈ [' '], isSeparator c = true := by simp [isSeparator, isBlank]
      obtain ⟨hbefore, hafter⟩ : Apart t.text.toList [' '] ∧
          Apart (t.text.toList ++ [' ']) (" ".intercalate ((v :: ts).map Token.text)).toList :=
        apart_of_isSeparator (by simp) hblank
      have hfirst := (lex_append_iff hbefore).mpr ⟨[u], [], hu, hspace, rfl⟩
      have hwhole := (lex_append_iff (by rwa [String.toList_append])).mpr
        ⟨_, us, hfirst, hus, rfl⟩
      refine ⟨u :: us.map (shift (t.text ++ " ").length), ?_, .cons htu ?_⟩
      · rw [List.map_cons, List.map_cons, String.intercalate_cons_cons]
        exact hwhole
      · refine List.forall₂_map_right_iff.mpr (hall.imp fun x y hxy => ?_)
        exact ⟨hxy.kind, hxy.text, hxy.value⟩

/-- **Texts with separators between them are read apart.**  They have tokens together exactly if
each of them has, and these are the tokens of the first, those of the separators and those of the
second, moved to where they stand.  So the tokens of a text, written with single spaces between
them, are read as the same tokens again. -/
theorem lex_separated :
    (∀ a s b : String, s ≠ "" → (∀ c ∈ s.toList, isSeparator c = true) →
      ((∃ ws, lex (a ++ s ++ b) = .ok ws) ↔ (∃ ts, lex a = .ok ts) ∧ ∃ us, lex b = .ok us) ∧
      ∀ ts us, lex a = .ok ts → lex b = .ok us → ∃ vs, lex s = .ok vs ∧
        lex (a ++ s ++ b) =
          .ok (ts ++ vs.map (shift a.length) ++ us.map (shift (a.length + s.length)))) ∧
    ∀ text ts, lex text = .ok ts →
      ∃ us, lex (" ".intercalate (ts.map Token.text)) = .ok us ∧ List.Forall₂ Alike ts us := by
  refine ⟨fun a s b hne hs => ?_, fun text ts h => lex_intercalate fun t ht => lex_text_of_mem h ht⟩
  obtain ⟨hbefore, hafter⟩ : Apart a.toList s.toList ∧ Apart (a.toList ++ s.toList) b.toList :=
    apart_of_isSeparator (by simpa using hne) hs
  rw [← String.toList_append] at hafter
  obtain ⟨vs, hvs⟩ : ∃ vs, lex s = .ok vs := exists_lexFrom_separators hs
  have htokens : ∀ ts us, lex a = .ok ts → lex b = .ok us →
      lex (a ++ s ++ b) =
        .ok (ts ++ vs.map (shift a.length) ++ us.map (shift (a.length + s.length))) := by
    intro ts us hts hus
    have hfirst := (lex_append_iff hbefore).mpr ⟨ts, vs, hts, hvs, rfl⟩
    rw [← String.length_append]
    exact (lex_append_iff hafter).mpr ⟨_, us, hfirst, hus, rfl⟩
  refine ⟨⟨?_, ?_⟩, fun ts us hts hus => ⟨vs, hvs, htokens ts us hts hus⟩⟩
  · rintro ⟨ws, hws⟩
    obtain ⟨xs, us, hxs, hus, -⟩ := (lex_append_iff hafter).mp hws
    obtain ⟨ts, -, hts, -, -⟩ := (lex_append_iff hbefore).mp hxs
    exact ⟨⟨ts, hts⟩, us, hus⟩
  · rintro ⟨⟨ts, hts⟩, us, hus⟩
    exact ⟨_, htokens ts us hts hus⟩

theorem lex_separated_molar : " /(" ≠ "" ∧ (∀ c ∈ " /(".toList, isSeparator c = true) ∧
    lex "mmol" = .ok [⟨.symbol, "mmol", 0, none⟩] ∧ lex "L⁻¹" =
      .ok [⟨.symbol, "L", 0, none⟩, ⟨.supinteger, "⁻¹", 1, some (-1)⟩] ∧
    (∃ vs, lex " /(" = .ok vs ∧ lex "mmol /(L⁻¹" =
      .ok (⟨.symbol, "mmol", 0, none⟩ :: (vs.map (shift 4) ++
        [⟨.symbol, "L", 7, none⟩, ⟨.supinteger, "⁻¹", 8, some (-1)⟩]))) ∧
    ∃ us, lex "L ⁻¹" = .ok us ∧ List.Forall₂ Alike
      [⟨.symbol, "L", 0, none⟩, ⟨.supinteger, "⁻¹", 1, some (-1)⟩] us := by
  have hseparators : ∀ c ∈ " /(".toList, isSeparator c = true := by
    simp [isSeparator, isBlank, singleKind?]
  have hmole : lex "mmol" = .ok [⟨.symbol, "mmol", 0, none⟩] := by decide +kernel
  have hlitre : lex "L⁻¹" =
      .ok [⟨.symbol, "L", 0, none⟩, ⟨.supinteger, "⁻¹", 1, some (-1)⟩] := by decide +kernel
  obtain ⟨hapart, hspaced⟩ := lex_separated
  obtain ⟨-, htokens⟩ := hapart "mmol" " /(" "L⁻¹" (by decide) hseparators
  exact ⟨by decide, hseparators, hmole, hlitre, htokens _ _ hmole hlitre, hspaced _ _ hlitre⟩

end UnitCalculus.Token
