import UnitCalculus.Proofs.Expression.Concatenation
import UnitCalculus.Proofs.Expression.Respelt

/-! # Spelling does not matter

One text may be written in many ways: with one multiplication sign or another, or with a blank
instead; with a sign between two factors that stand next to each other, or without; with a power
after `^` or in superscript characters; with a plus sign before an integer, or without; with more
blanks.  Each of these changes one place of the text (`Respelling`).

Changing one place leaves the tokens before and after it as they are, only moved.  What the place
holds becomes another token, or one token more or less, and since the text is an expression, the
tokens next to it are known well enough to see that no run goes on into the new characters
(`exists_respelt`).  So the tokens of the two texts spell the same, and are read as the same
quantity (`readUnit_respelling`). -/

namespace UnitCalculus

open Text

variable {text text' : String} {n n' : ℕ} {as bs cs ds : List Char} {ts us : List Token}

namespace Token

/-! ### Integers -/

/-- The characters are an integer of the kind, with the value. -/
structure Numeral (k : TokenKind) (cs : List Char) (v : Int) : Prop where
  hasValue : hasValue k = true
  isRun : IsRun k cs
  ne_nil : cs ≠ []
  value : integerValue? (ordinary cs) = some v

variable {k : TokenKind} {v : Int}

theorem Numeral.lexFrom (h : Numeral k cs v) :
    lexFrom text n cs = .ok [⟨k, String.ofList cs, n, some v⟩] := by
  rw [Token.lexFrom, h.isRun.blocks h.ne_nil, ofBlocks, ofBlock?, h.isRun.head h.ne_nil]
  simp only [h.hasValue, if_true, h.value]
  rfl

/-- The value of digits is their value with a plus sign before them. -/
theorem integerValue?_plus (hne : ds ≠ []) (hds : ∀ d ∈ ds, d.isDigit = true) :
    integerValue? ('+' :: ds) = integerValue? ds := by
  obtain ⟨d, ds, rfl⟩ := List.exists_cons_of_ne_nil hne
  unfold integerValue?
  rw [Decimal.leadingSign_of_isDigit (hds d List.mem_cons_self)]
  rfl

/-- A plus sign, ordinary or superscript, may stand before digits. -/
theorem Numeral.plus {c : Char} (h : Numeral k cs v) (hdigits : ∀ d ∈ ordinary cs, d.isDigit = true)
    (hrun : runKind? c = some k) (hc : ordinary [c] = ['+']) : Numeral k (c :: cs) v := by
  refine ⟨h.hasValue, List.forall_mem_cons.mpr ⟨hrun, h.isRun⟩, List.cons_ne_nil _ _, ?_⟩
  have hne : ordinary cs ≠ [] := List.map_eq_nil_iff.not.mpr h.ne_nil
  rw [← List.singleton_append, ordinary, List.map_append, ← ordinary, ← ordinary, hc,
    List.singleton_append, integerValue?_plus hne hdigits, h.value]

theorem isIntegerChar_of_ordinary? {c d : Char} (h : ordinary? c = some d) :
    isIntegerChar d = true := by
  unfold ordinary? at h
  split at h <;> first | cases h; rfl | cases h

/-- Superscript characters are an integer if the ordinary ones are, and the same one. -/
theorem numeral_supinteger_iff (hrun : IsRun .supinteger cs) :
    Numeral .supinteger cs v ↔ Numeral .integer (ordinary cs) v := by
  have hordinary : ∀ c ∈ ordinary cs, isIntegerChar c = true := by
    intro c hc
    obtain ⟨d, hd, rfl⟩ := List.mem_map.mp hc
    have hkind := hrun d hd
    unfold runKind? at hkind
    split at hkind
    · cases hkind
    · split at hkind
      · next hsome =>
        obtain ⟨e, he⟩ := Option.isSome_iff_exists.mp hsome
        rw [he]
        exact isIntegerChar_of_ordinary? he
      · split at hkind <;> cases hkind
  have hself := ordinary_eq_self hordinary
  constructor
  · intro h
    refine ⟨rfl, fun c hc => ?_, List.map_eq_nil_iff.not.mpr h.ne_nil, by rw [hself, h.value]⟩
    rw [runKind?, if_pos (hordinary c hc)]
  · intro h
    exact ⟨rfl, hrun, List.map_eq_nil_iff.not.mp h.ne_nil, by rw [← hself, h.value]⟩

/-! ### Where no run goes on -/

theorem apart_nil_left : Apart [] ds := by
  intro x hx
  cases hx

/-- What a run does not continue, no run of the kind continues. -/
theorem IsRun.apart_congr_right (hcs : IsRun k cs) (hds : IsRun k ds) (hne : cs ≠ [])
    (h : Apart as cs) : Apart as ds := by
  intro x hx y hy
  have hcut := h x hx _ (List.head?_eq_some_head hne)
  rw [continues, hcs _ (List.head_mem hne)] at hcut
  rw [continues, hds y (List.mem_of_mem_head? hy), hcut]

theorem IsRun.apart_congr_left (hcs : IsRun k cs) (hds : IsRun k ds) (hne : cs ≠ [])
    (h : Apart cs bs) : Apart ds bs := by
  intro x hx y hy
  have hcut := h _ (List.getLast?_eq_some_getLast hne) y hy
  rw [continues, hcs _ (List.getLast_mem hne)] at hcut
  rw [continues, hds x (List.mem_of_getLast? hx), hcut]

theorem exists_of_ofBlock?_eq_ok {b : List Char} {t : Option Token}
    (h : ofBlock? text n b = .ok t) (hk : b.head?.bind blockKind? = some k) :
    ∃ u, t = some u ∧ u.kind = k := by
  cases t with
  | none =>
    rw [ofBlock?_eq_none h] at hk
    cases hk
  | some u =>
    obtain ⟨-, -, hkind, -⟩ := ofBlock?_eq_some h
    exact ⟨u, rfl, Option.some.inj (hkind.symm.trans hk)⟩

/-- The characters of a run that a text starts with are its first token. -/
theorem kind_of_head? {c : Char} (h : lexFrom text n cs = .ok ts) (hc : c ∈ cs.head?)
    (hk : runKind? c = some k) : ∃ t ∈ ts.head?, t.kind = k := by
  have hflat := List.flatten_splitBy continues cs
  cases hblocks : blocks cs with
  | nil =>
    rw [← hflat, ← blocks, hblocks] at hc
    cases hc
  | cons b rest =>
    have hb : b ∈ blocks cs := by simp [hblocks]
    have hne := List.ne_nil_of_mem_splitBy hb
    rw [← hflat, ← blocks, hblocks, List.flatten_cons, List.head?_append_of_ne_nil _ hne] at hc
    have hhead := (isRun_of_mem_blocks hb (List.mem_of_mem_head? hc) hk).head hne
    rw [Token.lexFrom, hblocks] at h
    obtain ⟨t, hblock, h⟩ := bind_eq_ok h
    obtain ⟨us, hrest, h⟩ := bind_eq_ok h
    cases h
    obtain ⟨u, rfl, hkind⟩ := exists_of_ofBlock?_eq_ok hblock hhead
    exact ⟨u, rfl, hkind⟩

/-- The characters of a run that a text ends with are its last token. -/
theorem kind_of_getLast? {c : Char} (h : lexFrom text n cs = .ok ts) (hc : c ∈ cs.getLast?)
    (hk : runKind? c = some k) : ∃ t ∈ ts.getLast?, t.kind = k := by
  have hflat := List.flatten_splitBy continues cs
  rcases List.eq_nil_or_concat (blocks cs) with hblocks | ⟨rest, b, hblocks⟩
  · rw [← hflat, ← blocks, hblocks] at hc
    cases hc
  · rw [List.concat_eq_append] at hblocks
    have hb : b ∈ blocks cs := by simp [hblocks]
    have hne := List.ne_nil_of_mem_splitBy hb
    rw [← hflat, ← blocks, hblocks, List.flatten_append, List.flatten_singleton,
      List.getLast?_append_of_ne_nil _ hne] at hc
    have hhead := (isRun_of_mem_blocks hb (List.mem_of_getLast? hc) hk).head hne
    rw [Token.lexFrom, hblocks] at h
    obtain ⟨us, vs, -, hlast, rfl⟩ := ofBlocks_append_eq_ok h
    obtain ⟨t, hblock, hlast⟩ := bind_eq_ok hlast
    cases hlast
    obtain ⟨u, rfl, hkind⟩ := exists_of_ofBlock?_eq_ok hblock hhead
    exact ⟨u, by simp, hkind⟩

/-- A run does not go on into characters whose first token is of another kind. -/
theorem IsRun.apart_of_head? (hcs : IsRun k cs) (hds : lexFrom text n ds = .ok us)
    (h : ∀ u ∈ us.head?, u.kind ≠ k) : Apart cs ds := by
  refine hcs.apart fun c hc hk => ?_
  obtain ⟨u, hu, hkind⟩ := kind_of_head? hds hc hk
  exact h u hu hkind

theorem IsRun.apart_of_getLast? (hds : IsRun k ds) (hcs : lexFrom text n cs = .ok ts)
    (h : ∀ t ∈ ts.getLast?, t.kind ≠ k) : Apart cs ds := by
  refine hds.apart_before fun c hc hk => ?_
  obtain ⟨t, ht, hkind⟩ := kind_of_getLast? hcs hc hk
  exact h t ht hkind

/-! ### One place of a text -/

theorem lexFrom_blanks (h : ∀ c ∈ cs, isBlank c = true) : lexFrom text n cs = .ok [] := by
  induction cs generalizing n with
  | nil => rfl
  | cons c cs ih =>
    have hc := h c List.mem_cons_self
    have hrun := runKind?_of_isBlank hc
    have hrest := @ih (n + 1) fun d hd => h d (List.mem_cons_of_mem c hd)
    exact lexFrom_append (apart_of_runKind?_none hrun)
      (lexFrom_blank hrun (singleKind?_of_isBlank hc)) hrest

theorem apart_of_blanks (hne : cs ≠ []) (h : ∀ c ∈ cs, isBlank c = true) :
    Apart as (cs ++ bs) ∧ Apart cs bs := by
  have hseparators : ∀ c ∈ cs, isSeparator c = true := fun c hc => by simp [isSeparator, h c hc]
  obtain ⟨hleft, -⟩ : Apart as cs ∧ Apart (as ++ cs) bs := apart_of_isSeparator hne hseparators
  obtain ⟨-, hright⟩ : Apart [] cs ∧ Apart ([] ++ cs) bs := apart_of_isSeparator hne hseparators
  exact ⟨hleft.append_right hne, hright⟩

/-- The tokens of a power that is written after its sign. -/
theorem exists_lexFrom_power (text : String) (n : ℕ) {w : List Char}
    (hw : ∀ c ∈ w, isBlank c = true) (hds : Numeral .integer ds v) :
    ∃ hat i, lexFrom text n ('^' :: w ++ ds) = .ok [hat, i] ∧
      hat.kind = .exp ∧ i.kind = .integer ∧ i.value = some v := by
  have hhat : lexFrom text n ('^' :: w) = .ok [⟨.exp, "^", n, none⟩] :=
    lexFrom_append (apart_of_runKind?_none (by decide)) (lexFrom_single (by decide) rfl rfl)
      (lexFrom_blanks hw)
  have hapart : Apart ('^' :: w) ds := by
    intro x hx y _
    have hrun : runKind? x = none := by
      rcases List.mem_cons.mp (List.mem_of_getLast? hx) with rfl | hx
      · decide
      · exact runKind?_of_isBlank (hw x hx)
    simp [continues, hrun]
  exact ⟨_, _, lexFrom_append hapart hhat hds.lexFrom, rfl, rfl, rfl⟩

theorem exists_pieces (hleft : Apart as (cs ++ bs)) (hright : Apart cs bs)
    (h : lexFrom text 0 (as ++ (cs ++ bs)) = .ok ts) :
    ∃ before piece after, lexFrom text 0 as = .ok before ∧ lexFrom text as.length cs = .ok piece ∧
      lexFrom text (as.length + cs.length) bs = .ok after ∧ ts = before ++ (piece ++ after) := by
  obtain ⟨before, rest, hbefore, hrest, rfl⟩ := (lexFrom_append_iff hleft).mp h
  rw [Nat.zero_add] at hrest
  obtain ⟨piece, after, hpiece, hafter, rfl⟩ := (lexFrom_append_iff hright).mp hrest
  exact ⟨before, piece, after, hbefore, hpiece, hafter, rfl⟩

end Token

namespace Expression

open Token
open UnitCalculus.Expression.Derivation

/-! ### Respellings -/

/-- A factor ends where the first characters do, and one starts where the others do. -/
structure Juxtaposed (as bs : List Char) : Prop where
  apart : Apart as bs
  before : ∃ ts, lex (String.ofList as) = .ok ts ∧ ∃ t ∈ ts.getLast?, closes t.kind = true
  after : ∃ ts, lex (String.ofList bs) = .ok ts ∧ ∃ t ∈ ts.head?, Starts t

/-- The second text is the first one with one place of it written differently. -/
inductive Respelling : List Char → List Char → Prop
  /-- One multiplication sign for another, or one division sign for another. -/
  | sign {as bs : List Char} {c d : Char} {k : TokenKind} (hk : k = .mul ∨ k = .div)
      (hc : singleKind? c = some k) (hd : singleKind? d = some k) :
      Respelling (as ++ ([c] ++ bs)) (as ++ ([d] ++ bs))
  /-- Blanks for a multiplication sign. -/
  | blank {as w bs : List Char} {c : Char} (hc : singleKind? c = some .mul) (hne : w ≠ [])
      (hw : ∀ x ∈ w, isBlank x = true) : Respelling (as ++ ([c] ++ bs)) (as ++ (w ++ bs))
  /-- A multiplication sign between two factors. -/
  | juxtaposed {as bs : List Char} {c : Char} (hc : singleKind? c = some .mul)
      (h : Juxtaposed as bs) : Respelling (as ++ bs) (as ++ ([c] ++ bs))
  /-- A power in superscript characters. -/
  | raise {as w n m bs : List Char} {v : Int} (hw : ∀ x ∈ w, isBlank x = true)
      (hn : Numeral .integer n v) (hm : Numeral .supinteger m v) (hafter : Apart n bs) :
      Respelling (as ++ (('^' :: w ++ n) ++ bs)) (as ++ (m ++ bs))
  /-- A power in ordinary characters. -/
  | lower {as w n m bs : List Char} {v : Int} (hw : ∀ x ∈ w, isBlank x = true)
      (hn : Numeral .integer n v) (hm : Numeral .supinteger m v) (hbefore : Apart as m)
      (hafter : Apart m bs) : Respelling (as ++ (m ++ bs)) (as ++ (('^' :: w ++ n) ++ bs))
  /-- An integer with a plus sign or without, or in any other way with the same value. -/
  | integer {as n m bs : List Char} {k : TokenKind} {v : Int} (hn : Numeral k n v)
      (hm : Numeral k m v) (hbefore : Apart as n) (hafter : Apart n bs) :
      Respelling (as ++ (n ++ bs)) (as ++ (m ++ bs))
  /-- Blanks where one token or blank ends and another starts. -/
  | gap {as w bs : List Char} (hw : ∀ x ∈ w, isBlank x = true) (hcut : Apart as bs) :
      Respelling (as ++ bs) (as ++ (w ++ bs))

/-! ### The tokens of a respelt text -/

/-- The same characters are read as the same words in another place. -/
theorem exists_moved (text' : String) (n' : ℕ) (h : lexFrom text n cs = .ok ts) :
    ∃ us, lexFrom text' n' cs = .ok us ∧ List.Forall₂ SameWord ts us := by
  obtain ⟨ws, hws, rfl⟩ := lexFrom_eq_ok_iff.mp h
  refine ⟨_, lexFrom_eq_ok_iff.mpr ⟨ws, hws, rfl⟩, ?_⟩
  rw [List.forall₂_map_left_iff, List.forall₂_map_right_iff, List.forall₂_same]
  exact fun t _ => ⟨rfl, fun _ => rfl, rfl⟩

section place

variable {before piece after : List Token}

theorem Juxtaposed.getLast_closes (h : Juxtaposed as bs)
    (hbefore : lexFrom text n as = .ok before) : ∃ t ∈ before.getLast?, closes t.kind = true := by
  obtain ⟨us, hus, rfl⟩ := lexFrom_eq_ok_iff.mp hbefore
  obtain ⟨ts, hts, t, ht, hcloses⟩ := h.before
  rw [hus] at hts
  cases hts
  rw [List.getLast?_map]
  exact ⟨shift n t, Option.mem_map_of_mem _ ht, hcloses⟩

theorem Juxtaposed.head_starts (h : Juxtaposed as bs) (hafter : lexFrom text n bs = .ok after) :
    ∃ t ∈ after.head?, Starts t := by
  obtain ⟨us, hus, rfl⟩ := lexFrom_eq_ok_iff.mp hafter
  obtain ⟨ts, hts, t, ht, hstarts⟩ := h.after
  rw [hus] at hts
  cases hts
  rw [List.head?_map]
  exact ⟨shift n t, Option.mem_map_of_mem _ ht, hstarts⟩

/-- Other characters in one place of a text leave the words before and after it as they are. -/
theorem exists_joined (hleft : Apart as (ds ++ bs)) (hright : Apart ds bs)
    (hbefore : lexFrom text n as = .ok before) (hafter : lexFrom text n' bs = .ok after)
    (hpiece : lexFrom text' as.length ds = .ok piece) :
    ∃ before' after', lexFrom text' 0 (as ++ (ds ++ bs)) = .ok (before' ++ (piece ++ after')) ∧
      List.Forall₂ SameWord before before' ∧ List.Forall₂ SameWord after after' := by
  obtain ⟨before', hbefore', hsame⟩ := exists_moved text' 0 hbefore
  obtain ⟨after', hafter', hsame'⟩ := exists_moved text' (as.length + ds.length) hafter
  refine ⟨before', after', lexFrom_append hleft hbefore' ?_, hsame, hsame'⟩
  rw [Nat.zero_add]
  exact lexFrom_append hright hpiece hafter'

/-- Characters that are read as the same words may stand in one place of a text. -/
theorem exists_respelt_of_words (hleft : Apart as (cs ++ bs)) (hright : Apart cs bs)
    (hleft' : Apart as (ds ++ bs)) (hright' : Apart ds bs)
    (hwords : ∀ ws, lexFrom text as.length cs = .ok ws →
      ∃ ws', lexFrom text' as.length ds = .ok ws' ∧ List.Forall₂ SameWord ws ws')
    (hlex : lexFrom text 0 (as ++ (cs ++ bs)) = .ok ts) :
    ∃ us, lexFrom text' 0 (as ++ (ds ++ bs)) = .ok us ∧ Respelt false ts us := by
  obtain ⟨before, piece, after, hbefore, hpiece, hafter, rfl⟩ := exists_pieces hleft hright hlex
  obtain ⟨piece', hpiece', hsame⟩ := hwords piece hpiece
  obtain ⟨before', after', hjoined, hsame', hsame''⟩ :=
    exists_joined hleft' hright' hbefore hafter hpiece'
  exact ⟨_, hjoined, (respelt_of_words (List.rel_append hsame hsame'')).context hsame'⟩

theorem closes_of_mayFollow_mul {k : TokenKind} (h : mayFollow k .mul = true) :
    closes k = true := by
  cases k <;> first | rfl | cases h

/-- Without its multiplication sign, a product is still one: a factor ends before the sign and one
starts after it. -/
theorem exists_respelt_dropped {w : List Char} {c : Char} (hc : singleKind? c = some .mul)
    (hne : w ≠ []) (hw : ∀ x ∈ w, isBlank x = true)
    (hlinked : ts ≠ [] → Linked opens closes ts)
    (hlex : lexFrom text 0 (as ++ ([c] ++ bs)) = .ok ts) :
    ∃ us, lexFrom text' 0 (as ++ (w ++ bs)) = .ok us ∧ Respelt false ts us := by
  have hc' := runKind?_of_singleKind? hc
  obtain ⟨before, piece, after, hbefore, hpiece, hafter, rfl⟩ :=
    exists_pieces (apart_of_runKind?_none_right hc') (apart_of_runKind?_none hc') hlex
  rw [lexFrom_single hc' hc rfl] at hpiece
  cases hpiece
  have hchain := hlinked (by simp)
  obtain ⟨⟨x, hx⟩, y, hy⟩ := hchain.exists_neighbours rfl rfl
  have hcloses := closes_of_mayFollow_mul (hchain.previous hx)
  have hstarts := starts_iff.mpr (hchain.next hy)
  obtain ⟨after, rfl⟩ := List.head?_eq_some_iff.mp hy
  obtain ⟨hleft, hright⟩ : Apart as (w ++ bs) ∧ Apart w bs := apart_of_blanks hne hw
  have hblanks : lexFrom text' as.length w = .ok [] := lexFrom_blanks hw
  obtain ⟨before', rest, hjoined, hsame, hrest⟩ :=
    exists_joined hleft hright hbefore hafter hblanks
  obtain ⟨y', after', hyy', hsame', rfl⟩ := List.forall₂_cons_left_iff.mp hrest
  refine ⟨_, hjoined, Respelt.context hsame ?_⟩
  rw [closesAfter_of_getLast? hx, hcloses]
  exact .dropped rfl hstarts hyy' (respelt_of_words hsame')

theorem exists_respelt_inserted {c : Char} (hc : singleKind? c = some .mul) (h : Juxtaposed as bs)
    (hlex : lexFrom text 0 (as ++ bs) = .ok ts) :
    ∃ us, lexFrom text' 0 (as ++ ([c] ++ bs)) = .ok us ∧ Respelt false ts us := by
  have hc' := runKind?_of_singleKind? hc
  have hcut : Apart as ([] ++ bs) := h.apart
  obtain ⟨before, piece, after, hbefore, hpiece, hafter, rfl⟩ :=
    exists_pieces hcut apart_nil_left hlex
  cases hpiece
  obtain ⟨x, hx, hcloses⟩ := h.getLast_closes hbefore
  obtain ⟨y, hy, hstarts⟩ := h.head_starts hafter
  obtain ⟨after, rfl⟩ := List.head?_eq_some_iff.mp hy
  have hsign : lexFrom text' as.length [c] = .ok [⟨.mul, String.ofList [c], as.length, none⟩] :=
    lexFrom_single hc' hc rfl
  obtain ⟨before', rest, hjoined, hsame, hrest⟩ :=
    exists_joined (apart_of_runKind?_none_right hc') (apart_of_runKind?_none hc') hbefore hafter
      hsign
  obtain ⟨y', after', hyy', hsame', rfl⟩ := List.forall₂_cons_left_iff.mp hrest
  refine ⟨_, hjoined, Respelt.context hsame ?_⟩
  rw [closesAfter_of_getLast? hx, hcloses]
  exact .inserted rfl hstarts hyy' (respelt_of_words hsame')

/-- The superscript characters of a power go on neither before, where its base ends, nor after,
where no second power can follow. -/
theorem exists_respelt_raised {w : List Char} {v : Int} (hw : ∀ x ∈ w, isBlank x = true)
    (hcs : Numeral .integer cs v) (hds : Numeral .supinteger ds v) (hcut : Apart cs bs)
    (hlinked : ts ≠ [] → Linked opens closes ts)
    (hlex : lexFrom text 0 (as ++ (('^' :: w ++ cs) ++ bs)) = .ok ts) :
    ∃ us, lexFrom text' 0 (as ++ (ds ++ bs)) = .ok us ∧ Respelt false ts us := by
  obtain ⟨before, piece, after, hbefore, hpiece, hafter, rfl⟩ :=
    exists_pieces (apart_of_runKind?_none_right (by decide)) (hcut.append_left hcs.ne_nil) hlex
  obtain ⟨hat, i, hpower, hhat, hi, hvalue⟩ := exists_lexFrom_power text as.length hw hcs
  rw [hpower] at hpiece
  cases hpiece
  have hchain := hlinked (by simp)
  have hleft : Apart as ds := by
    refine hds.isRun.apart_of_getLast? hbefore fun x hx hk => ?_
    have hfollow := hchain.previous hx
    rw [hk, hhat] at hfollow
    cases hfollow
  have hright : Apart ds bs := by
    refine hds.isRun.apart_of_head? hafter fun y hy hk => ?_
    have hchain' : Linked opens closes ((before ++ [hat]) ++ i :: after) := by simpa using hchain
    have hfollow := hchain'.next hy
    rw [hk, hi] at hfollow
    cases hfollow
  have hnumeral : lexFrom text' as.length ds = .ok [⟨_, _, _, some v⟩] := hds.lexFrom
  obtain ⟨before', after', hjoined, hsame, hsame'⟩ :=
    exists_joined (hleft.append_right hds.ne_nil) hright hbefore hafter hnumeral
  refine ⟨_, hjoined, Respelt.context hsame ?_⟩
  exact .raised hhat hi rfl hvalue (respelt_of_words hsame')

theorem exists_respelt_lowered {w : List Char} {v : Int} (hw : ∀ x ∈ w, isBlank x = true)
    (hcs : Numeral .supinteger cs v) (hds : Numeral .integer ds v) (hleft : Apart as cs)
    (hright : Apart cs bs) (hlinked : ts ≠ [] → Linked opens closes ts)
    (hlex : lexFrom text 0 (as ++ (cs ++ bs)) = .ok ts) :
    ∃ us, lexFrom text' 0 (as ++ (('^' :: w ++ ds) ++ bs)) = .ok us ∧ Respelt false ts us := by
  obtain ⟨before, piece, after, hbefore, hpiece, hafter, rfl⟩ :=
    exists_pieces (hleft.append_right hcs.ne_nil) hright hlex
  rw [hcs.lexFrom] at hpiece
  cases hpiece
  have hchain := hlinked (by simp)
  have hcut : Apart ds bs := by
    refine hds.isRun.apart_of_head? hafter fun y hy hk => ?_
    have hfollow := hchain.next hy
    rw [hk] at hfollow
    cases hfollow
  obtain ⟨hat, i, hpower, hhat, hi, hvalue⟩ := exists_lexFrom_power text' as.length hw hds
  obtain ⟨before', after', hjoined, hsame, hsame'⟩ :=
    exists_joined (apart_of_runKind?_none_right (by decide)) (hcut.append_left hds.ne_nil) hbefore
      hafter hpower
  refine ⟨_, hjoined, Respelt.context hsame ?_⟩
  exact .lowered hhat hi rfl hvalue.symm (respelt_of_words hsame')

end place

/-- The tokens of an expression and of another spelling of its text spell the same. -/
theorem exists_respelt {cs ds : List Char} (h : Respelling cs ds)
    (hlinked : ts ≠ [] → Linked opens closes ts) (hlex : lexFrom text 0 cs = .ok ts) :
    ∃ us, lexFrom text' 0 ds = .ok us ∧ Respelt false ts us := by
  cases h with
  | sign hk hc hd =>
    have hc' := runKind?_of_singleKind? hc
    have hd' := runKind?_of_singleKind? hd
    refine exists_respelt_of_words (apart_of_runKind?_none_right hc') (apart_of_runKind?_none hc')
      (apart_of_runKind?_none_right hd') (apart_of_runKind?_none hd') ?_ hlex
    intro ws hws
    rcases hk with rfl | rfl
    · rw [lexFrom_single hc' hc rfl] at hws
      cases hws
      exact ⟨_, lexFrom_single hd' hd rfl, .cons ⟨rfl, (by simp), rfl⟩ .nil⟩
    · rw [lexFrom_single hc' hc rfl] at hws
      cases hws
      exact ⟨_, lexFrom_single hd' hd rfl, .cons ⟨rfl, (by simp), rfl⟩ .nil⟩
  | blank hc hne hw =>
    exact exists_respelt_dropped hc hne hw hlinked hlex
  | juxtaposed hc h => exact exists_respelt_inserted hc h hlex
  | raise hw hn hm hafter =>
    exact exists_respelt_raised hw hn hm hafter hlinked hlex
  | lower hw hn hm hbefore hafter =>
    exact exists_respelt_lowered hw hm hn hbefore hafter hlinked hlex
  | integer hn hm hbefore hafter =>
    have hbefore' := hn.isRun.apart_congr_right hm.isRun hn.ne_nil hbefore
    have hafter' := hn.isRun.apart_congr_left hm.isRun hn.ne_nil hafter
    refine exists_respelt_of_words (hbefore.append_right hn.ne_nil) hafter
      (hbefore'.append_right hm.ne_nil) hafter' ?_ hlex
    intro ws hws
    rw [hn.lexFrom] at hws
    cases hws
    refine ⟨_, hm.lexFrom, .cons ⟨rfl, fun hsymbol => ?_, rfl⟩ .nil⟩
    obtain rfl := hsymbol
    cases hn.hasValue
  | @gap as w bs hw hcut =>
    have hblanks : Apart as (w ++ bs) ∧ Apart w bs := by
      rcases eq_or_ne w [] with rfl | hne
      · exact ⟨hcut, apart_nil_left⟩
      · exact apart_of_blanks hne hw
    have hcut' : Apart as ([] ++ bs) := hcut
    refine exists_respelt_of_words hcut' apart_nil_left hblanks.1 hblanks.2 ?_ hlex
    intro ws hws
    cases hws
    exact ⟨[], lexFrom_blanks hw, .nil⟩

/-! ### Reading another spelling -/

theorem readUnit_of_respelling {table : UnitTable} {q : Quantity}
    (h : Respelling text.toList text'.toList) (hread : readUnit table text = .ok q) :
    readUnit table text' = .ok q := by
  obtain ⟨ts, hlex, hts⟩ := exists_lex_of_readUnit hread
  have hlinked : ts ≠ [] → Linked opens closes ts := by
    intro hne
    rcases isExpression_of_ofTokens ⟨table, text⟩ hts with rfl | ⟨p, rfl, -⟩
    · exact absurd rfl hne
    · exact p.linked
  obtain ⟨us, hus, hrespelt⟩ : ∃ us, lex text' = .ok us ∧ Respelt false ts us :=
    exists_respelt h hlinked hlex
  rw [readUnit_of_lex table hus]
  have hscope : (⟨table, text⟩ : Scope).table = (⟨table, text'⟩ : Scope).table := rfl
  exact ofTokens_respelt hscope hrespelt (valued_lex hlex) (valued_lex hus) hts

/-- **Spelling does not matter.**  A text that is read as a unit expression is read as the same
quantity after any number of respellings. -/
theorem readUnit_respelling (table : UnitTable) (text text' : String) (q : Quantity)
    (h : Relation.ReflTransGen Respelling text.toList text'.toList)
    (hread : readUnit table text = .ok q) : readUnit table text' = .ok q := by
  have hrun : ∀ cs, Relation.ReflTransGen Respelling text.toList cs →
      readUnit table (String.ofList cs) = .ok q := by
    intro cs hcs
    induction hcs with
    | refl => rwa [String.ofList_toList]
    | tail _ hstep ih =>
      refine readUnit_of_respelling ?_ ih
      rwa [String.toList_ofList, String.toList_ofList]
  have hwhole := hrun text'.toList h
  rwa [String.ofList_toList] at hwhole

/-- A blank for the sign, a plus sign before the power, and then superscript characters for it. -/
theorem readUnit_respelling_spaced :
    Relation.ReflTransGen Respelling "s*m^2".toList "s m⁺²".toList ∧
      ∃ q, readUnit motionTable "s*m^2" = .ok q ∧ readUnit motionTable "s m⁺²" = .ok q := by
  have htwo : Numeral .integer ['2'] 2 := ⟨rfl, by decide, by decide, by decide⟩
  have hplus : Numeral .integer ['+', '2'] 2 := htwo.plus (by simp [ordinary, ordinary?]) rfl rfl
  have hscript : Numeral .supinteger ['⁺', '²'] 2 :=
    (numeral_supinteger_iff (by decide)).mpr hplus
  have hblank : Respelling "s*m^2".toList "s m^2".toList :=
    @Respelling.blank ['s'] [' '] ['m', '^', '2'] '*' rfl (by decide) (by simp [isBlank])
  have hcut : Apart (['s', ' ', 'm'] ++ ['^']) ['2'] :=
    (apart_of_runKind?_none (by decide)).append_left (by decide)
  have hinteger : Respelling "s m^2".toList "s m^+2".toList :=
    @Respelling.integer ['s', ' ', 'm', '^'] ['2'] ['+', '2'] [] .integer 2 htwo hplus hcut
      (by simp [Apart])
  have hraise : Respelling "s m^+2".toList "s m⁺²".toList :=
    @Respelling.raise ['s', ' ', 'm'] [] ['+', '2'] ['⁺', '²'] [] 2 (by simp) hplus hscript
      (by simp [Apart])
  have hsteps := ((Relation.ReflTransGen.single hblank).tail hinteger).tail hraise
  have hok : (readUnit motionTable "s*m^2").toBool = true := by decide +kernel
  cases hread : readUnit motionTable "s*m^2" with
  | error f =>
    rw [hread] at hok
    cases hok
  | ok q => exact ⟨hsteps, q, rfl, readUnit_respelling _ _ _ q hsteps hread⟩

end Expression

end UnitCalculus
