import UnitCalculus.Proofs.Expression.Acceptance
import UnitCalculus.Proofs.Expression.Lexing
import UnitCalculus.Proofs.Expression.SideBySide
import UnitCalculus.Proofs.UnitTable.Lookup

/-! # The symbols of a text

What a text is read as, and what it is refused for, depends on the table only through the symbols
among its tokens (`readUnit_of_agree`), and these are runs of symbol characters within the text
(`isRun_of_mem_lex`).  So a unit can be read under its own symbol exactly if that is one such run
(`readUnit_insertUnit_iff`); under any other name the text is read as if the unit were not there.
What is read has no symbol characters but those of the table (`writes_of_readUnit`). -/

namespace UnitCalculus

/-! ### Symbols are runs -/

namespace Token

variable {text : String} {cs : List Char}

theorem runKind?_of_blockKind? {c : Char} (h : blockKind? c = some .symbol) :
    runKind? c = some .symbol := by
  unfold blockKind? at h
  split at h
  · next k hk =>
    cases h
    exact hk
  · unfold singleKind? at h
    split at h <;> cases h

/-- Characters that continue each other belong to one run. -/
theorem isRun_of_isChain {c : Char} {k : TokenKind} (hc : runKind? c = some k)
    (h : (c :: cs).IsChain fun x y => continues x y = true) : IsRun k (c :: cs) := by
  induction cs generalizing c with
  | nil =>
    intro x hx
    rw [List.mem_singleton.mp hx]
    exact hc
  | cons d cs ih =>
    rw [List.isChain_cons_cons] at h
    have hd : runKind? d = some k := by
      have hcd := h.1
      simp only [continues, hc, Option.isSome_some, Bool.true_and, beq_iff_eq] at hcd
      exact hcd.symm
    intro x hx
    rcases List.mem_cons.mp hx with rfl | hx
    · exact hc
    · exact ih hd h.2 x hx

theorem of_ofBlock? {n : Nat} {t : Token} (h : ofBlock? text n cs = .ok (some t)) :
    t.text = String.ofList cs ∧ cs.head?.bind blockKind? = some t.kind := by
  unfold ofBlock? at h
  split at h
  · cases h
  · next k hk =>
    split at h
    · split at h
      · cases h
        exact ⟨rfl, hk⟩
      · cases h
    · cases h
      exact ⟨rfl, hk⟩

/-- Every token of a text is a block of it. -/
theorem mem_blocks_of_mem_lex {ts : List Token} (h : lex text = .ok ts) {t : Token} (ht : t ∈ ts) :
    t.text.toList ∈ blocks text.toList ∧ t.text.toList.head?.bind blockKind? = some t.kind := by
  unfold lex at h
  generalize blocks text.toList = bs at h
  generalize 0 = n at h
  induction bs generalizing n ts with
  | nil =>
    cases h
    cases ht
  | cons b bs ih =>
    obtain ⟨u, hblock, h⟩ := bind_eq_ok h
    obtain ⟨us, hrest, h⟩ := bind_eq_ok h
    cases h
    rcases List.mem_append.mp ht with ht | ht
    · cases u with
      | none => cases ht
      | some u =>
        obtain rfl : t = u := List.mem_singleton.mp ht
        obtain ⟨htext, hkind⟩ := of_ofBlock? hblock
        rw [htext, String.toList_ofList]
        exact ⟨List.mem_cons_self, hkind⟩
    · obtain ⟨hmem, hkind⟩ := ih ht _ hrest
      exact ⟨List.mem_cons_of_mem _ hmem, hkind⟩

/-- A symbol of a text is a run of symbol characters, and no longer than the text. -/
theorem isRun_of_mem_lex {ts : List Token} (h : lex text = .ok ts) {t : Token} (ht : t ∈ ts)
    (hsymbol : t.kind = .symbol) :
    IsRun .symbol t.text.toList ∧ t.text.toList.length ≤ text.toList.length := by
  obtain ⟨hmem, hkind⟩ := mem_blocks_of_mem_lex h ht
  rw [hsymbol] at hkind
  constructor
  · have hchain := List.isChain_of_mem_splitBy hmem
    cases htext : t.text.toList with
    | nil => simp [IsRun]
    | cons c cs =>
      rw [htext] at hkind hchain
      exact isRun_of_isChain (runKind?_of_blockKind? hkind) hchain
  · have hsublist := List.sublist_flatten_of_mem hmem
    rw [blocks, List.flatten_splitBy] at hsublist
    exact hsublist.length_le

end Token

/-! ### Tables that agree on the symbols -/

namespace Expression

open UnitCalculus.Expression.Derivation Token

/-- The symbols among the tokens stand for the same in both tables. -/
def Agree (t t' : UnitTable) (ts : List Token) : Prop :=
  ∀ x ∈ ts, x.kind = .symbol → t.lookup x.text = t'.lookup x.text

variable {t t' : UnitTable}

/-- Tokens are read alike in two tables that agree on their symbols. -/
theorem beside_tables (t t' : UnitTable) (text : String) :
    Beside (fun x y => x = y ∧ (x.kind = .symbol → t.lookup x.text = t'.lookup x.text)) Eq
      ⟨t, text⟩ ⟨t', text⟩ where
  alike := by
    rintro x _ ⟨rfl, -⟩
    exact ⟨rfl, rfl, rfl⟩
  resolve := by
    rintro x _ ⟨rfl, hlookup⟩ hsymbol
    have heq : resolve ⟨t, text⟩ x = resolve ⟨t', text⟩ x := by
      unfold resolve
      dsimp only
      rw [hlookup hsymbol]
      rfl
    rw [heq]
    exact .refl _
  fault := by
    rintro x _ ⟨rfl, -⟩ c
    rfl
  endFault := rfl
  same _ := rfl

/-- A text is read alike in tables that agree on its symbols. -/
theorem readUnit_of_agree {text : String} (hagree : ∀ ts, lex text = .ok ts → Agree t t' ts) :
    readUnit t text = readUnit t' text := by
  cases hlex : lex text with
  | error f => simp only [readUnit, tokens, hlex, error_bind]
  | ok ts =>
    rw [readUnit_of_lex t hlex, readUnit_of_lex t' hlex]
    refine ((beside_tables t t' text).lockstep_ofTokens ?_).eq
    exact List.forall₂_same.mpr fun x hx => ⟨rfl, hagree ts hlex x hx⟩

/-! ### Reading a unit under its symbol -/

variable {symbol : String}

/-- A unit whose symbol is a run of symbol characters is read under it. -/
theorem readUnit_symbol (hrun : IsRun .symbol symbol.toList) (hne : symbol ≠ "") {q : Quantity}
    (hq : t.units.find? symbol = some q) : readUnit t symbol = .ok q := by
  let x : Token := ⟨.symbol, symbol, 0, none⟩
  let p : Product := .mk (.mk (.symbol ⟨x, rfl⟩) none) .nil
  have hlex : lex symbol = .ok p.tokens := by
    have hsymbol : lexFrom symbol 0 symbol.toList =
        .ok [⟨.symbol, String.ofList symbol.toList, 0, none⟩] :=
      lexFrom_symbol hrun (by simpa using hne)
    rwa [String.ofList_toList] at hsymbol
  have hlookup : t.lookup symbol = .ok q := by rw [UnitTable.lookup, hq]
  have hvalue : p.eval t = .ok q := by
    simp only [p, x, Product.eval, Powered.eval, Atom.eval, hlookup, ok_bind, Tail.evalFrom]
  rw [readUnit_of_lex t hlex, ← hvalue]
  exact ofTokens_product ⟨t, symbol⟩ (meaningful_symbol hlookup) (valued_lex hlex)

/-- Under a symbol that is no run of symbol characters, a text is read as without the unit. -/
theorem agree_insertUnit {ts : List Token} (hlex : lex symbol = .ok ts)
    (hrun : ¬ IsRun .symbol symbol.toList) (q : Quantity) : Agree (t.insertUnit symbol q) t ts := by
  intro x hx hsymbol
  obtain ⟨hxrun, hlength⟩ := isRun_of_mem_lex hlex hx hsymbol
  refine UnitTable.lookup_insertUnit (fun hbuilds => hrun ?_) q
  rwa [hbuilds.suffix.eq_of_length_le hlength]

/-- The units that can be read under their symbols, whatever they are: those whose symbols are runs
of symbol characters. -/
theorem readUnit_insertUnit_iff (t : UnitTable) (hne : symbol ≠ "") :
    (∀ q, readUnit (t.insertUnit symbol q) symbol = .ok q) ↔ IsRun .symbol symbol.toList := by
  constructor
  · intro h
    by_contra hrun
    -- the text is read as two different units, but it is the same without either
    have hsame : ∀ q, readUnit t symbol = .ok q := fun q =>
      (readUnit_of_agree fun _ hlex => agree_insertUnit hlex hrun q).symm.trans (h q)
    have hone := hsame (.bare (.integer 1))
    rw [hsame (.bare (.integer 2))] at hone
    cases hone
  · intro hrun q
    refine readUnit_symbol hrun hne ?_
    rw [UnitTable.insertUnit, Catalog.find?_insert, if_pos rfl]

end Expression

/-! ### The characters of what is read -/

namespace UnitTable

variable {t : UnitTable} {symbol : String} {c : Char}

/-- A character of the symbols of units and factors. -/
def Writes (t : UnitTable) (c : Char) : Prop :=
  (∃ u ∈ t.units.entries, c ∈ u.1.toList) ∨ ∃ f ∈ t.factors.entries, c ∈ f.1.toList

theorem writes_of_mem_lookup {q : Quantity} (h : t.lookup symbol = .ok q)
    (hc : c ∈ symbol.toList) : t.Writes c := by
  have hsplit (n : Nat) (h : t.lookupSplit symbol n = .ok q) : t.Writes c := by
    induction n with
    | zero => cases h
    | succ n ih =>
      unfold lookupSplit at h
      dsimp only at h
      split at h
      · exact ih h
      · next m hm =>
        split at h
        · cases h
        · split at h
          · next u hu =>
            have happend := splitAt_append symbol (n + 1)
            rw [← happend, String.toList_append, List.mem_append] at hc
            rcases hc with hc | hc
            · exact .inr ⟨_, Catalog.find?_eq_some_iff.mp hm, hc⟩
            · exact .inl ⟨_, Catalog.find?_eq_some_iff.mp hu, hc⟩
          · exact ih h
  unfold lookup at h
  split at h
  · next u hu => exact .inl ⟨_, Catalog.find?_eq_some_iff.mp hu, hc⟩
  · exact hsplit _ h

end UnitTable

namespace Token

variable {text : String}

/-- Every block that is no blank is a token. -/
theorem exists_mem_of_mem_blocks {ts : List Token} (h : lex text = .ok ts) {b : List Char}
    (hb : b ∈ blocks text.toList) {k : TokenKind} (hk : b.head?.bind blockKind? = some k) :
    ∃ t ∈ ts, t.kind = k ∧ t.text = String.ofList b := by
  unfold lex at h
  generalize blocks text.toList = bs at h hb
  generalize 0 = n at h
  induction bs generalizing n ts with
  | nil => cases hb
  | cons d bs ih =>
    obtain ⟨u, hblock, h⟩ := bind_eq_ok h
    obtain ⟨us, hrest, h⟩ := bind_eq_ok h
    cases h
    rcases List.mem_cons.mp hb with rfl | hb
    · cases u with
      | none =>
        unfold ofBlock? at hblock
        rw [hk] at hblock
        dsimp only at hblock
        split at hblock
        · split at hblock <;> cases hblock
        · cases hblock
      | some u =>
        obtain ⟨htext, hkind⟩ := of_ofBlock? hblock
        rw [hk] at hkind
        exact ⟨u, List.mem_append_left _ (List.mem_singleton_self u), (Option.some.inj hkind).symm,
          htext⟩
    · obtain ⟨t, ht, hspec⟩ := ih hb _ hrest
      exact ⟨t, List.mem_append_right _ ht, hspec⟩

theorem isRun_of_mem_blocks {cs b : List Char} (hb : b ∈ blocks cs) {c : Char} (hc : c ∈ b)
    {k : TokenKind} (hk : runKind? c = some k) : IsRun k b := by
  have hchain := List.isChain_of_mem_splitBy hb
  cases b with
  | nil => cases hc
  | cons d b =>
    cases hd : runKind? d with
    | none =>
      -- A character outside the runs is a block of its own.
      cases b with
      | nil =>
        rw [List.mem_singleton.mp hc, hd] at hk
        cases hk
      | cons e b =>
        rw [List.isChain_cons_cons] at hchain
        simp [continues, hd] at hchain
    | some k' =>
      have hrun := isRun_of_isChain hd hchain
      rw [hrun c hc] at hk
      rwa [← Option.some.inj hk]

end Token

namespace Expression

/-- The symbol characters of a text that is read are characters of the symbols of the table. -/
theorem writes_of_readUnit {t : UnitTable} {text : String} {q : Quantity}
    (h : readUnit t text = .ok q) {c : Char} (hc : c ∈ text.toList)
    (hsymbol : Token.runKind? c = some .symbol) : t.Writes c := by
  have hflatten : c ∈ (Token.blocks text.toList).flatten := by
    rwa [Token.blocks, List.flatten_splitBy]
  obtain ⟨b, hb, hcb⟩ := List.mem_flatten.mp hflatten
  have hrun := Token.isRun_of_mem_blocks hb hcb hsymbol
  have hkind := hrun.head (List.ne_nil_of_mem hcb)
  obtain ⟨ts, hlex, hread⟩ := exists_lex_of_readUnit h
  obtain ⟨t', ht', hkind', htext⟩ := Token.exists_mem_of_mem_blocks hlex hb hkind
  rcases isExpression_of_ofTokens ⟨t, text⟩ hread with rfl | ⟨p, -, hmeaning⟩
  · cases ht'
  · obtain ⟨u, hu⟩ := hmeaning.resolves t' ht' hkind'
    rw [htext] at hu
    exact UnitTable.writes_of_mem_lookup hu (by rwa [String.toList_ofList])

end Expression

end UnitCalculus
