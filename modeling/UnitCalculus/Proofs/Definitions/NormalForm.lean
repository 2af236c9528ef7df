import UnitCalculus.Proofs.Decimal.Reading
import UnitCalculus.Proofs.Definitions.Comments
import UnitCalculus.Proofs.Definitions.LineNumbers

/-! # The normal form of definition texts

Definitions are written one on a line, the units first (`Definitions.text`).  The symbols and the
expressions that lines define are such that nothing is stripped from them again (`IsSymbol`,
`IsExpression`), so that a line written from them defines them (`ofChars_unitLine`,
`ofChars_factorLine`).  Hence the definitions of any text, written and read again, are the same, and
nothing is rejected (`ofText_text`).  For factors this rests on the law of the shortest digits, that
the text of a number reads as the number. -/

namespace UnitCalculus.Definitions

open Text

/-! ### Writing definitions -/

/-- A unit as a line. -/
def unitLine (e : String × String) : String := e.1 ++ ": " ++ e.2

/-- A factor as a line. -/
def factorLine (e : String × Float) : String := e.1 ++ "-: " ++ Decimal.floatText e.2

/-- The definitions as a text, one on each line. -/
def text (d : Definitions) : String :=
  "\n".intercalate (d.units.entries.map unitLine ++ d.factors.entries.map factorLine)

namespace Line

variable {a b cs ds : List Char}

/-! ### Symbols and expressions -/

/-- A text that a line may have as its symbol. -/
structure IsSymbol (cs : List Char) : Prop where
  nonempty : cs ≠ []
  visible : ∀ c ∈ cs, isBlank c = false
  colon : ':' ∉ cs
  mark : cs.head? ≠ some '#'

/-- A text that a line may have as its definition. -/
structure IsExpression (ds : List Char) : Prop where
  nonempty : ds ≠ []
  head : ∀ c ∈ ds.head?, isBlank c = false
  last : ∀ c ∈ ds.getLast?, isTrailing c = false
  mark : '#' ∉ ds

theorem isBlank_of_isTrailing {c : Char} (h : isTrailing c = false) : isBlank c = false := by
  rw [isTrailing, Bool.or_assoc, Bool.or_eq_false_iff] at h
  exact h.1

theorem withoutTrailing_eq_self (h : ∀ c ∈ cs.getLast?, isTrailing c = false) :
    withoutTrailing cs = cs := by
  rw [← List.head?_reverse] at h
  rw [withoutTrailing]
  cases hcs : cs.reverse with
  | nil => rw [List.reverse_eq_nil_iff.mp hcs]; rfl
  | cons c r =>
    rw [List.dropWhile_cons_of_neg (by simp [h c (by rw [hcs]; rfl)]), ← hcs, List.reverse_reverse]

/-! ### Lines in normal form -/

theorem symbolPart_of_isSymbol (h : IsSymbol cs) (hsign : cs.getLast? ≠ some '-') :
    symbolPart cs = (cs, false) := by
  have htrim : trimBlank cs = cs :=
    trimBlank_eq_self (fun c hc => h.visible c (List.mem_of_head? hc))
      fun c hc => h.visible c (List.mem_of_getLast? hc)
  unfold symbolPart
  dsimp only
  rw [htrim]
  split
  · next r hr =>
    rw [← List.head?_reverse, hr] at hsign
    exact absurd rfl hsign
  · rfl

theorem symbolPart_of_isSymbol_sign (h : IsSymbol cs) : symbolPart (cs ++ ['-']) = (cs, true) := by
  have hvisible : ∀ c ∈ cs ++ ['-'], isBlank c = false := by
    intro c hc
    rcases List.mem_append.mp hc with hc | hc
    · exact h.visible c hc
    · rw [List.mem_singleton.mp hc]
      decide
  have htrim : trimBlank (cs ++ ['-']) = cs ++ ['-'] :=
    trimBlank_eq_self (fun c hc => hvisible c (List.mem_of_head? hc))
      fun c hc => hvisible c (List.mem_of_getLast? hc)
  have hright : trimRight cs = cs :=
    trimRight_eq_self fun c hc => h.visible c (List.mem_of_getLast? hc)
  unfold symbolPart
  dsimp only
  rw [htrim, List.reverse_concat]
  show (trimRight cs.reverse.reverse, true) = (cs, true)
  rw [List.reverse_reverse, hright]

theorem definitionPart_of_isExpression (h : IsExpression ds) : definitionPart (' ' :: ds) = ds := by
  have hcomment : withoutComment (' ' :: ds) = ' ' :: ds :=
    List.takeWhile_eq_self_iff.mpr (bne_of_not_mem (by simpa using h.mark))
  have htrim : trimBlank (' ' :: ds) = ds := by
    have hleft : trimLeft (' ' :: ds) = trimLeft ds := List.dropWhile_cons_of_pos (by decide)
    rw [trimBlank, hleft, ← trimBlank]
    exact trimBlank_eq_self h.head fun c hc => isBlank_of_isTrailing (h.last c hc)
  rw [definitionPart, hcomment, htrim, withoutTrailing_eq_self h.last]

theorem trimLeft_of_isSymbol (h : IsSymbol cs) (r : List Char) :
    trimLeft (cs ++ r) = cs ++ r := by
  refine trimLeft_eq_self fun c hc => ?_
  obtain ⟨d, cs, rfl⟩ := List.exists_cons_of_ne_nil h.nonempty
  exact h.visible c (Option.some.inj hc ▸ List.mem_cons_self)

theorem head?_of_isSymbol (h : IsSymbol cs) (r : List Char) : (cs ++ r).head? ≠ some '#' := by
  obtain ⟨d, cs, rfl⟩ := List.exists_cons_of_ne_nil h.nonempty
  exact h.mark

theorem ofParts_unit (h : IsSymbol cs) (hd : ds ≠ []) :
    ofParts cs false ds = unit (String.ofList cs) (String.ofList ds) := by
  have hblank : cs.any isBlank = false := by simpa using h.visible
  simp [ofParts, h.nonempty, hblank, hd]

theorem ofParts_factor (h : IsSymbol cs) (hd : ds ≠ []) {x : Float}
    (hx : Decimal.wholeFloat? ds = some x) :
    ofParts cs true ds = factor (String.ofList cs) x := by
  have hblank : cs.any isBlank = false := by simpa using h.visible
  simp [ofParts, h.nonempty, hblank, hd, hx]

/-- A unit on a line of its own. -/
theorem ofChars_unitLine (hs : IsSymbol cs) (hsign : cs.getLast? ≠ some '-')
    (hd : IsExpression ds) :
    ofChars (cs ++ ':' :: ' ' :: ds) = unit (String.ofList cs) (String.ofList ds) := by
  have hleft := trimLeft_of_isSymbol hs []
  have hhead := head?_of_isSymbol hs []
  rw [List.append_nil] at hleft hhead
  rw [ofChars_colon hs.colon, hleft, if_neg hhead, symbolPart_of_isSymbol hs hsign,
    definitionPart_of_isExpression hd, ofParts_unit hs hd.nonempty]

/-- A factor on a line of its own. -/
theorem ofChars_factorLine (hs : IsSymbol cs) (hd : IsExpression ds) {x : Float}
    (hx : Decimal.wholeFloat? ds = some x) :
    ofChars (cs ++ '-' :: ':' :: ' ' :: ds) = factor (String.ofList cs) x := by
  have hcolon : ':' ∉ cs ++ ['-'] := by simpa using hs.colon
  rw [List.append_cons, ofChars_colon hcolon, trimLeft_of_isSymbol hs,
    if_neg (head?_of_isSymbol hs _), symbolPart_of_isSymbol_sign hs,
    definitionPart_of_isExpression hd, ofParts_factor hs hd.nonempty hx]

/-! ### What lines define is in normal form -/

theorem isPrefix_symbolPart (a : List Char) : (symbolPart a).1 <+: trimLeft a := by
  have htrim : trimBlank a <+: trimLeft a := isPrefix_reverse_dropWhile isBlank _
  unfold symbolPart
  dsimp only
  split
  · next r hr =>
    have hsign : r.reverse <+: trimBlank a := by
      rw [← List.reverse_reverse (trimBlank a), hr, List.reverse_cons]
      exact List.prefix_append _ _
    exact (isPrefix_reverse_dropWhile isBlank _).trans (hsign.trans htrim)
  · exact htrim

theorem subset_symbolPart (a : List Char) : (symbolPart a).1 ⊆ a :=
  List.Subset.trans (isPrefix_symbolPart a).subset (List.dropWhile_suffix isBlank).subset

theorem getLast?_symbolPart (h : (symbolPart a).2 = false) :
    (symbolPart a).1.getLast? ≠ some '-' := by
  unfold symbolPart at h ⊢
  dsimp only at h ⊢
  split at h
  · cases h
  · next hsign =>
    intro hlast
    rw [← List.head?_reverse] at hlast
    obtain ⟨r, hr⟩ := List.head?_eq_some_iff.mp hlast
    exact hsign r hr

theorem subset_definitionPart (b : List Char) : definitionPart b ⊆ withoutComment b := by
  have hright : trimBlank (withoutComment b) ⊆ trimLeft (withoutComment b) :=
    (isPrefix_reverse_dropWhile isBlank _).subset
  have hleft : trimLeft (withoutComment b) ⊆ withoutComment b :=
    (List.dropWhile_suffix isBlank).subset
  intro c hc
  exact hleft (hright ((isPrefix_reverse_dropWhile isTrailing _).subset hc))

theorem isExpression_definitionPart (h : definitionPart b ≠ []) :
    IsExpression (definitionPart b) where
  nonempty := h
  head := isBlank_head_definitionPart b
  last := by
    intro c hc
    have hlast := List.head?_dropWhile_not isTrailing (trimBlank (withoutComment b)).reverse
    rw [definitionPart, withoutTrailing, List.getLast?_reverse] at hc
    rw [hc] at hlast
    exact hlast
  mark := by
    intro hmem
    have hall := List.mem_takeWhile_imp (subset_definitionPart b hmem)
    exact absurd hall (by decide)

theorem isSymbol_symbolPart (ha : ':' ∉ a) (hmark : (trimLeft a).head? ≠ some '#')
    (hne : (symbolPart a).1 ≠ []) (hvisible : ∀ c ∈ (symbolPart a).1, isBlank c = false) :
    IsSymbol (symbolPart a).1 where
  nonempty := hne
  visible := hvisible
  colon := fun hmem => ha (subset_symbolPart a hmem)
  mark := by
    obtain ⟨c, r, hr⟩ := List.exists_cons_of_ne_nil hne
    obtain ⟨t, ht⟩ := isPrefix_symbolPart a
    rw [hr] at ht ⊢
    rwa [← ht] at hmark

/-- What a line defines is taken from its two parts. -/
theorem exists_parts {n : String} (h : (ofChars cs).symbol? = some n) :
    ∃ a b, cs = a ++ ':' :: b ∧
      OfParts (symbolPart a).1 (definitionPart b) (symbolPart a).2 (ofChars cs) ∧
      IsSymbol (symbolPart a).1 ∧ IsExpression (definitionPart b) := by
  have hcolon : ':' ∈ cs := by
    by_contra hcolon
    rw [symbol?_ofChars_of_not_mem hcolon] at h
    cases h
  obtain ⟨a, b, rfl, ha⟩ := List.eq_append_cons_of_mem hcolon
  have hline := ofChars_colon ha b
  by_cases hmark : (trimLeft a).head? = some '#'
  · rw [hline, if_pos hmark] at h
    cases h
  · rw [if_neg hmark] at hline
    have hparts := ofParts_spec (symbolPart a).1 (definitionPart b) (symbolPart a).2
    rw [← hline] at hparts
    obtain ⟨hproper, -⟩ := hparts.of_symbol? h
    exact ⟨a, b, rfl, hparts, isSymbol_symbolPart ha hmark hproper.nonempty hproper.visible,
      isExpression_definitionPart hproper.defined⟩

/-- The text holds no line break. -/
def Unbroken (cs : List Char) : Prop := ∀ c ∈ cs, isBreak c = false

theorem isBreak_of_isBlank {c : Char} (h : isBlank c = false) : isBreak c = false := by
  cases hbreak : isBreak c with
  | false => rfl
  | true =>
    have hc : c = '\r' ∨ c = '\n' := by simpa [isBreak] using hbreak
    rcases hc with rfl | rfl <;> cases h

theorem IsSymbol.unbroken (h : IsSymbol cs) : Unbroken cs :=
  fun c hc => isBreak_of_isBlank (h.visible c hc)

/-- The unit of a line, in normal form. -/
structure IsUnit (e : String × String) : Prop where
  symbol : IsSymbol e.1.toList
  sign : e.1.toList.getLast? ≠ some '-'
  expression : IsExpression e.2.toList
  unbroken : Unbroken e.2.toList

theorem isUnit_of_ofChars (hcs : Unbroken cs) {e : String × String}
    (h : (ofChars cs).unit? = some e) : IsUnit e := by
  obtain ⟨a, b, rfl, hparts, hs, hd⟩ := exists_parts (symbol?_of_unit? h)
  have hbreak : Unbroken (definitionPart b) := by
    intro c hc
    have hmem : c ∈ b := List.takeWhile_subset _ (subset_definitionPart b hc)
    exact hcs c (List.mem_append_right _ (List.mem_cons_of_mem _ hmem))
  obtain ⟨hsign, -, rfl⟩ := hparts.of_unit? h
  refine ⟨?_, ?_, ?_, ?_⟩ <;> rw [String.toList_ofList]
  · exact hs
  · exact getLast?_symbolPart hsign
  · exact hd
  · exact hbreak

theorem isSymbol_of_ofChars_factor {e : String × Float} (h : (ofChars cs).factor? = some e) :
    IsSymbol e.1.toList := by
  obtain ⟨a, b, rfl, hparts, hs, -⟩ := exists_parts (symbol?_of_factor? h)
  obtain ⟨-, he⟩ := hparts.of_factor? h
  rw [he, String.toList_ofList]
  exact hs

/-- The factor of a line, in normal form, with a value that its text reads as. -/
structure IsFactor (e : String × Float) : Prop where
  symbol : IsSymbol e.1.toList
  expression : IsExpression (Decimal.floatText e.2).toList
  unbroken : Unbroken (Decimal.floatText e.2).toList
  reads : Decimal.wholeFloat? (Decimal.floatText e.2).toList = some e.2

end Line

open Line

/-! ### The text of a number -/

/-- The text of a number has no character that is stripped from a definition. -/
theorem plain_floatText (x : Float) :
    ∀ c ∈ (Decimal.floatText x).toList, isTrailing c = false ∧ c ≠ '#' := by
  cases hx : Decimal.expand x with
  | finite e =>
    intro c hc
    have hnumber := Decimal.isNumberChar_floatText hx c hc
    obtain ⟨hblank, -, -⟩ := Decimal.isNumberChar_spec hnumber
    have hne : ∀ d, Decimal.isNumberChar d = false → c ≠ d := by
      rintro d hd rfl
      rw [hd] at hnumber
      cases hnumber
    refine ⟨?_, hne '#' (by decide)⟩
    simp [isTrailing, hblank, hne ',' (by decide), hne ';' (by decide)]
  | infinite negative =>
    rw [Decimal.floatText, hx]
    cases negative with
    | false => simp [isTrailing, isBlank]
    | true => simp [isTrailing, isBlank]
  | undefined =>
    rw [Decimal.floatText, hx]
    simp [isTrailing, isBlank]

theorem isFactor_of_reads {e : String × Float} (hs : IsSymbol e.1.toList)
    (hreads : Decimal.wholeFloat? (Decimal.floatText e.2).toList = some e.2) : IsFactor e := by
  have hplain := plain_floatText e.2
  refine ⟨hs, ⟨?_, ?_, ?_, ?_⟩, ?_, hreads⟩
  · intro hnil
    rw [hnil] at hreads
    cases hreads
  · exact fun c hc => isBlank_of_isTrailing (hplain c (List.mem_of_head? hc)).1
  · exact fun c hc => (hplain c (List.mem_of_getLast? hc)).1
  · exact fun hmem => (hplain '#' hmem).2 rfl
  · exact fun c hc => isBreak_of_isBlank (isBlank_of_isTrailing (hplain c hc).1)

/-! ### Written lines -/

theorem toList_unitLine (e : String × String) :
    (unitLine e).toList = e.1.toList ++ ':' :: ' ' :: e.2.toList := by
  rw [unitLine, String.toList_append, String.toList_append, List.append_assoc]
  rfl

theorem toList_factorLine (e : String × Float) :
    (factorLine e).toList = e.1.toList ++ '-' :: ':' :: ' ' :: (Decimal.floatText e.2).toList := by
  rw [factorLine, String.toList_append, String.toList_append, List.append_assoc]
  rfl

theorem ofChars_toList_unitLine {e : String × String} (h : IsUnit e) :
    ofChars (unitLine e).toList = .unit e.1 e.2 := by
  rw [toList_unitLine, ofChars_unitLine h.symbol h.sign h.expression, String.ofList_toList,
    String.ofList_toList]

theorem ofChars_toList_factorLine {e : String × Float} (h : IsFactor e) :
    ofChars (factorLine e).toList = .factor e.1 e.2 := by
  rw [toList_factorLine, ofChars_factorLine h.symbol h.expression h.reads, String.ofList_toList]

/-- Symbol, signs and definition make one line. -/
theorem unbroken_line {symbol signs definition : List Char} (hs : IsSymbol symbol)
    (hsigns : Unbroken signs) (hd : Unbroken definition) :
    symbol ++ (signs ++ definition) ≠ [] ∧ Unbroken (symbol ++ (signs ++ definition)) := by
  refine ⟨by simp [hs.nonempty], fun c hc => ?_⟩
  rcases List.mem_append.mp hc with hc | hc
  · exact hs.unbroken c hc
  · rcases List.mem_append.mp hc with hc | hc
    · exact hsigns c hc
    · exact hd c hc

theorem lines_of_unbroken {cs : List Char} (hne : cs ≠ []) (h : Unbroken cs) :
    lines cs = [cs] := by
  rw [lines, List.splitOnP_eq_singleton h, List.filter_cons_of_pos (by simpa using hne)]
  rfl

/-- Texts of one line each, joined by line feeds, have these lines. -/
theorem lines_intercalate {ls : List String}
    (h : ∀ l ∈ ls, l.toList ≠ [] ∧ Unbroken l.toList) :
    lines ("\n".intercalate ls).toList = ls.map String.toList := by
  induction ls with
  | nil => rfl
  | cons l ls ih =>
    obtain ⟨⟨hne, hl⟩, hls⟩ := List.forall_mem_cons.mp h
    cases ls with
    | nil => rw [String.intercalate_singleton, lines_of_unbroken hne hl, List.map_singleton]
    | cons m ls =>
      have hjoin := lines_join .lf l ("\n".intercalate (m :: ls))
      rw [lines_of_unbroken hne hl, ih hls] at hjoin
      rw [String.intercalate_cons_cons]
      exact hjoin

theorem lines_text {d : Definitions} (hunits : ∀ e ∈ d.units.entries, IsUnit e)
    (hfactors : ∀ e ∈ d.factors.entries, IsFactor e) :
    lines d.text.toList = (d.units.entries.map unitLine ++ d.factors.entries.map factorLine).map
      String.toList := by
  refine lines_intercalate fun l hl => ?_
  rcases List.mem_append.mp hl with hl | hl
  · obtain ⟨e, he, rfl⟩ := List.mem_map.mp hl
    have hsigns : Unbroken [':', ' '] := by simp [Unbroken, isBreak]
    rw [toList_unitLine]
    exact unbroken_line (hunits e he).symbol hsigns (hunits e he).unbroken
  · obtain ⟨e, he, rfl⟩ := List.mem_map.mp hl
    have hsigns : Unbroken ['-', ':', ' '] := by simp [Unbroken, isBreak]
    rw [toList_factorLine]
    exact unbroken_line (hfactors e he).symbol hsigns (hfactors e he).unbroken

/-! ### Written definitions, read again -/

/-- Parts of lines that are written for the entries of a catalog. -/
theorem filterMap_map_line {α β : Type} {part? : Line → Option β} {line : α → String}
    {f : α → Option β} {es : List α} (h : ∀ e ∈ es, part? (ofChars (line e).toList) = f e) :
    ((es.map line).map String.toList).filterMap (fun l => part? (ofChars l)) = es.filterMap f := by
  rw [List.map_map, List.filterMap_map]
  exact List.filterMap_congr h

section

variable {d : Definitions} (hunits : ∀ e ∈ d.units.entries, IsUnit e)
  (hfactors : ∀ e ∈ d.factors.entries, IsFactor e)

include hunits hfactors

theorem unitLines_text : unitLines d.text = d.units.entries := by
  have hunit : ∀ e ∈ d.units.entries, (ofChars (unitLine e).toList).unit? = some e := by
    intro e he
    rw [ofChars_toList_unitLine (hunits e he)]
    rfl
  have hfactor : ∀ e ∈ d.factors.entries, (ofChars (factorLine e).toList).unit? = none := by
    intro e he
    rw [ofChars_toList_factorLine (hfactors e he)]
    rfl
  rw [unitLines, lines_text hunits hfactors, List.map_append, List.filterMap_append,
    filterMap_map_line hunit, filterMap_map_line hfactor, List.filterMap_some,
    List.filterMap_none, List.append_nil]

theorem factorLines_text : factorLines d.text = d.factors.entries := by
  have hunit : ∀ e ∈ d.units.entries, (ofChars (unitLine e).toList).factor? = none := by
    intro e he
    rw [ofChars_toList_unitLine (hunits e he)]
    rfl
  have hfactor : ∀ e ∈ d.factors.entries, (ofChars (factorLine e).toList).factor? = some e := by
    intro e he
    rw [ofChars_toList_factorLine (hfactors e he)]
    rfl
  rw [factorLines, lines_text hunits hfactors, List.map_append, List.filterMap_append,
    filterMap_map_line hunit, filterMap_map_line hfactor, List.filterMap_some,
    List.filterMap_none, List.nil_append]

theorem warnings_text : (ofText d.text).warnings = [] := by
  rw [warnings_ofText, lines_text hunits hfactors, List.eq_nil_iff_forall_not_mem]
  intro w hw
  obtain ⟨-, l, hl, hrejected⟩ := mem_rejections.mp hw
  obtain ⟨s, hs, rfl⟩ := List.mem_map.mp (List.mem_of_getElem? hl)
  rcases List.mem_append.mp hs with hs | hs
  · obtain ⟨e, he, rfl⟩ := List.mem_map.mp hs
    rw [ofChars_toList_unitLine (hunits e he)] at hrejected
    cases hrejected
  · obtain ⟨e, he, rfl⟩ := List.mem_map.mp hs
    rw [ofChars_toList_factorLine (hfactors e he)] at hrejected
    cases hrejected

/-- Definitions in normal form are read as they were written. -/
theorem ofText_text_of_normal : ofText d.text = { d with warnings := [] } := by
  have hu : (ofText d.text).units = d.units := by
    rw [units_ofText, unitLines_text hunits hfactors, Catalog.enter_entries]
  have hf : (ofText d.text).factors = d.factors := by
    rw [factors_ofText, factorLines_text hunits hfactors, Catalog.enter_entries]
  rw [← hu, ← hf, ← warnings_text hunits hfactors]

end

theorem unbroken_of_mem_lines {cs l : List Char} (h : l ∈ lines cs) : Unbroken l := by
  have hmem : l ∈ cs.splitOnP isBreak := (List.mem_filter.mp h).1
  clear h
  induction cs generalizing l with
  | nil =>
    rw [List.splitOnP_nil, List.mem_singleton] at hmem
    subst hmem
    exact fun c hc => by cases hc
  | cons c cs ih =>
    rw [List.splitOnP_cons_eq_if_modifyHead] at hmem
    split at hmem
    · rcases List.mem_cons.mp hmem with rfl | hmem
      · exact fun c hc => by cases hc
      · exact ih hmem
    · next hc =>
      obtain ⟨m, ms, hms⟩ := List.exists_cons_of_ne_nil (List.splitOnP_ne_nil isBreak cs)
      rw [hms] at hmem ih
      rcases List.mem_cons.mp hmem with rfl | hmem
      · exact List.forall_mem_cons.mpr ⟨by simpa using hc, ih List.mem_cons_self⟩
      · exact ih (List.mem_cons_of_mem _ hmem)

/-- **The normal form of a text.**  What a text defines, written one definition on a line and read
again, are the same units and factors in the same order, and no line is rejected.  The law of the
shortest digits is a hypothesis: that the text of a factor reads as the factor. -/
theorem ofText_text (text : String)
    (hlaw : ∀ e ∈ (ofText text).factors.entries,
      Decimal.wholeFloat? (Decimal.floatText e.2).toList = some e.2) :
    ofText (ofText text).text = { ofText text with warnings := [] } := by
  refine ofText_text_of_normal (fun e he => ?_) fun e he => ?_
  · obtain ⟨l, hl, hunit⟩ := List.mem_filterMap.mp (mem_unitLines he)
    exact isUnit_of_ofChars (unbroken_of_mem_lines hl) hunit
  · obtain ⟨l, -, hfactor⟩ := List.mem_filterMap.mp (mem_factorLines he)
    exact isFactor_of_reads (isSymbol_of_ofChars_factor hfactor) (hlaw e he)

/-- A symbol with a mark, an expression with a colon, a symbol that ends in a sign, a value that is
not finite and a rejected line. -/
theorem ofText_text_mixed :
    ofText (ofText "a#b : m:s ,; # c\nKi -: 1024;\nx--: inf\nbad").text =
        { ofText "a#b : m:s ,; # c\nKi -: 1024;\nx--: inf\nbad" with warnings := [] } ∧
      (ofText "a#b : m:s ,; # c\nKi -: 1024;\nx--: inf\nbad").text =
        "a#b: m:s\nKi-: 1024.0\nx--: inf" :=
  ⟨ofText_text "a#b : m:s ,; # c\nKi -: 1024;\nx--: inf\nbad" (by decide +kernel),
    by decide +kernel⟩

end UnitCalculus.Definitions
