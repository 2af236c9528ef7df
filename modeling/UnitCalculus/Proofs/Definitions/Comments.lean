import Mathlib.Data.List.DropRight
import Mathlib.Data.List.Induction
import Mathlib.Data.List.TakeWhile
import UnitCalculus.Proofs.Definitions.Lines

/-! # Comments in definition texts

The text without its comments (`uncommented`) has the same line breaks, and each of its lines is the
line up to the first `#` (`splitOnP_uncommented`).  A comment behind the colon changes nothing
(`ofChars_withoutComment`).  A `#` before the colon is a character of the symbol to a line, and takes
the colon away with the comment.  So the text without its comments defines what the text defines,
less what has a symbol with a `#` (`ofText_uncommented`). -/

namespace UnitCalculus.Definitions

open Text

/-! ### Deleting comments -/

/-- The characters that are in no comment; `inComment` says whether the first of them is. -/
def dropComments (inComment : Bool) : List Char → List Char
  | [] => []
  | c :: cs =>
    if isBreak c then c :: dropComments false cs
    else if inComment || c == '#' then dropComments true cs
    else c :: dropComments false cs

/-- The text without the first `#` of each line and what stands behind it in the line. -/
def uncommented (text : String) : String := String.ofList (dropComments false text.toList)

theorem splitOnP_dropComments (inComment : Bool) (cs : List Char) :
    (dropComments inComment cs).splitOnP isBreak =
      ((cs.splitOnP isBreak).map Line.withoutComment).modifyHead
        fun l => if inComment then [] else l := by
  induction cs generalizing inComment with
  | nil => cases inComment <;> rfl
  | cons c cs ih =>
    rw [dropComments, List.splitOnP_cons_eq_if_modifyHead]
    obtain ⟨l, ls, hlines⟩ := List.exists_cons_of_ne_nil (List.splitOnP_ne_nil isBreak cs)
    by_cases hbreak : isBreak c = true
    · rw [if_pos hbreak, if_pos hbreak, List.splitOnP_cons_eq_if_modifyHead, if_pos hbreak, ih,
        hlines]
      cases inComment <;> rfl
    · rw [if_neg hbreak, if_neg hbreak, hlines]
      by_cases hcomment : (inComment || c == '#') = true
      · rw [if_pos hcomment, ih, hlines]
        cases inComment with
        | true => rfl
        | false =>
          have hempty : Line.withoutComment (c :: l) = [] :=
            List.takeWhile_cons_of_neg (by simpa using hcomment)
          simp [hempty]
      · rw [if_neg hcomment, List.splitOnP_cons_eq_if_modifyHead, if_neg hbreak, ih, hlines]
        obtain ⟨rfl, hc⟩ : inComment = false ∧ c ≠ '#' := by simpa using hcomment
        simp [Line.withoutComment, hc]

/-- Deleting comments cuts each line off at its first `#`. -/
theorem splitOnP_uncommented (text : String) :
    (uncommented text).toList.splitOnP isBreak =
      (text.toList.splitOnP isBreak).map Line.withoutComment := by
  rw [uncommented, String.toList_ofList, splitOnP_dropComments]
  exact congrFun List.modifyHead_id _

example : uncommented "h: 60 min # exact\n# all\ns#: 1 s" = "h: 60 min \n\ns" := by decide

/-! ### Parts of a line -/

namespace Line

variable {a b cs : List Char} {c : Char}

theorem bne_of_not_mem (h : c ∉ cs) : ∀ d ∈ cs, (d != c) = true := by
  intro d hd
  rw [bne_iff_ne]
  rintro rfl
  exact h hd

theorem definitionPart_concat (hc : isBlank c = true) :
    definitionPart (cs ++ [c]) = definitionPart cs := by
  have hmark : c ≠ '#' := by
    rintro rfl
    cases hc
  rw [definitionPart, withoutComment, List.takeWhile_append]
  split
  · next hlength =>
    have hcs : withoutComment cs = cs :=
      (List.takeWhile_prefix _).eq_of_length hlength
    rw [List.takeWhile_cons_of_pos (by simpa using hmark), List.takeWhile_nil, trimBlank_concat hc,
      definitionPart, hcs]
  · rfl

theorem definitionPart_trimRight (cs : List Char) :
    definitionPart (trimRight cs) = definitionPart cs := by
  induction cs using List.reverseRecOn with
  | nil => rfl
  | append_singleton cs c ih =>
    by_cases hc : isBlank c = true
    · rw [trimRight_concat hc, definitionPart_concat hc, ih]
    · rw [trimRight_eq_self (by simpa using hc)]

/-- A comment is no part of the definition before it. -/
theorem definitionPart_withoutComment (cs : List Char) :
    definitionPart (withoutComment cs) = definitionPart cs := by
  rw [definitionPart, definitionPart, withoutComment, withoutComment, List.takeWhile_idem]

theorem symbolPart_trimLeft (cs : List Char) : symbolPart (trimLeft cs) = symbolPart cs := by
  rw [symbolPart, trimBlank, trimLeft, trimLeft, List.dropWhile_idempotent]
  rfl

theorem mem_symbolPart_iff (hblank : isBlank c = false) (hsign : c ≠ '-') :
    c ∈ (symbolPart cs).1 ↔ c ∈ cs := by
  have htrim : c ∈ trimBlank cs ↔ c ∈ cs := mem_trimBlank_iff hblank
  rw [← htrim, symbolPart]
  split
  · next r hr =>
    have hmem : c ∈ trimBlank cs ↔ c ∈ '-' :: r := by rw [← hr, List.mem_reverse]
    rw [mem_trimRight_iff hblank, List.mem_reverse, hmem, List.mem_cons, or_iff_right hsign]
  · rfl

/-! ### What a line defines -/

/-- The symbol that a line defines, as a unit or as a factor. -/
def symbol? : Line → Option String
  | .unit symbol _ => some symbol
  | .factor symbol _ => some symbol
  | _ => none

/-- Whether a symbol has no `#`. -/
def isPlain (symbol : String) : Bool := !symbol.toList.contains '#'

theorem symbol?_of_unit? {l : Line} {e : String × String} (h : l.unit? = some e) :
    l.symbol? = some e.1 := by
  cases l <;> cases h
  rfl

theorem symbol?_of_factor? {l : Line} {e : String × Float} (h : l.factor? = some e) :
    l.symbol? = some e.1 := by
  cases l <;> cases h
  rfl

theorem OfParts.of_symbol? {symbol definition : List Char} {isFactor : Bool} {l : Line} {n : String}
    (hl : OfParts symbol definition isFactor l) (h : l.symbol? = some n) :
    ProperParts symbol definition ∧ n = String.ofList symbol := by
  cases hl with
  | rejected fault => cases h
  | unit hparts => exact ⟨hparts, (Option.some.inj h).symm⟩
  | factor hparts x => exact ⟨hparts, (Option.some.inj h).symm⟩

/-- What a line with a colon says. -/
theorem ofChars_colon (ha : ':' ∉ a) (b : List Char) :
    ofChars (a ++ ':' :: b) =
      if (trimLeft a).head? = some '#' then skipped
      else ofParts (symbolPart a).1 (symbolPart a).2 (definitionPart b) := by
  have hstripped : trimBlank (a ++ ':' :: b) = trimLeft a ++ ':' :: trimRight b := by
    rw [trimBlank, trimLeft_append_cons rfl, trimRight_append_cons rfl]
  have hname : ∀ c ∈ trimLeft a, (c != ':') = true :=
    bne_of_not_mem fun hmem => ha ((mem_dropWhile_iff rfl).mp hmem)
  have hhead : ((trimLeft a ++ ':' :: trimRight b).head? == some '#') =
      decide ((trimLeft a).head? = some '#') := by
    rw [List.head?_append, beq_eq_decide]
    cases trimLeft a <;> rfl
  unfold ofChars
  dsimp only
  rw [hstripped, hhead, List.dropWhile_append_of_pos hname, List.takeWhile_append_of_pos hname,
    List.dropWhile_cons_of_neg (by simp), List.takeWhile_cons_of_neg (by simp), List.append_nil,
    symbolPart_trimLeft]
  simp [definitionPart_trimRight]

/-- A line without a colon defines nothing. -/
theorem symbol?_ofChars_of_not_mem (h : ':' ∉ cs) : (ofChars cs).symbol? = none := by
  have hdrop : (trimBlank cs).dropWhile (· != ':') = [] :=
    List.dropWhile_eq_nil_iff.mpr
      (bne_of_not_mem fun hmem => h ((mem_trimBlank_iff rfl).mp hmem))
  unfold ofChars
  dsimp only
  rw [hdrop]
  split <;> rfl

/-! ### A line without its comment -/

/-- A comment behind the colon does not matter to a line. -/
theorem ofChars_withoutComment (ha : ':' ∉ a) (hmark : '#' ∉ a) (b : List Char) :
    ofChars (withoutComment (a ++ ':' :: b)) = ofChars (a ++ ':' :: b) := by
  rw [withoutComment, List.takeWhile_append_of_pos (bne_of_not_mem hmark),
    List.takeWhile_cons_of_pos rfl, ofChars_colon ha, ofChars_colon ha, ← withoutComment,
    definitionPart_withoutComment]

/-- A comment in front of the colon takes the colon away. -/
theorem not_mem_withoutComment (ha : ':' ∉ a) (hmark : '#' ∈ a) (b : List Char) :
    ':' ∉ withoutComment (a ++ ':' :: b) := by
  obtain ⟨r, t, rfl, hr⟩ := List.eq_append_cons_of_mem hmark
  rw [withoutComment, List.append_assoc, List.takeWhile_append_of_pos (bne_of_not_mem hr),
    List.cons_append, List.takeWhile_cons_of_neg (by simp), List.append_nil]
  exact fun hmem => ha (List.mem_append_left _ hmem)

/-- The symbol that a line defines has the `#` that stand in front of the colon. -/
theorem isPlain_symbol? (ha : ':' ∉ a) {n : String}
    (h : (ofChars (a ++ ':' :: b)).symbol? = some n) : isPlain n = decide ('#' ∉ a) := by
  rw [ofChars_colon ha] at h
  split at h
  · cases h
  · obtain ⟨-, rfl⟩ := (ofParts_spec _ _ _).of_symbol? h
    rw [isPlain, String.toList_ofList, List.contains_eq_mem, ← decide_not, decide_eq_decide,
      mem_symbolPart_iff rfl (by decide)]

/-- Without its comment, a line says the same or it defines nothing, and what it defines has a plain
symbol in the first case and none in the second. -/
theorem withoutComment_cases (cs : List Char) :
    (ofChars (withoutComment cs) = ofChars cs ∧ ∀ n ∈ (ofChars cs).symbol?, isPlain n = true) ∨
      ((ofChars (withoutComment cs)).symbol? = none ∧
        ∀ n ∈ (ofChars cs).symbol?, isPlain n = false) := by
  by_cases hcolon : ':' ∈ cs
  · obtain ⟨a, b, rfl, ha⟩ := List.eq_append_cons_of_mem hcolon
    by_cases hmark : '#' ∈ a
    · refine .inr ⟨symbol?_ofChars_of_not_mem (not_mem_withoutComment ha hmark b), fun n hn => ?_⟩
      simpa [hmark] using isPlain_symbol? ha hn
    · refine .inl ⟨ofChars_withoutComment ha hmark b, fun n hn => ?_⟩
      simpa [hmark] using isPlain_symbol? ha hn
  · have hstripped : ':' ∉ withoutComment cs := fun hmem =>
      hcolon ((List.takeWhile_sublist _).mem hmem)
    refine .inr ⟨symbol?_ofChars_of_not_mem hstripped, fun n hn => ?_⟩
    rw [symbol?_ofChars_of_not_mem hcolon] at hn
    cases hn

/-- What a line defines without its comment is what it defines, if the symbol is plain. -/
theorem filter_withoutComment {α : Type} {part? : Line → Option (String × α)}
    (hpart : ∀ {l : Line} {e : String × α}, part? l = some e → l.symbol? = some e.1)
    (cs : List Char) :
    part? (ofChars (withoutComment cs)) = (part? (ofChars cs)).filter fun e => isPlain e.1 := by
  rcases withoutComment_cases cs with ⟨hsame, hplain⟩ | ⟨hnone, hplain⟩
  · rw [hsame]
    cases he : part? (ofChars cs) with
    | none => rfl
    | some e => rw [Option.filter_some, if_pos (hplain _ (hpart he))]
  · have hstripped : part? (ofChars (withoutComment cs)) = none := by
      cases he : part? (ofChars (withoutComment cs)) with
      | none => rfl
      | some e => rw [hpart he] at hnone; cases hnone
    rw [hstripped]
    cases he : part? (ofChars cs) with
    | none => rfl
    | some e => rw [Option.filter_some, if_neg (by simp [hplain _ (hpart he)])]

end Line

/-! ### A text without its comments -/

open Line

/-- Empty lines do not count for what the lines define. -/
theorem filterMap_lines {β : Type} {part? : Line → Option β} (hskipped : part? .skipped = none)
    (cs : List Char) : (lines cs).filterMap (fun l => part? (ofChars l)) =
      (cs.splitOnP isBreak).filterMap fun l => part? (ofChars l) :=
  filterMap_nonempty hskipped _

/-- The lines of the text without its comments define what the lines of the text define under plain
symbols. -/
theorem filterMap_uncommented {α : Type} {part? : Line → Option (String × α)}
    (hpart : ∀ {l : Line} {e : String × α}, part? l = some e → l.symbol? = some e.1)
    (text : String) :
    (lines (uncommented text).toList).filterMap (fun l => part? (ofChars l)) =
      ((lines text.toList).filterMap fun l => part? (ofChars l)).filter fun e => isPlain e.1 := by
  have hskipped : part? .skipped = none :=
    Option.eq_none_iff_forall_not_mem.mpr fun e he => by cases hpart he
  rw [filterMap_lines hskipped, filterMap_lines hskipped, splitOnP_uncommented,
    List.filterMap_map, List.filter_filterMap]
  exact List.filterMap_congr fun l _ => filter_withoutComment hpart l

theorem units_uncommented (text : String) :
    (ofText (uncommented text)).units.entries =
      (ofText text).units.entries.filter fun e => isPlain e.1 := by
  rw [units_ofText, units_ofText, unitLines, filterMap_uncommented symbol?_of_unit?,
    Catalog.entries_enter_filter isPlain]
  rfl

theorem factors_uncommented (text : String) :
    (ofText (uncommented text)).factors.entries =
      (ofText text).factors.entries.filter fun e => isPlain e.1 := by
  rw [factors_ofText, factors_ofText, factorLines, filterMap_uncommented symbol?_of_factor?,
    Catalog.entries_enter_filter isPlain]
  rfl

/-- **Comments in a text.**  The text without its comments defines the units and the factors of the
text that have plain symbols, in their order and as they are.  So comments matter to a text exactly
if it defines a symbol with a `#`. -/
theorem ofText_uncommented (text : String) :
    (ofText (uncommented text)).units.entries =
        (ofText text).units.entries.filter (fun e => isPlain e.1) ∧
      (ofText (uncommented text)).factors.entries =
        (ofText text).factors.entries.filter (fun e => isPlain e.1) ∧
      (((ofText (uncommented text)).units.entries = (ofText text).units.entries ∧
          (ofText (uncommented text)).factors.entries = (ofText text).factors.entries) ↔
        ∀ symbol ∈ (ofText text).units.keys ++ (ofText text).factors.keys,
          isPlain symbol = true) := by
  refine ⟨units_uncommented text, factors_uncommented text, ?_⟩
  rw [units_uncommented, factors_uncommented, List.filter_eq_self, List.filter_eq_self,
    List.forall_mem_append, Catalog.keys, Catalog.keys, List.forall_mem_map, List.forall_mem_map]

/-- A line that defines a symbol with a `#` defines nothing without its comment. -/
theorem not_ofText_uncommented :
    ¬∀ text : String, (ofText (uncommented text)).units.entries = (ofText text).units.entries ∧
      (ofText (uncommented text)).factors.entries = (ofText text).factors.entries := by
  intro h
  have hunits : (ofText "a#b: m").units.entries = [("a#b", "m")] := by decide +kernel
  have hnone : (ofText (uncommented "a#b: m")).units.entries = [] := by decide +kernel
  have hsame := (h "a#b: m").1
  rw [hunits, hnone] at hsame
  cases hsame

end UnitCalculus.Definitions
