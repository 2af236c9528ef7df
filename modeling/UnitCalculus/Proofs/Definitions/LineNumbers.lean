import UnitCalculus.Definitions

/-! # The line numbers of warnings

The lines of a text, as an editor shows them, include those without a character
(`physicalLines`); only the others are counted (`lines_eq_filter`).  So the number in a warning is
that of the line among the lines with a character (`warnings_renumbered`), and it is the line's own
exactly if there is no empty line before it (`warnings_ofText_numbered`). -/

namespace UnitCalculus.Definitions

/-! ### Lines with and without a character -/

/-- The lines of a text; a line ends with CR LF, LF or CR. -/
def physicalLines : List Char → List (List Char)
  | [] => [[]]
  | '\r' :: '\n' :: cs => [] :: physicalLines cs
  | c :: cs =>
    if isBreak c then [] :: physicalLines cs else (physicalLines cs).modifyHead (c :: ·)

/-- The two ways to find lines agree up to the first break, and then in the lines with a
character: between CR and LF, one of them finds an empty line. -/
theorem exists_first_line (cs : List Char) : ∃ l ps ls,
    physicalLines cs = l :: ps ∧ cs.splitOnP isBreak = l :: ls ∧
      ps.filter (!·.isEmpty) = ls.filter (!·.isEmpty) := by
  induction cs using physicalLines.induct with
  | case1 => exact ⟨[], [], [], rfl, rfl, rfl⟩
  | case2 cs ih =>
    obtain ⟨l, ps, ls, hps, hls, hrest⟩ := ih
    have hcr : isBreak '\r' = true := rfl
    have hlf : isBreak '\n' = true := rfl
    refine ⟨[], l :: ps, [] :: l :: ls, by rw [physicalLines, hps], ?_, ?_⟩
    · rw [List.splitOnP_cons_eq_if_modifyHead, if_pos hcr, List.splitOnP_cons_eq_if_modifyHead,
        if_pos hlf, hls]
    · rw [List.filter_cons_of_neg (a := []) (by simp), List.filter_cons, List.filter_cons, hrest]
  | case3 c cs hcrlf hbreak ih =>
    obtain ⟨l, ps, ls, hps, hls, hrest⟩ := ih
    refine ⟨[], l :: ps, l :: ls, ?_, ?_, ?_⟩
    · rw [physicalLines, if_pos hbreak, hps]
      exact hcrlf
    · rw [List.splitOnP_cons_eq_if_modifyHead, if_pos hbreak, hls]
    · rw [List.filter_cons, List.filter_cons, hrest]
  | case4 c cs hcrlf hbreak ih =>
    obtain ⟨l, ps, ls, hps, hls, hrest⟩ := ih
    refine ⟨c :: l, ps, ls, ?_, ?_, hrest⟩
    · rw [physicalLines, if_neg hbreak, hps]
      · rfl
      · exact hcrlf
    · rw [List.splitOnP_cons_eq_if_modifyHead, if_neg hbreak, hls]
      rfl

/-- The lines that are counted are those with a character. -/
theorem lines_eq_filter (cs : List Char) :
    lines cs = (physicalLines cs).filter (!·.isEmpty) := by
  obtain ⟨l, ps, ls, hps, hls, hrest⟩ := exists_first_line cs
  rw [lines, hps, hls, List.filter_cons, List.filter_cons, hrest]

example : physicalLines "a\r\n\r\nb\r".toList = [['a'], [], ['b'], []] := by decide

/-! ### Rejected lines -/

/-- The warning about a line with a number. -/
def Line.warning? (number : Nat) : Line → Option Warning
  | .rejected fault => some ⟨number, fault⟩
  | _ => none

/-- The warnings about lines that are counted from `number`. -/
def rejections (number : Nat) (ls : List (List Char)) : List Warning :=
  (ls.zipIdx number).filterMap fun p => (Line.ofChars p.1).warning? p.2

theorem rejections_cons (number : Nat) (l : List Char) (ls : List (List Char)) :
    rejections number (l :: ls) =
      ((Line.ofChars l).warning? number).toList ++ rejections (number + 1) ls := by
  rw [rejections, List.zipIdx_cons, List.filterMap_cons]
  dsimp only
  cases (Line.ofChars l).warning? number <;> rfl

theorem warnings_addLines (d : Definitions) (number : Nat) (ls : List (List Char)) :
    (d.addLines number ls).warnings = d.warnings ++ rejections number ls := by
  induction ls generalizing d number with
  | nil => exact (List.append_nil _).symm
  | cons l ls ih =>
    rw [addLines, ih, rejections_cons, ← List.append_assoc]
    cases Line.ofChars l <;> simp [addLine, Line.warning?]

/-- The warnings of a text are about its counted lines. -/
theorem warnings_ofText (text : String) :
    (ofText text).warnings = rejections 1 (lines text.toList) :=
  warnings_addLines empty 1 _

/-- Every line has at most one warning, in the order of the lines. -/
theorem sublist_numbers (number : Nat) (ls : List (List Char)) :
    ((rejections number ls).map Warning.number).Sublist (List.range' number ls.length) := by
  induction ls generalizing number with
  | nil => exact .slnil
  | cons l ls ih =>
    rw [rejections_cons, List.map_append, List.length_cons, List.range'_succ]
    cases Line.ofChars l with
    | rejected f => exact (ih (number + 1)).cons_cons number
    | _ => exact (ih (number + 1)).cons number

theorem pairwise_numbers (number : Nat) (ls : List (List Char)) :
    ((rejections number ls).map Warning.number).Pairwise (· < ·) :=
  List.Pairwise.sublist (sublist_numbers number ls) List.pairwise_lt_range'

theorem warning?_eq_some_iff {l : Line} {number : Nat} {w : Warning} :
    l.warning? number = some w ↔ l = .rejected w.fault ∧ number = w.number := by
  obtain ⟨k, fault⟩ := w
  cases l with
  | rejected f => simp [Line.warning?, and_comm]
  | _ => simp [Line.warning?]

/-- The warnings are about the rejected lines. -/
theorem mem_rejections {number : Nat} {ls : List (List Char)} {w : Warning} :
    w ∈ rejections number ls ↔ number ≤ w.number ∧
      ∃ l, ls[w.number - number]? = some l ∧ Line.ofChars l = .rejected w.fault := by
  rw [rejections, List.mem_filterMap]
  constructor
  · rintro ⟨⟨l, k⟩, hmem, hw⟩
    obtain ⟨hfault, rfl⟩ := warning?_eq_some_iff.mp hw
    obtain ⟨hle, hl⟩ := List.mem_zipIdx_iff_le_and_getElem?_sub.mp hmem
    exact ⟨hle, l, hl, hfault⟩
  · rintro ⟨hle, l, hl, hfault⟩
    exact ⟨(l, w.number), List.mem_zipIdx_iff_le_and_getElem?_sub.mpr ⟨hle, hl⟩,
      warning?_eq_some_iff.mpr ⟨hfault, rfl⟩⟩

/-! ### Numbers of counted lines -/

/-- How many of the first lines have a character. -/
def counted (ls : List (List Char)) (n : Nat) : Nat := (ls.take n).countP (!·.isEmpty)

/-- Lines behind others: if only lines with a character are counted, the number of each is how many
of them there are up to it. -/
theorem rejections_filter (before ls : List (List Char)) :
    rejections (before.countP (!·.isEmpty) + 1) (ls.filter (!·.isEmpty)) =
      (rejections (before.length + 1) ls).map
        fun w => ⟨counted (before ++ ls) w.number, w.fault⟩ := by
  induction ls generalizing before with
  | nil => rfl
  | cons l ls ih =>
    have ih := ih (before ++ [l])
    rw [List.append_assoc, List.length_append, List.countP_append] at ih
    cases l with
    | nil => exact ih
    | cons c l =>
      have hcounted : counted (before ++ (c :: l) :: ls) (before.length + 1) =
          before.countP (!·.isEmpty) + 1 := by
        rw [counted, List.append_cons, List.take_left' (by simp), List.countP_append]
        rfl
      have hfirst : ((Line.ofChars (c :: l)).warning? (before.countP (!·.isEmpty) + 1)).toList =
          (((Line.ofChars (c :: l)).warning? (before.length + 1)).toList).map
            fun w => ⟨counted (before ++ (c :: l) :: ls) w.number, w.fault⟩ := by
        cases Line.ofChars (c :: l) with
        | rejected f => simp [Line.warning?, hcounted]
        | _ => rfl
      rw [List.filter_cons_of_pos (by simp), rejections_cons, rejections_cons, List.map_append,
        hfirst]
      exact congrArg _ ih

/-- The number of a line is its own if no line up to it is empty. -/
theorem counted_eq_iff {ls : List (List Char)} {n : Nat} (hn : n ≤ ls.length) :
    counted ls n = n ↔ [] ∉ ls.take n := by
  have hlength : (ls.take n).length = n := List.length_take_of_le hn
  have hempty : (∀ l ∈ ls.take n, (!l.isEmpty) = true) ↔ [] ∉ ls.take n := by
    refine ⟨fun h hmem => by simpa using h [] hmem, fun h l hl => ?_⟩
    cases l with
    | nil => exact absurd hl h
    | cons c l => rfl
  rw [← hempty, ← List.countP_eq_length, hlength, counted]

/-! ### Warnings -/

/-- The warnings about the lines of a text, each with the line's own number. -/
def lineWarnings (text : String) : List Warning := rejections 1 (physicalLines text.toList)

theorem warnings_renumbered (text : String) :
    (ofText text).warnings = (lineWarnings text).map
      fun w => ⟨counted (physicalLines text.toList) w.number, w.fault⟩ := by
  rw [warnings_ofText, lines_eq_filter]
  exact rejections_filter [] _

/-- **The numbers in warnings.**  A text has one warning for every line that is rejected, in the
order of the lines, and its number is that of the line among the lines that have a character.  So the
warnings have the lines' own numbers exactly if no line is empty that stands before a rejected one. -/
theorem warnings_ofText_numbered (text : String) :
    (∀ w, w ∈ lineWarnings text ↔ 1 ≤ w.number ∧
      ∃ l, (physicalLines text.toList)[w.number - 1]? = some l ∧
        Line.ofChars l = .rejected w.fault) ∧
      ((lineWarnings text).map Warning.number).Pairwise (· < ·) ∧
      (ofText text).warnings = (lineWarnings text).map
        (fun w => ⟨counted (physicalLines text.toList) w.number, w.fault⟩) ∧
      ((ofText text).warnings.map Warning.number).Pairwise (· < ·) ∧
      ((ofText text).warnings = lineWarnings text ↔
        ∀ w ∈ lineWarnings text, [] ∉ (physicalLines text.toList).take w.number) := by
  refine ⟨fun w => mem_rejections, pairwise_numbers 1 _, warnings_renumbered text, ?_, ?_⟩
  · rw [warnings_ofText]
    exact pairwise_numbers 1 _
  · have hsame (f : Warning → Warning) : (lineWarnings text).map f = lineWarnings text ↔
        ∀ w ∈ lineWarnings text, f w = w := by
      have hinj := List.map_inj_left (f := f) (g := id) (l := lineWarnings text)
      rwa [List.map_id] at hinj
    rw [warnings_renumbered, hsame]
    refine forall_congr' fun w => imp_congr_right fun hw => ?_
    obtain ⟨hle, l, hl, -⟩ := mem_rejections.mp hw
    have hlt : w.number - 1 < (physicalLines text.toList).length :=
      (List.getElem?_eq_some_iff.mp hl).1
    rw [← counted_eq_iff (by omega)]
    exact ⟨congrArg Warning.number, fun h => by rw [h]⟩

/-- An empty line in front of a rejected one is not counted. -/
theorem not_warnings_ofText_lineWarnings :
    ¬∀ text : String, ∀ w ∈ (ofText text).warnings, w ∈ lineWarnings text := by
  intro h
  have hwarnings : (ofText "\nbad line").warnings = [⟨1, .missingColon "bad line"⟩] := by
    decide +kernel
  have hlines : lineWarnings "\nbad line" = [⟨2, .missingColon "bad line"⟩] := by decide +kernel
  have hmem := h "\nbad line"
  rw [hwarnings, hlines] at hmem
  simp at hmem

end UnitCalculus.Definitions
