import UnitCalculus.Proofs.Definitions.LineNumbers
import UnitCalculus.Proofs.Definitions.Lines

/-! # Texts joined by a line break

A line is idle if it is blank or a comment (`Line.Idle`); every other line contributes one unit, one
factor or one warning (`Line.parts_of_not_idle`), and the definitions of a text are made of what its
lines contribute (`madeOf_ofText`).  Since the lines of two texts with a line break between them are
those of the first and then those of the second, the joined text has the units and the factors of
the first updated by those of the second, and the warnings of both (`ofText_join`). -/

namespace UnitCalculus.Definitions

open Text

/-! ### What a line contributes -/

namespace Line

/-- The line holds nothing but blanks. -/
def BlankLine (l : List Char) : Prop := ∀ c ∈ l, isBlank c = true

/-- The first character of the line that is no blank is `#`. -/
def Comment (l : List Char) : Prop := ∃ bs r, l = bs ++ '#' :: r ∧ BlankLine bs

/-- The line is blank or a comment. -/
def Idle (l : List Char) : Prop := BlankLine l ∨ Comment l

/-- The reason why a line is rejected. -/
def fault? : Line → Option LineFault
  | .rejected fault => some fault
  | _ => none

/-- How many units, factors and warnings a line contributes. -/
def parts (l : Line) : Nat :=
  l.unit?.toList.length + l.factor?.toList.length + l.fault?.toList.length

theorem parts_eq_one {l : Line} (h : l ≠ .skipped) : l.parts = 1 := by
  cases l with
  | skipped => exact absurd rfl h
  | _ => rfl

variable {l : List Char}

theorem trimLeft_of_blankLine (h : BlankLine l) (r : List Char) :
    trimLeft (l ++ r) = trimLeft r :=
  List.dropWhile_append_of_pos h

/-- A line is blank, or its first character that is no blank is the first one when it is trimmed. -/
theorem blankLine_or_exists (l : List Char) :
    BlankLine l ∨ ∃ bs c r, l = bs ++ c :: r ∧ BlankLine bs ∧ isBlank c = false := by
  induction l with
  | nil => exact .inl fun c hc => by cases hc
  | cons c l ih =>
    cases hc : isBlank c with
    | false => exact .inr ⟨[], c, l, rfl, (fun d hd => by cases hd), hc⟩
    | true =>
      rcases ih with hl | ⟨bs, d, r, rfl, hbs, hd⟩
      · exact .inl (List.forall_mem_cons.mpr ⟨hc, hl⟩)
      · exact .inr ⟨c :: bs, d, r, rfl, List.forall_mem_cons.mpr ⟨hc, hbs⟩, hd⟩

theorem trimBlank_of_blankLine (h : BlankLine l) : trimBlank l = [] := by
  have hleft := trimLeft_of_blankLine h []
  rw [List.append_nil] at hleft
  rw [trimBlank, hleft]
  rfl

theorem trimBlank_of_first {bs r : List Char} {c : Char} (hbs : BlankLine bs)
    (hc : isBlank c = false) : trimBlank (bs ++ c :: r) = c :: trimRight r := by
  rw [trimBlank, trimLeft_of_blankLine hbs, trimLeft, List.dropWhile_cons_of_neg (by simp [hc])]
  exact trimRight_append_cons hc [] r

theorem not_idle_of_first {bs r : List Char} {c : Char} (hbs : BlankLine bs)
    (hc : isBlank c = false) (hmark : c ≠ '#') : ¬Idle (bs ++ c :: r) := by
  have htrim := trimBlank_of_first (r := r) hbs hc
  rintro (hblank | ⟨bs', r', hl, hbs'⟩)
  · rw [trimBlank_of_blankLine hblank] at htrim
    cases htrim
  · rw [hl, trimBlank_of_first hbs' (by decide)] at htrim
    exact hmark (List.cons.inj htrim).1.symm

theorem ofParts_ne_skipped (symbol definition : List Char) (isFactor : Bool) :
    ofParts symbol isFactor definition ≠ skipped := by
  intro hskipped
  have hparts := ofParts_spec symbol definition isFactor
  rw [hskipped] at hparts
  cases hparts

/-- The lines that are skipped are the idle ones. -/
theorem ofChars_eq_skipped_iff (l : List Char) : ofChars l = skipped ↔ Idle l := by
  rcases blankLine_or_exists l with hblank | ⟨bs, c, r, rfl, hbs, hc⟩
  · refine iff_of_true ?_ (.inl hblank)
    rw [ofChars, trimBlank_of_blankLine hblank]
    rfl
  · by_cases hmark : c = '#'
    · subst hmark
      refine iff_of_true ?_ (.inr ⟨bs, r, rfl, hbs⟩)
      rw [ofChars, trimBlank_of_first hbs hc]
      rfl
    · refine iff_of_false ?_ (not_idle_of_first hbs hc hmark)
      unfold ofChars
      dsimp only
      rw [trimBlank_of_first hbs hc, if_neg (by simpa using hmark)]
      split
      · exact Line.noConfusion
      · exact ofParts_ne_skipped _ _ _

theorem parts_of_idle (h : Idle l) : (ofChars l).parts = 0 := by
  rw [(ofChars_eq_skipped_iff l).mpr h]
  rfl

/-- A line that is not idle contributes exactly one unit, factor or warning. -/
theorem parts_of_not_idle (h : ¬Idle l) : (ofChars l).parts = 1 :=
  parts_eq_one fun hskipped => h ((ofChars_eq_skipped_iff l).mp hskipped)

end Line

/-! ### What a text is made of -/

open Line

/-- The definitions are what the lines contribute, one after the other. -/
structure MadeOf (ls : List (List Char)) (d : Definitions) : Prop where
  units : d.units = Catalog.empty.enter (ls.filterMap fun l => (ofChars l).unit?)
  factors : d.factors = Catalog.empty.enter (ls.filterMap fun l => (ofChars l).factor?)
  faults : d.warnings.map Warning.fault = ls.filterMap fun l => (ofChars l).fault?

theorem faults_rejections (number : Nat) (ls : List (List Char)) :
    (rejections number ls).map Warning.fault = ls.filterMap fun l => (ofChars l).fault? := by
  induction ls generalizing number with
  | nil => rfl
  | cons l ls ih =>
    rw [rejections_cons, List.map_append, ih, List.filterMap_cons]
    cases ofChars l <;> rfl

/-- Lines without a character contribute nothing. -/
theorem filterMap_physicalLines {β : Type} {part? : Line → Option β}
    (hskipped : part? .skipped = none) (cs : List Char) :
    (physicalLines cs).filterMap (fun l => part? (ofChars l)) =
      (lines cs).filterMap fun l => part? (ofChars l) := by
  rw [lines_eq_filter, filterMap_nonempty hskipped]

theorem madeOf_ofText (text : String) : MadeOf (physicalLines text.toList) (ofText text) where
  units := by rw [filterMap_physicalLines rfl, units_ofText, unitLines]
  factors := by rw [filterMap_physicalLines rfl, factors_ofText, factorLines]
  faults := by rw [filterMap_physicalLines rfl, warnings_ofText, faults_rejections]

/-! ### Two texts -/

theorem rejections_append (number : Nat) (ls ms : List (List Char)) :
    rejections number (ls ++ ms) =
      rejections number ls ++ rejections (ls.length + number) ms := by
  rw [rejections, List.zipIdx_append, List.filterMap_append, Nat.add_comm]
  rfl

/-- Counting from a later number on raises all numbers. -/
theorem rejections_add (k number : Nat) (ls : List (List Char)) :
    rejections (k + number) ls =
      (rejections number ls).map fun w => ⟨k + w.number, w.fault⟩ := by
  induction ls generalizing number with
  | nil => rfl
  | cons l ls ih =>
    rw [rejections_cons, rejections_cons, List.map_append, Nat.add_assoc, ih]
    cases ofChars l <;> rfl

/-- **Texts joined by a line break.**  The units are those of the first text, with what the second
one defines in the places of the same symbols, and then the others of the second; the factors
likewise.  The warnings are those of the first and those of the second, whose numbers go on from the
lines of the first.  All of them are what the lines contribute, one part for every line that is
neither blank nor a comment. -/
theorem ofText_join (s : LineBreak) (a b : String) :
    (ofText (a ++ s.text ++ b)).units.entries =
        Catalog.overlay (ofText a).units.entries (ofText b).units.entries ∧
      (ofText (a ++ s.text ++ b)).factors.entries =
        Catalog.overlay (ofText a).factors.entries (ofText b).factors.entries ∧
      (ofText (a ++ s.text ++ b)).warnings = (ofText a).warnings ++
        (ofText b).warnings.map (fun w => ⟨(lines a.toList).length + w.number, w.fault⟩) ∧
      (∀ text : String, MadeOf (physicalLines text.toList) (ofText text)) ∧
      (∀ l : List Char, (Idle l → (ofChars l).parts = 0) ∧ (¬Idle l → (ofChars l).parts = 1)) := by
  refine ⟨?_, ?_, ?_, madeOf_ofText, fun l => ⟨parts_of_idle, parts_of_not_idle⟩⟩
  · rw [units_ofText, unitLines_join, Catalog.enter_append, ← units_ofText, Catalog.entries_enter,
      ← units_ofText]
  · rw [factors_ofText, factorLines_join, Catalog.enter_append, ← factors_ofText,
      Catalog.entries_enter, ← factors_ofText]
  · rw [warnings_ofText, lines_join, rejections_append, rejections_add, ← warnings_ofText,
      ← warnings_ofText]

/-- A symbol that both texts define, and a rejected line that ends in a carriage return, with the line
feed behind it. -/
theorem ofText_join_overlap :
    (ofText ("x: m\nbad\r" ++ LineBreak.lf.text ++ "#\ny: kg\nx: s")).units.entries =
        [("x", "s"), ("y", "kg")] ∧
      (ofText ("x: m\nbad\r" ++ LineBreak.lf.text ++ "#\ny: kg\nx: s")).warnings =
        [⟨2, .missingColon "bad"⟩] ∧
      (ofChars "bad".toList).parts = 1 ∧ (ofChars "#".toList).parts = 0 := by
  obtain ⟨hunits, -, hwarnings, -, hparts⟩ := ofText_join .lf "x: m\nbad\r" "#\ny: kg\nx: s"
  have hbad : ¬Idle ([] ++ 'b' :: ['a', 'd']) :=
    not_idle_of_first (by simp [BlankLine]) rfl (by decide)
  have hcomment : Idle "#".toList := .inr ⟨[], [], rfl, by simp [BlankLine]⟩
  refine ⟨?_, ?_, (hparts _).2 hbad, (hparts _).1 hcomment⟩
  · rw [hunits]
    decide +kernel
  · rw [hwarnings]
    decide +kernel

end UnitCalculus.Definitions
