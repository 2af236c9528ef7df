import UnitCalculus.Definitions
import UnitCalculus.Proofs.Catalog

/-! # What a text defines, line by line

The units and the factors that a text defines are those of its lines, entered one after the other
(`units_ofText`, `factors_ofText`); the lines of two texts with a line break between them are those
of the first and then those of the second (`lines_append`).  Every symbol has a character, and no
definition starts with a blank (`isDefinition_of_mem_units`). -/

namespace UnitCalculus.Definitions

open Text

/-! ### Single lines -/

namespace Line

/-- The unit that a line defines. -/
def unit? : Line → Option (String × String)
  | .unit symbol definition => some (symbol, definition)
  | _ => none

/-- The factor that a line defines. -/
def factor? : Line → Option (String × Float)
  | .factor symbol value => some (symbol, value)
  | _ => none

/-- A symbol that has a character, with a definition that does not start with a blank. -/
structure IsDefinition (e : String × String) : Prop where
  symbol : e.1 ≠ ""
  head : ∀ c ∈ e.2.toList.head?, isBlank c = false

variable {symbol definition cs : List Char} {isFactor : Bool}

/-- Parts that make a unit or a factor: the symbol has characters, none of them blank, and there is
a definition. -/
structure ProperParts (symbol definition : List Char) : Prop where
  nonempty : symbol ≠ []
  visible : ∀ c ∈ symbol, isBlank c = false
  defined : definition ≠ []

/-- What a line with these parts says: a fault, or the unit or the factor of the parts. -/
inductive OfParts (symbol definition : List Char) : Bool → Line → Prop
  | rejected {isFactor : Bool} (fault : LineFault) :
    OfParts symbol definition isFactor (.rejected fault)
  | unit (hparts : ProperParts symbol definition) :
    OfParts symbol definition false (.unit (String.ofList symbol) (String.ofList definition))
  | factor (hparts : ProperParts symbol definition) (x : Float) :
    OfParts symbol definition true (.factor (String.ofList symbol) x)

theorem ofParts_spec (symbol definition : List Char) (isFactor : Bool) :
    OfParts symbol definition isFactor (ofParts symbol isFactor definition) := by
  unfold ofParts
  dsimp only
  split
  · exact .rejected _
  next hsymbol =>
  split
  · exact .rejected _
  next hblank =>
  split
  · exact .rejected _
  next hdefinition =>
  have hparts : ProperParts symbol definition :=
    ⟨by simpa using hsymbol, by simpa using hblank, by simpa using hdefinition⟩
  cases isFactor with
  | false => exact .unit hparts
  | true =>
    rw [if_pos rfl]
    split
    · exact .factor hparts _
    · exact .rejected _

theorem OfParts.of_unit? {l : Line} {e : String × String}
    (hl : OfParts symbol definition isFactor l) (h : l.unit? = some e) :
    isFactor = false ∧ ProperParts symbol definition ∧
      e = (String.ofList symbol, String.ofList definition) := by
  cases hl with
  | rejected fault => cases h
  | unit hparts => exact ⟨rfl, hparts, (Option.some.inj h).symm⟩
  | factor hparts x => cases h

theorem OfParts.of_factor? {l : Line} {e : String × Float}
    (hl : OfParts symbol definition isFactor l) (h : l.factor? = some e) :
    ProperParts symbol definition ∧ e.1 = String.ofList symbol := by
  cases hl with
  | rejected fault => cases h
  | unit hparts => cases h
  | factor hparts x =>
    cases h
    exact ⟨hparts, rfl⟩

theorem ProperParts.ofList_ne_empty (h : ProperParts symbol definition) :
    String.ofList symbol ≠ "" :=
  fun hempty => h.nonempty (String.ofList_eq_empty_iff.mp hempty)

theorem isBlank_head_definitionPart (cs : List Char) :
    ∀ c ∈ (definitionPart cs).head?, isBlank c = false := by
  intro c hc
  obtain ⟨r, hr⟩ := isPrefix_reverse_dropWhile isTrailing (trimBlank (withoutComment cs))
  refine isBlank_head_trimBlank (withoutComment cs) c ?_
  rw [← hr, List.head?_append, ← withoutTrailing, ← definitionPart, hc]
  rfl

theorem isDefinition_of_ofChars {e : String × String} (h : (ofChars cs).unit? = some e) :
    IsDefinition e := by
  unfold ofChars at h
  dsimp only at h
  split at h
  · cases h
  · split at h
    · cases h
    · next definition _ =>
      obtain ⟨-, hparts, rfl⟩ := (ofParts_spec _ _ _).of_unit? h
      refine ⟨hparts.ofList_ne_empty, fun c hc => isBlank_head_definitionPart definition c ?_⟩
      rwa [String.toList_ofList] at hc

theorem symbol_ne_of_ofChars_factor {e : String × Float} (h : (ofChars cs).factor? = some e) :
    e.1 ≠ "" := by
  unfold ofChars at h
  dsimp only at h
  split at h
  · cases h
  · split at h
    · cases h
    · obtain ⟨hparts, he⟩ := (ofParts_spec _ _ _).of_factor? h
      rw [he]
      exact hparts.ofList_ne_empty

end Line

/-! ### Lines of a text -/

/-- The units that the lines of a text define, one after the other. -/
def unitLines (text : String) : List (String × String) :=
  (lines text.toList).filterMap fun l => (Line.ofChars l).unit?

/-- The factors that the lines of a text define, one after the other. -/
def factorLines (text : String) : List (String × Float) :=
  (lines text.toList).filterMap fun l => (Line.ofChars l).factor?

theorem units_addLines (d : Definitions) (n : Nat) (ls : List (List Char)) :
    (d.addLines n ls).units = d.units.enter (ls.filterMap fun l => (Line.ofChars l).unit?) := by
  induction ls generalizing d n with
  | nil => rfl
  | cons l ls ih =>
    rw [addLines, ih]
    cases hl : Line.ofChars l <;> simp only [addLine, List.filterMap_cons, hl, Line.unit?]
    rfl

theorem factors_addLines (d : Definitions) (n : Nat) (ls : List (List Char)) :
    (d.addLines n ls).factors =
      d.factors.enter (ls.filterMap fun l => (Line.ofChars l).factor?) := by
  induction ls generalizing d n with
  | nil => rfl
  | cons l ls ih =>
    rw [addLines, ih]
    cases hl : Line.ofChars l <;> simp only [addLine, List.filterMap_cons, hl, Line.factor?]
    rfl

/-- The units of a text are those of its lines, entered one after the other. -/
theorem units_ofText (text : String) : (ofText text).units = Catalog.empty.enter (unitLines text) :=
  units_addLines empty 1 _

/-- The factors of a text are those of its lines, entered one after the other. -/
theorem factors_ofText (text : String) :
    (ofText text).factors = Catalog.empty.enter (factorLines text) :=
  factors_addLines empty 1 _

/-- Lines without a character define nothing. -/
theorem filterMap_nonempty {β : Type} {part? : Line → Option β} (hskipped : part? .skipped = none)
    (ls : List (List Char)) :
    (ls.filter (!·.isEmpty)).filterMap (fun l => part? (Line.ofChars l)) =
      ls.filterMap fun l => part? (Line.ofChars l) := by
  induction ls with
  | nil => rfl
  | cons l ls ih =>
    cases l with
    | nil =>
      have hempty : part? (Line.ofChars []) = none := hskipped
      rw [List.filter_cons_of_neg (by simp), ih, List.filterMap_cons, hempty]
    | cons c l =>
      rw [List.filter_cons_of_pos (by simp), List.filterMap_cons, List.filterMap_cons, ih]

theorem mem_keys_units {text symbol : String} :
    symbol ∈ (ofText text).units.keys ↔ symbol ∈ (unitLines text).map Prod.fst := by
  rw [units_ofText, Catalog.mem_keys_enter]
  exact or_iff_right (List.not_mem_nil)

theorem mem_unitLines {text : String} {e : String × String}
    (he : e ∈ (ofText text).units.entries) : e ∈ unitLines text := by
  rw [units_ofText] at he
  rcases Catalog.mem_entries_enter he with he | he
  · exact he
  · cases he

theorem mem_factorLines {text : String} {e : String × Float}
    (he : e ∈ (ofText text).factors.entries) : e ∈ factorLines text := by
  rw [factors_ofText] at he
  rcases Catalog.mem_entries_enter he with he | he
  · exact he
  · cases he

theorem isDefinition_of_mem_units {text : String} {e : String × String}
    (he : e ∈ (ofText text).units.entries) : Line.IsDefinition e := by
  obtain ⟨l, -, hl⟩ := List.mem_filterMap.mp (mem_unitLines he)
  exact Line.isDefinition_of_ofChars hl

theorem symbol_ne_of_mem_factors {text : String} {e : String × Float}
    (he : e ∈ (ofText text).factors.entries) : e.1 ≠ "" := by
  obtain ⟨l, -, hl⟩ := List.mem_filterMap.mp (mem_factorLines he)
  exact Line.symbol_ne_of_ofChars_factor hl

/-! ### Two texts -/

/-- A line break ends the lines before it. -/
theorem lines_append {c : Char} (hc : isBreak c = true) (as bs : List Char) :
    lines (as ++ c :: bs) = lines as ++ lines bs := by
  rw [lines, List.splitOnP_append_cons as bs hc, List.filter_append]
  rfl

/-- What a line may end with. -/
inductive LineBreak where
  | lf
  | cr
  | crlf
  deriving DecidableEq, Repr

/-- The characters of a line break. -/
def LineBreak.text : LineBreak → String
  | lf => "\n"
  | cr => "\r"
  | crlf => "\r\n"

theorem lines_join (s : LineBreak) (a b : String) :
    lines (a ++ s.text ++ b).toList = lines a.toList ++ lines b.toList := by
  rw [String.toList_append, String.toList_append, List.append_assoc]
  cases s with
  | lf => exact lines_append rfl _ _
  | cr => exact lines_append rfl _ _
  | crlf =>
    -- The line between CR and LF has no character.
    have hlf : lines ('\n' :: b.toList) = lines b.toList := lines_append (by rfl) [] _
    exact (lines_append (by rfl) a.toList ('\n' :: b.toList)).trans (congrArg _ hlf)

theorem unitLines_join (s : LineBreak) (a b : String) :
    unitLines (a ++ s.text ++ b) = unitLines a ++ unitLines b := by
  rw [unitLines, lines_join, List.filterMap_append]
  rfl

theorem factorLines_join (s : LineBreak) (a b : String) :
    factorLines (a ++ s.text ++ b) = factorLines a ++ factorLines b := by
  rw [factorLines, lines_join, List.filterMap_append]
  rfl

theorem unitLines_append (a b : String) :
    unitLines (a ++ "\n" ++ b) = unitLines a ++ unitLines b :=
  unitLines_join .lf a b

theorem factorLines_append (a b : String) :
    factorLines (a ++ "\n" ++ b) = factorLines a ++ factorLines b :=
  factorLines_join .lf a b

end UnitCalculus.Definitions
