import UnitCalculus.Proofs.Definitions.Lines
import UnitCalculus.Proofs.UnitTable

/-! # What a load reads

A load takes the definitions of units one after the other.  Each is read against the table that the
definitions before it leave (`UnitTable.readings`): with a quantity it enters the table, with a
fault of the expression it is left out with a diagnostic, and with any other fault it ends the load.
`taken_load` says so of the table, the report and the fault together; it follows from what one
definition does (`taken_addUnit`) by induction on the definitions.

The other faults are those of arithmetic (`arithmetic_of_escape`): a definition never starts with a
blank, so that the number in front of it is always readable. -/

namespace UnitCalculus

/-- The definition of a unit with what its expression stands for. -/
structure Reading where
  symbol : String
  result : Except Fault Quantity

namespace Reading

/-- The unit that is defined. -/
def unit? (r : Reading) : Option (String × Quantity) :=
  match r.result with
  | .ok q => some (r.symbol, q)
  | .error _ => none

/-- The diagnostic of a unit that is left out. -/
def diagnostic? (r : Reading) : Option Diagnostic :=
  match r.result with
  | .error (.expression f) => some ⟨r.symbol, .undefinable f⟩
  | _ => none

/-- The fault that ends the load. -/
def escape? (r : Reading) : Option Fault :=
  match r.result with
  | .ok _ => none
  | .error (.expression _) => none
  | .error f => some f

end Reading

namespace UnitTable

/-- The table with more units, defined one after the other. -/
def withUnits (t : UnitTable) (us : List (String × Quantity)) : UnitTable :=
  { t with units := t.units.enter us }

/-- The table with more factors, defined one after the other. -/
def withFactors (t : UnitTable) (fs : List (String × Float)) : UnitTable :=
  fs.foldl (fun t f => t.insertFactor f.1 (.real f.2)) t

/-- A definition, read against the table. -/
def reading (t : UnitTable) (e : String × String) : Reading :=
  ⟨e.1, Expression.read t .decimal e.2⟩

/-- What a load reads of the definitions of units: each against the table that those before it
leave, and none after one that ends the load. -/
def readings (t : UnitTable) : List (String × String) → List Reading
  | [] => []
  | e :: es =>
    t.reading e :: match (t.reading e).escape? with
      | some _ => []
      | none => (t.withUnits (t.reading e).unit?.toList).readings es

section tables

variable {t : UnitTable}

theorem withUnits_withUnits (us vs : List (String × Quantity)) :
    (t.withUnits us).withUnits vs = t.withUnits (us ++ vs) := by
  simp only [withUnits, Catalog.enter_append]

theorem frozen_withFactors (fs : List (String × Float)) : (t.withFactors fs).frozen = t.frozen := by
  induction fs generalizing t with
  | nil => rfl
  | cons f fs ih => exact ih

theorem readings_cons_of_goes_on {e : String × String} (h : (t.reading e).escape? = none)
    (es : List (String × String)) :
    t.readings (e :: es) =
      t.reading e :: (t.withUnits (t.reading e).unit?.toList).readings es := by
  rw [readings, h]

theorem readings_cons_of_ends {e : String × String} {f : Fault}
    (h : (t.reading e).escape? = some f) (es : List (String × String)) :
    t.readings (e :: es) = [t.reading e] := by
  rw [readings, h]

/-- A load comes to its end if its first reading does not end it and the others do not. -/
theorem goes_on_of_completes {e : String × String} {es : List (String × String)}
    (h : (t.readings (e :: es)).findSome? Reading.escape? = none) :
    (t.reading e).escape? = none ∧
      ((t.withUnits (t.reading e).unit?.toList).readings es).findSome? Reading.escape? = none := by
  cases hr : (t.reading e).escape? with
  | some f =>
    rw [readings_cons_of_ends hr, List.findSome?_cons, hr] at h
    cases h
  | none =>
    rw [readings_cons_of_goes_on hr, List.findSome?_cons, hr] at h
    exact ⟨rfl, h⟩

/-- The first definitions of a list are read as without the others. -/
theorem readings_append {es : List (String × String)}
    (h : (t.readings es).findSome? Reading.escape? = none) (fs : List (String × String)) :
    t.readings (es ++ fs) = t.readings es ++
      (t.withUnits ((t.readings es).filterMap Reading.unit?)).readings fs := by
  induction es generalizing t with
  | nil => rfl
  | cons e es ih =>
    obtain ⟨hfirst, hrest⟩ := goes_on_of_completes h
    rw [List.cons_append, readings_cons_of_goes_on hfirst, readings_cons_of_goes_on hfirst, ih hrest,
      withUnits_withUnits, List.filterMap_cons, List.cons_append]
    cases (t.reading e).unit? <;> rfl

/-- A load that comes to its end has read each definition against the table that those before it
leave. -/
theorem readings_split {before after : List (String × String)} {e : String × String}
    (h : (t.readings (before ++ e :: after)).findSome? Reading.escape? = none) :
    ∃ rest, t.readings (before ++ e :: after) = t.readings before ++
      (t.withUnits ((t.readings before).filterMap Reading.unit?)).reading e :: rest := by
  have hbefore : (t.readings before).findSome? Reading.escape? = none := by
    induction before generalizing t with
    | nil => rfl
    | cons b before ih =>
      obtain ⟨hfirst, hrest⟩ := goes_on_of_completes h
      rw [readings_cons_of_goes_on hfirst, List.findSome?_cons, hfirst]
      exact ih hrest
  exact ⟨_, readings_append hbefore _⟩

/-- A load that comes to its end has read every definition. -/
theorem symbol_readings {es : List (String × String)}
    (h : (t.readings es).findSome? Reading.escape? = none) :
    (t.readings es).map Reading.symbol = es.map Prod.fst := by
  induction es generalizing t with
  | nil => rfl
  | cons e es ih =>
    obtain ⟨hfirst, hrest⟩ := goes_on_of_completes h
    rw [readings_cons_of_goes_on hfirst, List.map_cons, List.map_cons, ih hrest]
    rfl

/-- Whatever is read is the definition of a unit, read against some table. -/
theorem exists_of_mem_readings {es : List (String × String)} {r : Reading}
    (hr : r ∈ t.readings es) : ∃ t' : UnitTable, ∃ e ∈ es, r = t'.reading e := by
  induction es generalizing t with
  | nil => cases hr
  | cons e es ih =>
    cases he : (t.reading e).escape? with
    | some f =>
      rw [readings_cons_of_ends he, List.mem_singleton] at hr
      exact ⟨t, e, List.mem_cons_self, hr⟩
    | none =>
      rw [readings_cons_of_goes_on he, List.mem_cons] at hr
      rcases hr with hr | hr
      · exact ⟨t, e, List.mem_cons_self, hr⟩
      · obtain ⟨t', e', he', hr⟩ := ih hr
        exact ⟨t', e', List.mem_cons_of_mem _ he', hr⟩

end tables

end UnitTable

/-! ### A load, definition by definition -/

/-- A load that takes the readings: the units enter the table and the report, the rejected ones are
diagnosed, and the first of the other faults ends it. -/
structure Taken (l : Loading) (rs : List Reading) (o : LoadOutcome) : Prop where
  table : o.loading.table = l.table.withUnits (rs.filterMap Reading.unit?)
  units : o.loading.report.units = l.report.units ++ (rs.filterMap Reading.unit?).map Prod.fst
  diagnostics :
    o.loading.report.diagnostics = l.report.diagnostics ++ rs.filterMap Reading.diagnostic?
  fault : o.fault = rs.findSome? Reading.escape?

theorem taken_nil (l : Loading) : Taken l [] ⟨l, none⟩ :=
  ⟨rfl, (List.append_nil _).symm, (List.append_nil _).symm, rfl⟩

/-- A load that goes on takes the readings of both parts. -/
theorem Taken.append {l : Loading} {o o' : LoadOutcome} {rs ss : List Reading} (h : Taken l rs o)
    (hfault : o.fault = none) (h' : Taken o.loading ss o') : Taken l (rs ++ ss) o' where
  table := by rw [h'.table, h.table, UnitTable.withUnits_withUnits, List.filterMap_append]
  units := by rw [h'.units, h.units, List.append_assoc, List.filterMap_append, List.map_append]
  diagnostics := by rw [h'.diagnostics, h.diagnostics, List.append_assoc, List.filterMap_append]
  fault := by rw [h'.fault, List.findSome?_append, ← h.fault, hfault, Option.none_or]

/-- The last record leaves the table and the report as they are. -/
theorem Taken.finish {l : Loading} {o : LoadOutcome} {rs : List Reading} (h : Taken l rs o) :
    Taken l rs (o.andThen fun l => ⟨l.finish, none⟩) := by
  obtain ⟨l', _ | f⟩ := o <;> exact ⟨h.table, h.units, h.diagnostics, h.fault⟩

namespace Loading

variable {l : Loading}

/-- One definition. -/
theorem taken_addUnit (hl : l.table.frozen = false) {e : String × String} (he : e.1 ≠ "") :
    Taken l [l.table.reading e] (l.addUnit e.1 e.2) := by
  unfold UnitTable.reading addUnit
  cases hread : Expression.read l.table .decimal e.2 with
  | ok q =>
    have hadd : l.table.addUnit e.1 (.quantity q) = .ok (l.table.insertUnit e.1 q) :=
      UnitTable.addUnit_eq_ok_iff.mpr ⟨he, hl, q, rfl, rfl⟩
    simp only [logged, hread, hadd, advance]
    exact ⟨rfl, rfl, (List.append_nil _).symm, rfl⟩
  | error f =>
    simp only [logged, hread]
    cases f
    case expression f => exact ⟨rfl, (List.append_nil _).symm, rfl, rfl⟩
    all_goals exact ⟨rfl, (List.append_nil _).symm, (List.append_nil _).symm, rfl⟩

/-- Definitions one after the other. -/
theorem taken_runSteps (hl : l.table.frozen = false) {es : List (String × String)}
    (hes : ∀ e ∈ es, e.1 ≠ "") :
    Taken l (l.table.readings es) (runSteps (fun l e => l.addUnit e.1 e.2) l es) := by
  induction es generalizing l with
  | nil => exact taken_nil l
  | cons e es ih =>
    have hstep := taken_addUnit hl (hes e List.mem_cons_self)
    have hfault := hstep.fault
    rw [List.findSome?_singleton] at hfault
    rw [runSteps, LoadOutcome.andThen]
    cases hr : (l.table.reading e).escape? with
    | some f =>
      rw [UnitTable.readings_cons_of_ends hr, hfault, hr]
      exact hstep
    | none =>
      have htable : (l.addUnit e.1 e.2).loading.table =
          l.table.withUnits (l.table.reading e).unit?.toList := by
        rw [hstep.table, List.filterMap_cons, List.filterMap_nil]
        cases (l.table.reading e).unit? <;> rfl
      rw [UnitTable.readings_cons_of_goes_on hr, hfault, hr, ← htable]
      exact hstep.append (hfault.trans hr)
        (ih (by rw [hstep.table]; exact hl) fun e he => hes e (List.mem_cons_of_mem _ he))

/-- The loading with factors defined. -/
def withFactors (l : Loading) (fs : List (String × Float)) : Loading :=
  { l with
    table := l.table.withFactors fs
    report := { l.report with factors := l.report.factors ++ fs.map Prod.fst } }

/-- Factors one after the other. -/
theorem runSteps_addFactor (hl : l.table.frozen = false) {fs : List (String × Float)}
    (hfs : ∀ f ∈ fs, f.1 ≠ "") :
    runSteps (fun l f => l.addFactor f.1 f.2) l fs = ⟨l.withFactors fs, none⟩ := by
  induction fs generalizing l with
  | nil => simp [runSteps, withFactors, UnitTable.withFactors]
  | cons f fs ih =>
    have hadd : l.table.addFactor f.1 (.magnitude (.real f.2)) =
        .ok (l.table.insertFactor f.1 (.real f.2)) :=
      UnitTable.addFactor_eq_ok_iff.mpr ⟨hfs f List.mem_cons_self, hl, _, rfl, rfl, rfl⟩
    have hstep : l.addFactor f.1 f.2 = ⟨l.withFactors [f], none⟩ := by
      rw [addFactor, hadd]
      rfl
    rw [runSteps, hstep, LoadOutcome.andThen, ih (l := l.withFactors [f]) hl fun g hg =>
      hfs g (List.mem_cons_of_mem _ hg)]
    simp [withFactors, UnitTable.withFactors]

end Loading

/-! ### The load of a text -/

/-- What a load of the definitions reads: the units, once the factors are defined. -/
def Definitions.readings (d : Definitions) (t : UnitTable) : List Reading :=
  (t.withFactors d.factors.entries).readings d.units.entries

section load

variable {t : UnitTable} {d : Definitions}

/-- Definitions with symbols, loaded into an open table, are read one after the other. -/
theorem taken_loadInto (ht : t.frozen = false) (hunits : ∀ e ∈ d.units.entries, e.1 ≠ "")
    (hfactors : ∀ f ∈ d.factors.entries, f.1 ≠ "") :
    Taken ((Loading.start t d).withFactors d.factors.entries) (d.readings t) (d.loadInto t) := by
  have htaken := Loading.taken_runSteps (l := (Loading.start t d).withFactors d.factors.entries)
    ((UnitTable.frozen_withFactors d.factors.entries).trans ht) hunits
  unfold Definitions.loadInto
  rw [Loading.runSteps_addFactor ht hfactors]
  exact htaken.finish

theorem taken_load (ht : t.frozen = false) (text : String) :
    Taken ((Loading.start t (.ofText text)).withFactors (Definitions.ofText text).factors.entries)
      ((Definitions.ofText text).readings t) (t.load (some text)) :=
  taken_loadInto ht (fun _ he => (Definitions.isDefinition_of_mem_units he).symbol)
    fun _ hf => Definitions.symbol_ne_of_mem_factors hf

end load

/-! ### The faults of a reading -/

namespace Expression

theorem onlyFaults_readUnit_any (table : UnitTable) (text : String) :
    OnlyFaults OfReading (readUnit table text) := by
  cases hlex : Token.lex text with
  | ok ts => exact onlyFaults_readUnit table hlex
  | error f =>
    rw [readUnit, tokens, hlex]
    exact onlyFaults_error (.inl ⟨f, rfl⟩)

theorem readDecimal_isOk {cs : List Char} (h : NumberReader.isPadded cs = true) :
    ∃ r, NumberReader.readDecimal cs = .ok r := by
  unfold NumberReader.readDecimal
  dsimp only
  split
  · exact ⟨_, rfl⟩
  · rw [if_pos h]
    exact ⟨_, rfl⟩

/-- Reading a quantity fails as reading its number or its unit does. -/
theorem onlyFaults_read_of (table : UnitTable) {text : String} {P : Fault → Prop}
    (hP : ∀ f, OfReading f → P f) (hnumber : OnlyFaults P (NumberReader.read .decimal text)) :
    OnlyFaults P (read table .decimal text) := by
  refine hnumber.bind fun r _ => ?_
  generalize r.getD (.integer 1, text) = p
  obtain ⟨m, rest⟩ := p
  dsimp only
  split
  · exact onlyFaults_ok _
  · refine OnlyFaults.imp ?_ hP
    exact (onlyFaults_readUnit_any table rest).bind fun q _ =>
      OnlyFaults.ofReading ((onlyFaults_liftNumber _).bind fun _ _ => onlyFaults_ok _)

/-- Reading a quantity fails by the expression or by arithmetic, if the blanks in front of it are
padding. -/
theorem onlyFaults_read (table : UnitTable) {text : String}
    (h : NumberReader.isPadded text.toList = true) :
    OnlyFaults OfReading (read table .decimal text) := by
  refine onlyFaults_read_of table (fun _ hf => hf) ?_
  obtain ⟨r, hr⟩ := readDecimal_isOk h
  unfold NumberReader.read
  dsimp only
  rw [hr]
  exact onlyFaults_ok _

/-- The fault is one of the expression or of arithmetic, or a number that is not readable. -/
inductive OfQuantity : Fault → Prop
  | reading {f : Fault} (h : OfReading f) : OfQuantity f
  | unreadable (s : String) : OfQuantity (.value (.unreadableNumber s))

/-- Other blanks in front of a quantity keep its number from being read. -/
theorem onlyFaults_read_any (table : UnitTable) (text : String) :
    OnlyFaults OfQuantity (read table .decimal text) := by
  refine onlyFaults_read_of table (fun _ hf => .reading hf) ?_
  have hdecimal : OnlyFaults OfQuantity (NumberReader.readDecimal text.toList) := by
    unfold NumberReader.readDecimal
    dsimp only
    split
    · exact onlyFaults_ok _
    · split
      · exact onlyFaults_ok _
      · exact onlyFaults_error (.unreadable _)
  exact hdecimal.bind fun _ _ => onlyFaults_ok _

end Expression

/-- Text that does not start with a blank is padded. -/
theorem NumberReader.isPadded_of_head {cs : List Char}
    (h : ∀ c ∈ cs.head?, Text.isBlank c = false) : isPadded cs = true := by
  cases cs with
  | nil => rfl
  | cons c cs =>
    rw [isPadded, List.takeWhile_cons_of_neg (by simp [h c rfl])]
    rfl

theorem Reading.escape?_eq_some_iff {r : Reading} {f : Fault} :
    r.escape? = some f ↔ r.result = .error f ∧ ∀ e, f ≠ .expression e := by
  obtain ⟨symbol, g | q⟩ := r
  · cases g <;> simp [escape?] <;> rintro rfl <;> simp
  · simp [escape?]

/-- Only arithmetic ends a load of a text early. -/
theorem Definitions.arithmetic_of_escape {t : UnitTable} {text : String} {r : Reading} {f : Fault}
    (hr : r ∈ (ofText text).readings t) (hf : r.escape? = some f) : Arithmetic f := by
  obtain ⟨t', e, he, rfl⟩ := UnitTable.exists_of_mem_readings hr
  obtain ⟨hread, hother⟩ := Reading.escape?_eq_some_iff.mp hf
  have hpadded := NumberReader.isPadded_of_head (isDefinition_of_mem_units he).head
  exact (Expression.onlyFaults_read t' hpadded f hread).resolve_left fun ⟨e, he⟩ => hother e he

end UnitCalculus
