import UnitCalculus.Proofs.Definitions.Completion

/-! # What a load does to the table

A load that comes to its end reports all factors and, of the units, those whose expressions can be
read; the others are diagnosed.  An expression is read against what the table had before, the
factors, and the units that are reported before it (`UnitTable.known`), although these are only
known once it is their turn.  Reported units are in the table with the quantities that were read, and
everything that is not reported is as it was (`accounts_of_load`). -/

namespace UnitCalculus

open Definitions Expression

/-! ### Readings of different units -/

namespace Reading

variable {rs ss : List Reading} {r : Reading}

theorem unit?_eq_some_iff {u : String × Quantity} :
    r.unit? = some u ↔ r.symbol = u.1 ∧ r.result = .ok u.2 := by
  obtain ⟨symbol, f | q⟩ := r <;> simp [unit?, Prod.ext_iff]

theorem diagnostic?_eq_some {d : Diagnostic} (h : r.diagnostic? = some d) : r.symbol = d.name := by
  unfold diagnostic? at h
  split at h <;> cases h
  rfl

/-- What readings give under their symbols comes in their order. -/
theorem sublist_filterMap {β : Type} {f : Reading → Option β} {name : β → String}
    (hname : ∀ {r b}, f r = some b → r.symbol = name b) (rs : List Reading) :
    ((rs.filterMap f).map name).Sublist (rs.map symbol) := by
  induction rs with
  | nil => exact .slnil
  | cons r rs ih =>
    cases hr : f r with
    | none =>
      rw [List.filterMap_cons_none hr]
      exact ih.cons _
    | some b =>
      rw [List.filterMap_cons_some hr, List.map_cons, List.map_cons, hname hr]
      exact ih.cons_cons _

theorem sublist_units (rs : List Reading) :
    ((rs.filterMap unit?).map Prod.fst).Sublist (rs.map symbol) :=
  sublist_filterMap (fun h => (unit?_eq_some_iff.mp h).1) rs

theorem sublist_diagnostics (rs : List Reading) :
    ((rs.filterMap diagnostic?).map Diagnostic.name).Sublist (rs.map symbol) :=
  sublist_filterMap diagnostic?_eq_some rs

/-- Of different units, those are defined that are read as quantities. -/
theorem symbol_mem_units_iff (hrs : (rs.map symbol).Nodup) (hr : r ∈ rs) :
    r.symbol ∈ (rs.filterMap unit?).map Prod.fst ↔ ∃ q, r.result = .ok q := by
  constructor
  · intro h
    obtain ⟨u, hu, hsymbol⟩ := List.mem_map.mp h
    obtain ⟨s, hs, hunit⟩ := List.mem_filterMap.mp hu
    obtain ⟨hs', hresult⟩ := unit?_eq_some_iff.mp hunit
    obtain rfl : s = r := List.inj_on_of_nodup_map hrs hs hr (hs'.trans hsymbol)
    exact ⟨u.2, hresult⟩
  · rintro ⟨q, hq⟩
    exact List.mem_map.mpr
      ⟨(r.symbol, q), List.mem_filterMap.mpr ⟨r, hr, unit?_eq_some_iff.mpr ⟨rfl, hq⟩⟩, rfl⟩

/-- Of different units, those that are defined by the first readings. -/
theorem filter_units_append (h : ((rs ++ ss).map symbol).Nodup) :
    (((rs ++ ss).filterMap unit?).map Prod.fst).filter (· ∈ rs.map symbol) =
      (rs.filterMap unit?).map Prod.fst := by
  rw [List.map_append] at h
  rw [List.filterMap_append, List.map_append, List.filter_append, List.filter_eq_self.mpr,
    List.filter_eq_nil_iff.mpr, List.append_nil]
  · intro s hs
    have hsecond := (sublist_units ss).subset hs
    simpa using fun r hr hsymbol => (List.nodup_append.mp h).2.2 _
      (List.mem_map_of_mem hr) _ hsecond hsymbol
  · intro s hs
    simpa using (sublist_units rs).subset hs

end Reading

/-! ### The parts of the table -/

namespace UnitTable

variable {t : UnitTable}

theorem units_withFactors (fs : List (String × Float)) : (t.withFactors fs).units = t.units := by
  induction fs generalizing t with
  | nil => rfl
  | cons f fs ih => exact ih

theorem factors_withFactors (fs : List (String × Float)) :
    (t.withFactors fs).factors = t.factors.enter (fs.map fun f => (f.1, .real f.2)) := by
  induction fs generalizing t with
  | nil => rfl
  | cons f fs ih => exact ih

/-- The units of the table under some symbols. -/
def unitsUnder (t : UnitTable) (symbols : List String) : List (String × Quantity) :=
  symbols.filterMap fun symbol => (t.units.find? symbol).map fun q => (symbol, q)

theorem unitsUnder_of_find? {us : List (String × Quantity)}
    (h : ∀ u ∈ us, t.units.find? u.1 = some u.2) : t.unitsUnder (us.map Prod.fst) = us := by
  rw [unitsUnder, List.filterMap_map]
  refine (List.filterMap_congr fun u hu => ?_).trans List.filterMap_some
  rw [Function.comp_apply, h u hu]
  rfl

/-- The table with the factors of the definitions and with the units that another table has under
some symbols. -/
def known (t t' : UnitTable) (d : Definitions) (symbols : List String) : UnitTable :=
  (t.withFactors d.factors.entries).withUnits (t'.unitsUnder symbols)

/-- A unit among others is defined if it can be read with the units that are defined before it. -/
theorem mem_units_iff_read {before after : List (String × String)} {e : String × String}
    {us : List (String × Quantity)} (hkeys : ((before ++ e :: after).map Prod.fst).Nodup)
    (h : (t.readings (before ++ e :: after)).findSome? Reading.escape? = none)
    (hus : (t.readings (before ++ e :: after)).filterMap Reading.unit? = us) :
    (e.1 ∈ us.map Prod.fst ↔
      ∃ q, read (t.withUnits ((t.withUnits us).unitsUnder
        ((us.map Prod.fst).filter (· ∈ before.map Prod.fst)))) .decimal e.2 = .ok q) ∧
    ∀ q, read (t.withUnits ((t.withUnits us).unitsUnder
        ((us.map Prod.fst).filter (· ∈ before.map Prod.fst)))) .decimal e.2 = .ok q →
      (e.1, q) ∈ us := by
  obtain ⟨rest, hsplit⟩ := readings_split h
  have hnodup : ((t.readings (before ++ e :: after)).map Reading.symbol).Nodup := by
    rwa [symbol_readings h]
  rw [hsplit] at h hus hnodup
  have hbefore := symbol_readings (Option.or_eq_none_iff.mp (List.findSome?_append ▸ h)).1
  have hfind : ∀ u ∈ us, (t.withUnits us).units.find? u.1 = some u.2 := fun u hu =>
    Catalog.find?_enter_of_mem (hus ▸ (Reading.sublist_units _).nodup hnodup) hu
  have hknown : (t.withUnits us).unitsUnder ((us.map Prod.fst).filter (· ∈ before.map Prod.fst)) =
      (t.readings before).filterMap Reading.unit? := by
    rw [← hus, ← hbefore, Reading.filter_units_append hnodup, hus]
    refine unitsUnder_of_find? fun u hu => hfind u ?_
    rw [← hus, List.filterMap_append]
    exact List.mem_append_left _ hu
  rw [hknown]
  generalize hr : (t.withUnits ((t.readings before).filterMap Reading.unit?)).reading e = r
    at hnodup hus
  have hresult : read (t.withUnits ((t.readings before).filterMap Reading.unit?)) .decimal e.2 =
      r.result := by rw [← hr, reading]
  have hsymbol : e.1 = r.symbol := by rw [← hr, reading]
  rw [hresult, hsymbol, ← hus]
  have hmem := List.mem_append_right (t.readings before) (List.mem_cons_self (a := r) (l := rest))
  refine ⟨Reading.symbol_mem_units_iff hnodup hmem, fun q hq => ?_⟩
  exact List.mem_filterMap.mpr ⟨r, hmem, Reading.unit?_eq_some_iff.mpr ⟨rfl, hq⟩⟩

end UnitTable

/-! ### The report -/

namespace Loading

theorem addUnit_report (l : Loading) (symbol definition : String) :
    (l.addUnit symbol definition).loading.report.factors = l.report.factors ∧
      (l.addUnit symbol definition).loading.report.warnings = l.report.warnings := by
  unfold addUnit
  dsimp only
  split
  · exact ⟨rfl, rfl⟩
  · exact ⟨rfl, rfl⟩
  · unfold advance
    split <;> exact ⟨rfl, rfl⟩

end Loading

variable {t : UnitTable}

/-- A load reports the warnings of the text, and all of its factors. -/
theorem factors_and_warnings_report (ht : t.frozen = false) (text : String) :
    (t.load (some text)).loading.report.factors = (ofText text).factors.keys ∧
      (t.load (some text)).loading.report.warnings = (ofText text).warnings := by
  let P (l : Loading) : Prop := l.report.factors = (ofText text).factors.keys ∧
    l.report.warnings = (ofText text).warnings
  unfold UnitTable.load Definitions.loadInto
  rw [Option.getD_some, Loading.runSteps_addFactor ht fun _ hf => symbol_ne_of_mem_factors hf]
  refine Loading.andThen_keeps (P := P) ?_ fun _ hl => hl
  refine Loading.runSteps_keeps (P := P) (fun l e hl => ?_) ⟨rfl, rfl⟩ _
  obtain ⟨hfactors, hwarnings⟩ := l.addUnit_report e.1 e.2
  exact ⟨hfactors.trans hl.1, hwarnings.trans hl.2⟩

/-- What is divided in two parts is in one of them, and not in both. -/
theorem xor_mem_of_perm {us ds symbols : List String} (h : (us ++ ds).Perm symbols)
    (hnodup : symbols.Nodup) {symbol : String} (hsymbol : symbol ∈ symbols) :
    Xor (symbol ∈ us) (symbol ∈ ds) := by
  have hdisjoint := (List.nodup_append.mp (h.nodup_iff.mpr hnodup)).2.2
  rcases List.mem_append.mp (h.mem_iff.mpr hsymbol) with hmem | hmem
  · exact .inl ⟨hmem, fun hmem' => hdisjoint _ hmem _ hmem' rfl⟩
  · exact .inr ⟨hmem, fun hmem' => hdisjoint _ hmem' _ hmem rfl⟩

/-- The report accounts for all that definitions have changed in a table. -/
structure LoadReport.Accounts (r : LoadReport) (d : Definitions) (t t' : UnitTable) : Prop where
  factors : r.factors = d.factors.keys
  units : r.units.Sublist d.units.keys
  diagnostics : (r.diagnostics.map Diagnostic.name).Sublist d.units.keys
  /-- Each unit is reported or diagnosed, and not both. -/
  either : ∀ symbol ∈ d.units.keys,
    Xor (symbol ∈ r.units) (symbol ∈ r.diagnostics.map Diagnostic.name)
  /-- A unit is reported if it is read against the units reported before it. -/
  reported : ∀ before symbol definition after,
    d.units.entries = before ++ (symbol, definition) :: after →
    (symbol ∈ r.units ↔
      ∃ q, read (t.known t' d (r.units.filter (· ∈ before.map Prod.fst))) .decimal definition =
        .ok q) ∧
    ∀ q, read (t.known t' d (r.units.filter (· ∈ before.map Prod.fst))) .decimal definition =
        .ok q →
      t'.units.find? symbol = some q
  other_units : ∀ symbol, symbol ∉ r.units → t'.units.find? symbol = t.units.find? symbol
  other_factors : ∀ symbol, symbol ∉ r.factors → t'.factors.find? symbol = t.factors.find? symbol
  warnings : r.warnings = d.warnings
  ok : r.ok = true ↔ r.warnings = [] ∧ r.diagnostics = []

/-- **What a load does to the table.**  The report of a load accounts for the change from the table
before to the table after. -/
theorem accounts_of_load (ht : t.frozen = false) {text : Option String} {r : LoadReport}
    (hr : (t.load text).report = .ok r) :
    r.Accounts (ofText (text.getD "")) t (t.load text).loading.table := by
  have hperm := @perm_report t ht (text.getD "") _ hr
  obtain ⟨hfault, rfl⟩ := LoadOutcome.report_eq_ok_iff.mp hr
  have htaken := taken_load ht (text.getD "")
  obtain ⟨hfactors, hwarnings⟩ := factors_and_warnings_report ht (text.getD "")
  change (t.load text).loading.report.factors = _ at hfactors
  have hcomplete : ((ofText (text.getD "")).readings t).findSome? Reading.escape? = none :=
    htaken.fault.symm.trans hfault
  generalize ofText (text.getD "") = d at *
  have hsymbols : (d.readings t).map Reading.symbol = d.units.keys :=
    UnitTable.symbol_readings hcomplete
  have hunits : (t.load text).loading.report.units =
      ((d.readings t).filterMap Reading.unit?).map Prod.fst := htaken.units
  have hdiagnostics : (t.load text).loading.report.diagnostics =
      (d.readings t).filterMap Reading.diagnostic? := htaken.diagnostics
  have htable : (t.load text).loading.table = (t.withFactors d.factors.entries).withUnits
      ((d.readings t).filterMap Reading.unit?) := htaken.table
  refine
    { factors := hfactors
      units := hunits ▸ hsymbols ▸ Reading.sublist_units _
      diagnostics := hdiagnostics ▸ hsymbols ▸ Reading.sublist_diagnostics _
      either := fun symbol => xor_mem_of_perm hperm d.units.nodup
      reported := fun before symbol definition after hentries => ?_
      other_units := fun symbol hsymbol => ?_
      other_factors := fun symbol hsymbol => ?_
      warnings := hwarnings
      ok := by simp [LoadReport.ok] }
  · -- The table after the load serves for the tables on the way: what an expression is read
    -- against is cut out of it by the symbols that were reported before.
    have hkeys : ((before ++ (symbol, definition) :: after).map Prod.fst).Nodup :=
      hentries ▸ d.units.nodup
    have hreadings : d.readings t =
        (t.withFactors d.factors.entries).readings (before ++ (symbol, definition) :: after) := by
      rw [Definitions.readings, hentries]
    have hdifferent : (((d.readings t).filterMap Reading.unit?).map Prod.fst).Nodup :=
      (Reading.sublist_units _).nodup (hsymbols ▸ d.units.nodup)
    obtain ⟨hmem, hread⟩ :=
      UnitTable.mem_units_iff_read hkeys (hreadings ▸ hcomplete) (congrArg _ hreadings.symm)
    rw [htable, hunits, UnitTable.known]
    exact ⟨hmem, fun q hq => Catalog.find?_enter_of_mem hdifferent (hread q hq)⟩
  · rw [htable, UnitTable.withUnits, Catalog.find?_enter_of_not_mem (hunits ▸ hsymbol),
      UnitTable.units_withFactors]
  · rw [htable, UnitTable.withUnits, UnitTable.factors_withFactors]
    rw [hfactors] at hsymbol
    refine Catalog.find?_enter_of_not_mem ?_
    rw [List.map_map]
    exact hsymbol

/-- Definitions of pounds, of which the first comes before what it refers to. -/
def poundDefinitions : String := "stone: 14 lb\nlb: 0.45359237 kg\ndouble-: 2\noz: 0.0625 lb"

theorem accounts_of_load_poundDefinitions :
    SI.openTable.frozen = false ∧ ∃ r, (SI.openTable.load (some poundDefinitions)).report = .ok r ∧
      r.Accounts (ofText poundDefinitions) SI.openTable
        (SI.openTable.load (some poundDefinitions)).loading.table ∧
      r.units = ["lb", "oz"] ∧ r.factors = ["double"] ∧
      r.diagnostics.map Diagnostic.name = ["stone"] := by
  have hrun : (SI.openTable.load (some poundDefinitions)).fault = none ∧
      (SI.openTable.load (some poundDefinitions)).loading.report.units = ["lb", "oz"] ∧
      (SI.openTable.load (some poundDefinitions)).loading.report.factors = ["double"] ∧
      (SI.openTable.load (some poundDefinitions)).loading.report.diagnostics.map
        Diagnostic.name = ["stone"] := by
    decide +kernel
  obtain ⟨hfault, hunits, hfactors, hdiagnostics⟩ := hrun
  have hreport : (SI.openTable.load (some poundDefinitions)).report =
      .ok (SI.openTable.load (some poundDefinitions)).loading.report :=
    LoadOutcome.report_eq_ok_iff.mpr ⟨hfault, rfl⟩
  exact ⟨rfl, _, hreport, accounts_of_load rfl hreport, hunits, hfactors, hdiagnostics⟩

end UnitCalculus
