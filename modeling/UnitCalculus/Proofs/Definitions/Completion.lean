import UnitCalculus.Proofs.Definitions.Readings
import UnitCalculus.Service

/-! # Loads that come to their end

A load comes to its end exactly if arithmetic fails in none of the definitions that it reads; then
every unit of the text is in the report once, among the units or among the diagnostics.  A text on
which the load ends early keeps the table from being built and the service from starting
(`load_completes_iff`). -/

namespace UnitCalculus

open Definitions

/-! ### Readings that the report has -/

namespace Reading

/-- No arithmetic fails in the reading. -/
def Computes (r : Reading) : Prop := ∀ n, r.result ≠ .error (.number n)

theorem computes_iff {t : UnitTable} {text : String} {r : Reading}
    (hr : r ∈ (ofText text).readings t) : r.Computes ↔ r.escape? = none := by
  constructor
  · intro h
    cases hescape : r.escape? with
    | none => rfl
    | some f =>
      obtain ⟨n, rfl⟩ := arithmetic_of_escape hr hescape
      exact absurd (escape?_eq_some_iff.mp hescape).1 (h n)
  · intro h n hresult
    have hescape := escape?_eq_some_iff.mpr ⟨hresult, fun e => by simp⟩
    rw [h] at hescape
    cases hescape

/-- Every reading that does not end the load defines a unit or gives a diagnostic, and not both. -/
theorem perm_symbols {rs : List Reading} (h : rs.findSome? escape? = none) :
    ((rs.filterMap unit?).map Prod.fst ++ (rs.filterMap diagnostic?).map Diagnostic.name).Perm
      (rs.map symbol) := by
  induction rs with
  | nil => exact .nil
  | cons r rs ih =>
    rw [List.findSome?_cons] at h
    obtain ⟨s, f | q⟩ := r
    · cases f
      case expression f => exact List.perm_middle.trans ((ih h).cons s)
      all_goals cases h
    · exact (ih h).cons s

end Reading

/-! ### Loads -/

variable {t : UnitTable}

theorem fault_load_eq_none_iff (ht : t.frozen = false) (text : String) :
    (t.load (some text)).fault = none ↔ ∀ r ∈ (ofText text).readings t, r.Computes := by
  rw [(taken_load ht text).fault, List.findSome?_eq_none_iff]
  exact forall₂_congr fun r hr => (Reading.computes_iff hr).symm

theorem LoadOutcome.report_eq_ok_iff {o : LoadOutcome} {r : LoadReport} :
    o.report = .ok r ↔ o.fault = none ∧ o.loading.report = r := by
  unfold report
  split <;> simp_all

theorem LoadOutcome.report_eq_error_iff {o : LoadOutcome} {f : Fault} :
    o.report = .error f ↔ o.fault = some f := by
  unfold report
  split <;> simp_all

/-- The report of a load has every unit of the text once. -/
theorem perm_report (ht : t.frozen = false) {text : String} {r : LoadReport}
    (hr : (t.load (some text)).report = .ok r) :
    (r.units ++ r.diagnostics.map Diagnostic.name).Perm (ofText text).units.keys := by
  obtain ⟨hfault, rfl⟩ := LoadOutcome.report_eq_ok_iff.mp hr
  have htaken := taken_load ht text
  rw [htaken.fault] at hfault
  rw [htaken.units, htaken.diagnostics]
  have hperm := Reading.perm_symbols hfault
  rwa [Definitions.readings, UnitTable.symbol_readings hfault] at hperm

/-- The report of a load has every symbol that a line defines as a unit once, and no other. -/
theorem count_report (ht : t.frozen = false) {text : String} {r : LoadReport}
    (hr : (t.load (some text)).report = .ok r) (symbol : String) :
    (r.units ++ r.diagnostics.map Diagnostic.name).count symbol =
      if symbol ∈ (unitLines text).map Prod.fst then 1 else 0 := by
  rw [(perm_report ht hr).count_eq]
  split
  · next hmem =>
    exact List.count_eq_one_of_mem (ofText text).units.nodup (mem_keys_units.mpr hmem)
  · next hmem => exact List.count_eq_zero_of_not_mem fun hkey => hmem (mem_keys_units.mp hkey)

/-! ### Tables from files and the service -/

theorem TableFile.build_of_read {files : Files} {path text : String}
    (h : files.read path = .ok text) :
    (TableFile.build files (some path)).table =
      match (SI.openTable.load (some text)).fault with
      | none => .ok (SI.openTable.load (some text)).loading.table.freeze
      | some f => .error (.definitions f) := by
  unfold TableFile.build
  dsimp only
  rw [h]
  unfold TableFile.ofText
  dsimp only
  split <;> simp_all

theorem TableFile.build_iff {files : Files} {path text : String}
    (h : files.read path = .ok text) :
    (∃ t, (TableFile.build files (some path)).table = .ok t ∧ t.frozen = true) ↔
      (SI.openTable.load (some text)).fault = none := by
  rw [build_of_read h]
  cases (SI.openTable.load (some text)).fault with
  | none => exact iff_of_true ⟨_, rfl, rfl⟩ rfl
  | some f => exact iff_of_false (fun ⟨_, ht, _⟩ => nomatch ht) (by simp)

namespace Service

variable {d : Deployment}

/-- The service starts with the table that is built. -/
theorem start_of_build
    (h : (TableFile.build d.files (Settings.load d.environment).1.unitsFile).table = .ok t)
    (s : State × List LogRecord) :
    ((start d).run s).1 = .ok () ∧ ((start d).run s).2.1.table = some t := by
  unfold start
  generalize Settings.load d.environment = settings at h ⊢
  dsimp only
  rw [h]
  exact ⟨rfl, rfl⟩

/-- A fault of the definitions keeps the service from starting. -/
theorem start_of_fault {f : Fault}
    (h : (TableFile.build d.files (Settings.load d.environment).1.unitsFile).table =
      .error (.definitions f))
    (s : State × List LogRecord) : ((start d).run s).1 = .error (.fault f) := by
  unfold start
  generalize Settings.load d.environment = settings at h ⊢
  dsimp only
  rw [h]
  rfl

theorem start_iff {path text : String}
    (hpath : (Settings.load d.environment).1.unitsFile = some path)
    (h : d.files.read path = .ok text) (s : State × List LogRecord) :
    ((start d).run s).1 = .ok () ↔ (SI.openTable.load (some text)).fault = none := by
  have hbuild := TableFile.build_of_read h
  rw [← hpath] at hbuild
  cases hfault : (SI.openTable.load (some text)).fault with
  | none =>
    rw [hfault] at hbuild
    exact iff_of_true (start_of_build hbuild s).1 rfl
  | some f =>
    rw [hfault] at hbuild
    rw [start_of_fault hbuild s]
    exact iff_of_false (fun h => nomatch h) (by simp)

end Service

/-- A load ends with a report exactly if no arithmetic fails in what it reads. -/
theorem load_completes_iff (ht : t.frozen = false) (text : String) :
    ((∃ r, (t.load (some text)).report = .ok r) ↔
        ∀ r ∈ (ofText text).readings t, r.Computes) ∧
      (∀ r, (t.load (some text)).report = .ok r → ∀ symbol,
        (r.units ++ r.diagnostics.map Diagnostic.name).count symbol =
          if symbol ∈ (unitLines text).map Prod.fst then 1 else 0) ∧
      (∀ f, (t.load (some text)).report = .error f → Arithmetic f) ∧
      (∀ (files : Files) (path : String), files.read path = .ok text →
        ((∃ t', (TableFile.build files (some path)).table = .ok t' ∧ t'.frozen = true) ↔
          ∀ r ∈ (ofText text).readings SI.openTable, r.Computes)) ∧
      ∀ (d : Service.Deployment) (path : String),
        (Settings.load d.environment).1.unitsFile = some path → d.files.read path = .ok text →
        (((Service.start d).run (.initial, [])).1 = .ok () ↔
          ∀ r ∈ (ofText text).readings SI.openTable, r.Computes) := by
  refine ⟨?_, fun r hr => count_report ht hr, fun f hf => ?_, fun files path hread => ?_,
    fun d path hpath hread => ?_⟩
  · rw [← fault_load_eq_none_iff ht]
    simp [LoadOutcome.report_eq_ok_iff]
  · rw [LoadOutcome.report_eq_error_iff, (taken_load ht text).fault] at hf
    obtain ⟨r, hr, hescape⟩ := List.exists_of_findSome?_eq_some hf
    exact arithmetic_of_escape hr hescape
  · rw [TableFile.build_iff hread, fault_load_eq_none_iff rfl]
  · rw [Service.start_iff hpath hread, fault_load_eq_none_iff rfl]

/-- Definitions of which the first cannot be read. -/
def fieldDefinitions : String := "acre: 10 chain^2\nare: 100 m^2"

/-- A place with the definitions in a file. -/
def fieldDeployment : Service.Deployment :=
  ⟨[(Settings.unitsFileVariable, "units.txt")], [("units.txt", fieldDefinitions.toUTF8)]⟩

theorem load_completes_fieldDefinitions :
    (∃ r, (SI.openTable.load (some fieldDefinitions)).report = .ok r ∧
        (r.units ++ r.diagnostics.map Diagnostic.name).count "acre" = 1 ∧
        (r.units ++ r.diagnostics.map Diagnostic.name).count "are" = 1) ∧
      (∃ t, (TableFile.build fieldDeployment.files (some "units.txt")).table = .ok t ∧
        t.frozen = true) ∧
      ((Service.start fieldDeployment).run (.initial, [])).1 = .ok () := by
  have hcomputes : ∀ r ∈ (ofText fieldDefinitions).readings SI.openTable, r.Computes :=
    (fault_load_eq_none_iff rfl fieldDefinitions).mp (by decide +kernel)
  have hread : fieldDeployment.files.read "units.txt" = .ok fieldDefinitions := by decide +kernel
  have hpath : (Settings.load fieldDeployment.environment).1.unitsFile = some "units.txt" := by
    decide +kernel
  obtain ⟨hreport, hcount, -, hbuild, hstart⟩ :=
    load_completes_iff (t := SI.openTable) rfl fieldDefinitions
  obtain ⟨r, hr⟩ := hreport.mpr hcomputes
  refine ⟨⟨r, hr, ?_, ?_⟩, (hbuild fieldDeployment.files "units.txt" hread).mpr hcomputes,
    (hstart fieldDeployment "units.txt" hpath hread).mpr hcomputes⟩
  · rw [hcount r hr "acre", if_pos (by decide +kernel)]
  · rw [hcount r hr "are", if_pos (by decide +kernel)]

/-- A definition that divides by a unit of value zero ends the load. -/
theorem not_load_completes :
    ¬ ∀ (t : UnitTable) (text : String), t.frozen = false →
      ∃ r, (t.load (some text)).report = .ok r := by
  intro h
  obtain ⟨r, hr⟩ := h SI.openTable "z: 0 m\ny: m/z\nx: 2 m" rfl
  have hfault : (SI.openTable.load (some "z: 0 m\ny: m/z\nx: 2 m")).fault =
      some (.number .divisionByZero) := by
    decide +kernel
  rw [LoadOutcome.report_eq_ok_iff, hfault] at hr
  cases hr.1

end UnitCalculus
