import UnitCalculus.Proofs.Definitions.Completion
import UnitCalculus.Proofs.Expression.Symbols

/-! # The names of loaded units

Every unit that a load reports is in the table.  It can be read under its symbol exactly if the
symbol is a run of symbol characters: a definition takes any symbol without a blank, but in an
expression a digit, a sign or an operator ends the symbol before it (`readUnit_reported`). -/

namespace UnitCalculus

open Definitions Expression Token

variable {t : UnitTable} {text symbol : String} {r : LoadReport}

/-- Every unit that is reported has a symbol and is in the table. -/
theorem find?_reported (ht : t.frozen = false) (hr : (t.load (some text)).report = .ok r)
    (hs : symbol ∈ r.units) :
    symbol ≠ "" ∧ ∃ q, (t.load (some text)).loading.table.units.find? symbol = some q := by
  obtain ⟨-, rfl⟩ := LoadOutcome.report_eq_ok_iff.mp hr
  have htaken := taken_load ht text
  have hkey : symbol ∈ (((ofText text).readings t).filterMap Reading.unit?).map Prod.fst := by
    rw [htaken.units] at hs
    exact hs
  constructor
  · obtain ⟨u, hu, rfl⟩ := List.mem_map.mp hkey
    obtain ⟨s, hs, hunit⟩ := List.mem_filterMap.mp hu
    obtain ⟨t', e, he, rfl⟩ := UnitTable.exists_of_mem_readings hs
    have hsymbol : u.1 = e.1 := by
      unfold Reading.unit? UnitTable.reading at hunit
      dsimp only at hunit
      split at hunit <;> cases hunit
      rfl
    rw [hsymbol]
    exact (isDefinition_of_mem_units he).symbol
  · rw [htaken.table]
    exact Catalog.exists_find?_of_mem_keys (Catalog.mem_keys_enter.mpr (.inr hkey))

/-- A unit that a load reports is in the table, and it is read under its symbol if that is a run of
symbol characters; of no other symbol does what is read depend on the unit. -/
theorem readUnit_reported (ht : t.frozen = false) (hr : (t.load (some text)).report = .ok r)
    (hs : symbol ∈ r.units) :
    (∃ q, (t.load (some text)).loading.table.units.find? symbol = some q ∧
      (IsRun .symbol symbol.toList →
        readUnit (t.load (some text)).loading.table symbol = .ok q)) ∧
      ((∀ q, readUnit ((t.load (some text)).loading.table.insertUnit symbol q) symbol = .ok q) ↔
        IsRun .symbol symbol.toList) := by
  obtain ⟨hne, q, hq⟩ := find?_reported ht hr hs
  exact ⟨⟨q, hq, fun hrun => readUnit_symbol hrun hne hq⟩, readUnit_insertUnit_iff _ hne⟩

theorem readUnit_reported_league :
    (∃ r, (SI.openTable.load (some "league: 5556 m")).report = .ok r ∧ "league" ∈ r.units) ∧
      ∃ q, (SI.openTable.load (some "league: 5556 m")).loading.table.units.find? "league" =
          some q ∧
        readUnit (SI.openTable.load (some "league: 5556 m")).loading.table "league" = .ok q := by
  have hfault : (SI.openTable.load (some "league: 5556 m")).fault = none := by decide +kernel
  have hunits : "league" ∈ (SI.openTable.load (some "league: 5556 m")).loading.report.units := by
    decide +kernel
  have hreport : (SI.openTable.load (some "league: 5556 m")).report =
      .ok (SI.openTable.load (some "league: 5556 m")).loading.report :=
    LoadOutcome.report_eq_ok_iff.mpr ⟨hfault, rfl⟩
  obtain ⟨⟨q, hq, hread⟩, -⟩ := readUnit_reported rfl hreport hunits
  exact ⟨⟨_, hreport, hunits⟩, q, hq, hread (by decide +kernel)⟩

/-- A unit whose symbol ends in a digit is reported and cannot be read. -/
theorem not_readUnit_reported :
    ¬ ∀ (t : UnitTable) (text : String) (r : LoadReport), t.frozen = false →
      (t.load (some text)).report = .ok r → ∀ symbol ∈ r.units,
      ∃ q, (t.load (some text)).loading.table.units.find? symbol = some q ∧
        readUnit (t.load (some text)).loading.table symbol = .ok q := by
  intro h
  have hfault : (SI.openTable.load (some "m2: m^2")).fault = none := by decide +kernel
  have hunits : "m2" ∈ (SI.openTable.load (some "m2: m^2")).loading.report.units := by
    decide +kernel
  obtain ⟨q, -, hread⟩ := h SI.openTable "m2: m^2" _ rfl
    (LoadOutcome.report_eq_ok_iff.mpr ⟨hfault, rfl⟩) "m2" hunits
  have hrefused : readUnit (SI.openTable.load (some "m2: m^2")).loading.table "m2" =
      .error (.expression ⟨.unexpected "2" [.symbol], "m2", 1⟩) := by
    decide +kernel
  rw [hrefused] at hread
  cases hread

end UnitCalculus
