import UnitCalculus.Proofs.Definitions.Readings
import UnitCalculus.SI

/-! # Texts one after the other

A text is collected before it is read: a later definition of a unit takes the place of an earlier
one, and what stands in between is read against it.  `load_append` says what this means for two
texts joined by a line break: their load reads the definitions of the first, with those of the
second in the places of the ones of the same symbol, and then the others of the second.  If no
symbol is defined in both, the load does what the two loads do one after the other; if no symbol is
defined twice, every line is read against the table that the lines before it leave. -/

namespace UnitCalculus

open Definitions

variable {t : UnitTable} {a b : String}

/-! ### Definitions one after the other -/

/-- The table in which the definitions are read one after the other, as far as they can be. -/
def UnitTable.defining (t : UnitTable) (es : List (String × String)) : UnitTable :=
  t.withUnits ((t.readings es).filterMap Reading.unit?)

theorem UnitTable.defining_append {es : List (String × String)}
    (h : (t.readings es).findSome? Reading.escape? = none) (fs : List (String × String)) :
    t.defining (es ++ fs) = (t.defining es).defining fs := by
  rw [defining, readings_append h, List.filterMap_append, ← withUnits_withUnits]
  rfl

namespace Definitions

theorem factors_eq_empty (h : factorLines a = []) : (ofText a).factors = .empty := by
  rw [factors_ofText, h]
  rfl

theorem readings_ofText (h : factorLines a = []) :
    (ofText a).readings t = t.readings (ofText a).units.entries := by
  rw [readings, factors_eq_empty h]
  rfl

/-- The units of two texts: those of the second take the places of those of the same symbol. -/
theorem units_append (a b : String) : (ofText (a ++ "\n" ++ b)).units.entries =
    Catalog.overlay (ofText a).units.entries (ofText b).units.entries := by
  rw [units_ofText, unitLines_append, Catalog.enter_append, ← units_ofText, Catalog.entries_enter,
    ← units_ofText]

theorem units_append_of_disjoint
    (h : ∀ e ∈ unitLines b, e.1 ∉ (unitLines a).map Prod.fst) :
    (ofText (a ++ "\n" ++ b)).units.entries =
      (ofText a).units.entries ++ (ofText b).units.entries := by
  rw [units_append]
  refine Catalog.overlay_of_disjoint fun f hf hmem => ?_
  obtain ⟨e, he, hef⟩ := List.mem_map.mp hmem
  exact h f (mem_unitLines hf) (List.mem_map.mpr ⟨e, mem_unitLines he, hef⟩)

theorem units_of_nodup (h : ((unitLines a).map Prod.fst).Nodup) :
    (ofText a).units.entries = unitLines a := by
  rw [units_ofText, Catalog.entries_enter_of_nodup (c := .empty) h]
  rfl

end Definitions

/-! ### Loads one after the other -/

theorem table_load (ht : t.frozen = false) (h : factorLines a = []) :
    (t.load (some a)).loading.table = t.defining (ofText a).units.entries := by
  rw [(taken_load ht a).table, readings_ofText h, factors_eq_empty h]
  rfl

theorem fault_load (ht : t.frozen = false) (h : factorLines a = []) :
    (t.load (some a)).fault =
      (t.readings (ofText a).units.entries).findSome? Reading.escape? := by
  rw [(taken_load ht a).fault, readings_ofText h]

/-- The load of two texts joined by a line break: what it reads, when it does what the two loads do
one after the other, and when every line is read against the table that the lines before it
leave. -/
theorem load_append (ht : t.frozen = false) (ha : factorLines a = []) (hb : factorLines b = [])
    (hfault : (t.load (some a)).fault = none) :
    (t.load (some (a ++ "\n" ++ b))).loading.table =
        t.defining (Catalog.overlay (ofText a).units.entries (ofText b).units.entries) ∧
      ((∀ e ∈ unitLines b, e.1 ∉ (unitLines a).map Prod.fst) →
        (t.load (some (a ++ "\n" ++ b))).loading.table =
            ((t.load (some a)).loading.table.load (some b)).loading.table ∧
          (t.load (some (a ++ "\n" ++ b))).fault =
            ((t.load (some a)).loading.table.load (some b)).fault) ∧
      (((unitLines a ++ unitLines b).map Prod.fst).Nodup →
        (t.load (some (a ++ "\n" ++ b))).loading.table =
          t.defining (unitLines a ++ unitLines b)) := by
  have hab : factorLines (a ++ "\n" ++ b) = [] := by rw [factorLines_append, ha, hb]; rfl
  have htable := table_load ht ha
  have hopen : (t.load (some a)).loading.table.frozen = false := by rw [htable]; exact ht
  rw [fault_load ht ha] at hfault
  refine ⟨?_, fun hnew => ⟨?_, ?_⟩, fun hnodup => ?_⟩
  · rw [table_load ht hab, units_append]
  · rw [table_load ht hab, units_append_of_disjoint hnew, table_load hopen hb, htable,
      UnitTable.defining_append hfault]
  · rw [fault_load ht hab, units_append_of_disjoint hnew, fault_load hopen hb, htable,
      UnitTable.readings_append hfault, List.findSome?_append, hfault, Option.none_or]
    rfl
  · rw [table_load ht hab, ← unitLines_append, units_of_nodup (by rwa [unitLines_append])]

theorem load_append_braza :
    ((SI.openTable.load (some "vara: 0.8359 m")).fault = none ∧
      (∀ e ∈ unitLines "braza: 2 vara", e.1 ∉ (unitLines "vara: 0.8359 m").map Prod.fst) ∧
      ((unitLines "vara: 0.8359 m" ++ unitLines "braza: 2 vara").map Prod.fst).Nodup) ∧
      (SI.openTable.load (some ("vara: 0.8359 m" ++ "\n" ++ "braza: 2 vara"))).loading.table =
        ((SI.openTable.load (some "vara: 0.8359 m")).loading.table.load
          (some "braza: 2 vara")).loading.table ∧
      (SI.openTable.load (some ("vara: 0.8359 m" ++ "\n" ++ "braza: 2 vara"))).loading.table =
        SI.openTable.defining (unitLines "vara: 0.8359 m" ++ unitLines "braza: 2 vara") := by
  have hfault : (SI.openTable.load (some "vara: 0.8359 m")).fault = none := by decide +kernel
  have hnew : ∀ e ∈ unitLines "braza: 2 vara",
      e.1 ∉ (unitLines "vara: 0.8359 m").map Prod.fst := by
    decide +kernel
  have hnodup :
      ((unitLines "vara: 0.8359 m" ++ unitLines "braza: 2 vara").map Prod.fst).Nodup := by
    decide +kernel
  have happend := load_append (t := SI.openTable) (a := "vara: 0.8359 m") (b := "braza: 2 vara")
    rfl (by decide +kernel) (by decide +kernel) hfault
  exact ⟨⟨hfault, hnew, hnodup⟩, (happend.2.1 hnew).1, happend.2.2 hnodup⟩

/-- A unit that is defined again is read in the place of the first definition, before the units that
its new definition refers to. -/
theorem not_load_append :
    ¬ ∀ (t : UnitTable) (a b : String), t.frozen = false →
      factorLines a = [] → factorLines b = [] →
      (t.load (some a)).fault = none →
      ((t.load (some a)).loading.table.load (some b)).fault = none →
      (t.load (some (a ++ "\n" ++ b))).fault = none →
      ∀ symbol, (t.load (some (a ++ "\n" ++ b))).loading.table.units.find? symbol =
        ((t.load (some a)).loading.table.load (some b)).loading.table.units.find? symbol := by
  intro h
  have hfind := h SI.openTable "x: m\nw: 3 s" "x: 2 w" rfl (by decide +kernel)
    (by decide +kernel) (by decide +kernel) (by decide +kernel) (by decide +kernel) "x"
  have hjoined : (SI.openTable.load
      (some ("x: m\nw: 3 s" ++ "\n" ++ "x: 2 w"))).loading.table.units.find? "x" = none := by
    decide +kernel
  have hapart : ((SI.openTable.load (some "x: m\nw: 3 s")).loading.table.load
      (some "x: 2 w")).loading.table.units.find? "x" = some ⟨.real 6.0, SI.time⟩ := by
    decide +kernel
  rw [hjoined, hapart] at hfind
  cases hfind

end UnitCalculus
