import UnitCalculus.Proofs.Canonical.BaseUnits
import UnitCalculus.Proofs.UnitTable
import UnitCalculus.SI

/-! # The international system as a unit table

Every symbol of the system is read as a symbol, every unit is a floating-point number or an integer,
and every base dimension has one rank (`legible_openTable`).  So the table is sound, and whatever is
loaded into it leaves a sound table. -/

namespace UnitCalculus.SI

/-- The rank of a symbol: its place among the base dimensions, none for other symbols. -/
def rank (symbol : String) : Option Int :=
  (baseSymbols.findIdx? (· == symbol)).map Int.ofNat

theorem legible_openTable : openTable.Legible rank := by decide +kernel

theorem legible_table : table.Legible rank := legible_openTable.freeze

theorem sound_openTable : openTable.Sound rank := by
  refine ⟨fun u hu hname => legible_openTable.nonempty u hu ?_, fun u hu => ⟨?_, ?_⟩, ?_⟩
  · rw [hname]
    rfl
  · exact Magnitude.isNumber_of_isPlain (legible_openTable.plain u hu)
  · exact legible_openTable.regular u hu
  · decide +kernel

end UnitCalculus.SI
