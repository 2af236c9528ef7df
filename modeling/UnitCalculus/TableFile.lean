import UnitCalculus.Definitions.Load
import UnitCalculus.Files
import UnitCalculus.SI

/-! # Tables from files

The table that a program works with: the international system, or the system with the definitions of
a file on top of it. -/

namespace UnitCalculus

/-- Why a table cannot be built. -/
inductive TableFault where
  | file (f : FileFault)
  | definitions (f : Fault)

/-- The fault of the text of a file as one of its table. -/
def TableFault.ofText : TextFault → TableFault
  | .file f => .file f
  | .undecodable => .definitions .undecodable

/-- A table that was asked for, and the log of building it. -/
structure BuiltTable where
  table : Except TableFault UnitTable
  log : List LogRecord

namespace TableFile

/-- The record of freezing a table. -/
def frozenRecord (t : UnitTable) : LogRecord :=
  ⟨.debug, .table, "Symbol table frozen with " ++ toString t.units.size ++ " units and "
    ++ toString t.factors.size ++ " prefixes"⟩

/-- The system with the definitions of a text, frozen. -/
def ofText (text : String) : BuiltTable :=
  let o := SI.openTable.load (some text)
  match o.fault with
  | some f => ⟨.error (.definitions f), o.loading.log⟩
  | none =>
    let t := o.loading.table.freeze
    ⟨.ok t, o.loading.log ++ [frozenRecord t]⟩

/-- The system with the definitions of a file; without a file, the system alone. -/
def build (fs : Files) (path : Option String) : BuiltTable :=
  match path with
  | none => ⟨.ok SI.table, []⟩
  | some path =>
    match fs.read path with
    | .error f => ⟨.error (.ofText f), []⟩
    | .ok text => ofText text

end TableFile

end UnitCalculus
