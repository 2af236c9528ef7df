import UnitCalculus.Canonical
import UnitCalculus.Diagnostic
import UnitCalculus.Expression

/-! # Analysis of named expressions

Every expression of a batch is read on its own, in the order of the names: it gives a quantity with
its canonical text, or a diagnostic. -/

namespace UnitCalculus

/-- Named expressions; some are missing. -/
abbrev NamedExpressions := Catalog (Option String)

/-- What a batch of expressions gives. -/
structure Analysis where
  quantities : List (String × Quantity)
  canonical : List (String × String)
  diagnostics : List Diagnostic

namespace Analysis

/-- Nothing. -/
def empty : Analysis := ⟨[], [], []⟩

/-- What one expression gives. -/
inductive Finding where
  | quantity (q : Quantity) (canonical : String)
  | rejected (cause : DiagnosticCause)

/-- What one expression gives on its own. -/
def find (table : UnitTable) (text : Option String) : Except Fault Finding :=
  let stripped := Text.trim (text.getD "")
  if stripped == "" then .ok (.rejected .missing)
  else
    match Expression.read table .decimal stripped with
    | .error (.expression f) => .ok (.rejected (.unreadable f))
    | .error f => .error f
    | .ok q => do return .quantity q (← Canonical.text table true q)

/-- The analysis with what one more name gives. -/
def add (a : Analysis) (name : String) : Finding → Analysis
  | .quantity q text =>
    { a with
      quantities := a.quantities ++ [(name, q)]
      canonical := a.canonical ++ [(name, text)] }
  | .rejected cause => { a with diagnostics := a.diagnostics ++ [⟨name, cause⟩] }

/-- The entries in the order of their names. -/
def sorted (es : NamedExpressions) : List (String × Option String) :=
  es.entries.mergeSort fun a b => decide (a.1 ≤ b.1)

/-- What a batch of expressions gives. -/
def ofExpressions (table : UnitTable) (es : NamedExpressions) : Except Fault Analysis :=
  (sorted es).foldlM (fun a (name, text) => do return a.add name (← find table text)) empty

end Analysis

end UnitCalculus
