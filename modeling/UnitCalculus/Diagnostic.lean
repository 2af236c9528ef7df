import UnitCalculus.Expression.Fault

/-! # Diagnostics

Why a named expression was not used, and what to do about it. -/

namespace UnitCalculus

/-- Why a named expression was not used. -/
inductive DiagnosticCause where
  | missing
  | unreadable (fault : ExpressionFault)
  /-- The expression that defines a unit cannot be read. -/
  | undefinable (fault : ExpressionFault)
  deriving DecidableEq, Repr

/-- A named expression that was not used. -/
structure Diagnostic where
  name : String
  cause : DiagnosticCause
  deriving DecidableEq, Repr

namespace Diagnostic

/-- A short name of the reason. -/
def code (d : Diagnostic) : String :=
  match d.cause with
  | .missing => "missing"
  | .unreadable _ => "parse-error"
  | .undefinable _ => "parse-error"

/-- The reason in words. -/
def message (d : Diagnostic) : String :=
  match d.cause with
  | .missing => "Expression is missing"
  | .unreadable f => f.message
  | .undefinable f => f.message

/-- What to do about it. -/
def hint (d : Diagnostic) : String :=
  match d.cause with
  | .missing => "Provide a unit expression for this name or remove it from the list."
  | .unreadable _ => "Check for unknown symbols or mismatched parentheses in the expression."
  | .undefinable _ => "Units may only refer to symbols defined before them."

end Diagnostic

end UnitCalculus
