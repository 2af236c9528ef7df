import UnitCalculus.Catalog
import UnitCalculus.Json
import UnitCalculus.LogRecord

/-! # Runs

Log events carry the name of the run that they belong to.  A scope holds the current run; binding
another one returns a token, with which the scope goes back to the run before it.  Tokens may be used
in any order, each of them once. -/

namespace UnitCalculus

/-- The name of a run. -/
inductive RunName where
  | given (name : String)
  /-- A new random identifier. -/
  | generated
  deriving DecidableEq, Repr

namespace RunName

/-- The name in an event; a random identifier is not part of the library. -/
def text : RunName → String
  | given name => name
  | generated => "generated"

end RunName

/-- A binding of a run: the run before it, and whether it was undone. -/
structure RunBinding where
  previous : Option RunName
  undone : Bool
  deriving DecidableEq, Repr

/-- The current run, and all bindings in their order. -/
structure RunScope where
  current : Option RunName
  bindings : List RunBinding
  deriving DecidableEq, Repr

/-- The number of a binding. -/
structure RunToken where
  index : Nat
  deriving DecidableEq, Repr

/-- Why a binding cannot be undone. -/
inductive RunFault where
  | alreadyUndone
  deriving DecidableEq, Repr

/-- An event with its details. -/
structure RunEvent where
  level : LogLevel
  message : String
  details : Catalog Json

namespace RunScope

/-- The scope before any run. -/
def initial : RunScope := ⟨none, []⟩

/-- Bind a run. -/
def enter (s : RunScope) (run : RunName) : RunScope × RunToken :=
  (⟨some run, s.bindings ++ [⟨s.current, false⟩]⟩, ⟨s.bindings.length⟩)

/-- Bind a run if there is one. -/
def bind (s : RunScope) (run : Option RunName) : RunScope × Option RunToken :=
  match run with
  | none => (s, none)
  | some run =>
    let (s, t) := s.enter run
    (s, some t)

/-- Go back to the run before a binding. -/
def leave (s : RunScope) (t : RunToken) : Except RunFault RunScope :=
  match s.bindings[t.index]? with
  | none => .error .alreadyUndone
  | some b =>
    if b.undone then .error .alreadyUndone
    else .ok ⟨b.previous, s.bindings.set t.index { b with undone := true }⟩

/-- Go back to the run before a binding; without a token nothing changes. -/
def reset (s : RunScope) (t : Option RunToken) : Except RunFault RunScope :=
  match t with
  | none => .ok s
  | some t => s.leave t

/-- The name of the current run as a detail. -/
def currentDetail (s : RunScope) : Json :=
  match s.current with
  | some run => .text run.text
  | none => .null

/-- An event of the current run; further details may replace its name. -/
def event (s : RunScope) (message : String) (details : List (String × Json)) : RunEvent :=
  ⟨.info, message, .ofList (("run_id", s.currentDetail) :: details)⟩

/-- Undoing a binding brings the run before it back. -/
theorem leave_enter (s : RunScope) (run : RunName) :
    ((s.enter run).1.leave (s.enter run).2).map RunScope.current = .ok s.current := by
  simp [enter, leave, Except.map]

end RunScope

end UnitCalculus
