import DiagramView.Id

/-!
# Agendas

The tasks that are about to run. A task that was woken waits in a line, and a task that stepped
back once for the others is set aside. Those set aside come back together at the end of a round,
the one that stepped back last before the others.
-/

namespace DiagramView

/-- What a task does for its session. -/
inductive TaskRole where
  /-- Carries the session through. -/
  | session
  /-- Cleans up after an engine call that the session gave up, once that call is over. -/
  | sweep
  deriving DecidableEq, Repr

/-- A task of a scheduler, told apart by the session that it serves and by its role. -/
structure Task where
  instanceId : InstanceId
  seq : Nat
  role : TaskRole
  deriving DecidableEq, Repr

/-- The tasks that are about to run. -/
structure Agenda where
  /-- The line of woken tasks. -/
  ready : List Task := []
  /-- The tasks that were set aside, the last one first. -/
  aside : List Task := []
  deriving DecidableEq, Repr, Inhabited

namespace Agenda

/-- Puts a task at the end of the line, where it stands only once. It is no longer set aside. -/
def wake (a : Agenda) (t : Task) : Agenda :=
  { ready := if t ∈ a.ready then a.ready else a.ready ++ [t], aside := a.aside.erase t }

/-- Sets a task aside. -/
def setAside (a : Agenda) (t : Task) : Agenda :=
  { a with aside := t :: a.aside }

/-- Wakes the tasks that were set aside. -/
def wakeAside (a : Agenda) : Agenda :=
  a.aside.foldl wake { a with aside := [] }

/-- Whether no task is about to run. -/
def isDone (a : Agenda) : Bool :=
  a.ready.isEmpty && a.aside.isEmpty

end Agenda

end DiagramView
