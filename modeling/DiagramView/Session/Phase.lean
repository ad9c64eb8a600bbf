import DiagramView.Id

/-!
# Phases of a render session

A session is scheduled, then its text is validated, then it is rendered, and then it has settled in
one of four ways. The status of a scheduler shows the latest session.
-/

namespace DiagramView

/-- Where a session stands. -/
inductive Phase where
  | idle
  | scheduled
  | validating
  | rendering
  | rendered
  | parseError
  | renderError
  | noDiagram
  deriving DecidableEq, Repr, Inhabited

namespace Phase

/-- All phases, in the order in which a session passes through them. -/
def all : List Phase :=
  [.idle, .scheduled, .validating, .rendering, .rendered, .parseError, .renderError, .noDiagram]

/-- The name of a phase. -/
def name : Phase → String
  | .idle => "idle"
  | .scheduled => "scheduled"
  | .validating => "validating"
  | .rendering => "rendering"
  | .rendered => "rendered"
  | .parseError => "parse-error"
  | .renderError => "render-error"
  | .noDiagram => "no-diagram"

/-- Whether a session has settled. -/
def isTerminal : Phase → Bool
  | .rendered | .parseError | .renderError | .noDiagram => true
  | _ => false

/-- The phase with a name. -/
def ofName? (name : String) : Option Phase :=
  all.find? fun phase => phase.name == name

end Phase

/-- How a session that ran to completion settled. -/
inductive Outcome where
  | rendered
  | parseError (message : String)
  | renderError (message : String)
  | noDiagram
  deriving DecidableEq, Repr

namespace Outcome

/-- The phase in which a session settles. -/
def phase : Outcome → Phase
  | .rendered => .rendered
  | .parseError _ => .parseError
  | .renderError _ => .renderError
  | .noDiagram => .noDiagram

/-- The message of a session that failed. -/
def message? : Outcome → Option String
  | .parseError m => some m
  | .renderError m => some m
  | _ => none

end Outcome

/-- How a session ended. -/
inductive SessionEnd where
  | settled (outcome : Outcome)
  /-- The session was given up, and nothing that it made was kept. -/
  | cancelled
  deriving DecidableEq, Repr

/-- What a scheduler shows of its latest session. -/
structure Status where
  session : Option RenderId := none
  phase : Phase := .idle
  message : Option String := none
  deriving DecidableEq, Repr, Inhabited

end DiagramView
