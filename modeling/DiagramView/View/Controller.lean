import DiagramView.Diagram.Extraction
import DiagramView.Session.Run
import DiagramView.Tab
import DiagramView.View.Panel

/-!
# Views

A view shows the result of an analysis under one of three tabs. It renders the diagram only while
its tab is the active one: coming to that tab begins a session, leaving it tears the scheduler
down, and a new result begins a session anew. The revision of a view goes up with every change that
shows.
-/

namespace DiagramView

/-- The state of a view. -/
structure View where
  registry : Diagram.Registry := .standard
  tab : Tab := .explanation
  payload : Option Json := none
  /-- The text of the diagram in the payload, empty when there is none. -/
  diagramText : String := ""
  /-- The strategy that found the text. -/
  strategy : Option String := none
  run : Option RunResult := none
  loading : Bool := false
  requestError : Option String := none
  rev : UInt64 := 0

namespace View

/-- Counts a change. -/
def bump (v : View) : View :=
  { v with rev := v.rev + 1 }

/-- What is reported about a payload and the extraction from it. -/
def payloadEvents (payload : Option Json) (found : Option Diagram.Extraction) : List Event :=
  match found with
  | some extraction => [.textExtracted extraction.strategy]
  | none =>
    match payload with
    | some (.object (field :: fields)) =>
      [.payloadWithoutDiagram (Text.join "," ((field :: fields).map (·.1)))]
    | _ => []

/-- Takes a payload over, with the diagram in it. -/
def withPayload (v : View) (payload : Option Json) (found : Option Diagram.Extraction) : View :=
  let v : View :=
    { v with
      payload
      diagramText := (found.map (·.text)).getD ""
      strategy := found.map (·.strategy) }
  v.bump

end View

namespace Scene

variable {σ : Type}

/-- Changes the state of the view. -/
def updateView (s : Scene σ View) (f : View → View) : Scene σ View :=
  { s with owner := f s.owner }

/-- Begins a session for the diagram if its tab is active. -/
def renderIfActive (s : Scene σ View) : Scene σ View × Option RenderId :=
  if s.owner.tab = .flow then s.schedule s.owner.diagramText else (s, none)

/-- Comes to a tab. Gives the session that this begins, if any. -/
def selectTab (tab : Tab) (s : Scene σ View) : Scene σ View × Option RenderId :=
  if tab = s.owner.tab then (s, none)
  else
    let left := s.owner.tab
    let s := if left = .flow then s.teardown else s
    let s := s.report (.tabSwitched left.name tab.name)
    (s.updateView fun v => { v with tab }.bump).renderIfActive

/-- Takes a new result, or none. Gives the session that this begins, if any. -/
def setPayload (payload : Option Json) (s : Scene σ View) : Scene σ View × Option RenderId :=
  let found := payload.bind s.owner.registry.extract?
  let s := (View.payloadEvents payload found).foldl report s
  (s.updateView fun v => v.withPayload payload found).renderIfActive

/-- Takes the result of a run, or none. -/
def setRun (run : Option RunResult) (s : Scene σ View) : Scene σ View :=
  s.updateView fun v => { v with run }.bump

/-- Notes whether a request is under way. -/
def setLoading (loading : Bool) (s : Scene σ View) : Scene σ View :=
  s.updateView fun v => if v.loading = loading then v else { v with loading }.bump

/-- Notes why a request failed, or that it did not. -/
def setRequestError (requestError : Option String) (s : Scene σ View) : Scene σ View :=
  s.updateView fun v => { v with requestError }.bump

/-- The panel with the diagram. -/
def flowPanel (s : Scene σ View) : FlowPanel :=
  { phase := s.status.phase
    markup := s.surface.container.map (·.markup)
    error := s.status.message
    rawText := s.owner.diagramText }

/-- What the view shows. -/
def panel (s : Scene σ View) : Panel :=
  if s.owner.loading then .working
  else
    match s.owner.requestError with
    | some message => .requestError message
    | none =>
      match s.owner.tab with
      | .explanation => .explanation (renderExplanation (explanationOf? s.owner.payload))
      | .flow => .flow s.flowPanel
      | .output => .output (.ofRun s.owner.run)

end Scene

/-! ## Steps -/

/-- Something that is asked of a view. -/
inductive ViewStep where
  | selectTab (tab : Tab)
  | setPayload (payload : Option Json)
  | setRun (run : Option RunResult)
  | setLoading (loading : Bool)
  | setRequestError (message : Option String)
  /-- Goes to the scheduler of the view. -/
  | order (order : Order)
  | close

namespace ViewStep

variable {σ : Type}

/-- Takes a step. Gives the session that it begins, if any. -/
def take (step : ViewStep) (s : Scene σ View) : Scene σ View × Option RenderId :=
  match step with
  | .selectTab tab => s.selectTab tab
  | .setPayload payload => s.setPayload payload
  | .setRun run => (s.setRun run, none)
  | .setLoading loading => (s.setLoading loading, none)
  | .setRequestError message => (s.setRequestError message, none)
  | .order (.schedule text) => s.schedule text
  | .order .teardown => (s.teardown, none)
  | .close => (s.close, none)

/-- Takes a step unless the view is closed. -/
def obey (step : ViewStep) (s : Scene σ View) : Scene σ View :=
  if s.closed then s else (step.take s).1

end ViewStep

end DiagramView
