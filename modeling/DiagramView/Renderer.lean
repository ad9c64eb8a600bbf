import DiagramView.Diagram.Keyword
import DiagramView.Engine.Basic
import DiagramView.Markup.Background
import DiagramView.Session.Agenda

/-!
# Renderers

A renderer makes the calls on one engine. It configures the engine before the first call, refuses
texts that do not look like diagrams without asking the engine, gives every render call a host of
its own, and neutralizes the background of the markup that comes out.

What an engine does in the course of a call is handed on with the answer, for the caller to carry
out before anything else happens.
-/

namespace DiagramView

/-- Why a text is not rendered. -/
inductive ParseError where
  | notDiagramShaped
  /-- The engine refused the text. -/
  | refused (message : String)
  deriving DecidableEq, Repr

/-- The wording of a parse error. -/
def ParseError.message : ParseError → String
  | .notDiagramShaped =>
    "Diagram text does not look like Mermaid (should start with " ++
      Text.join " or " (Diagram.Keyword.all.map fun k => "'" ++ k.word ++ "'") ++ ")."
  | .refused message => message

/-- How a render call came out. -/
inductive RenderResult where
  | artifact (markup : String)
  | failed (message : String)
  /-- The markup could not be neutralized, and whoever awaited it came to an end. -/
  | crashed
  deriving DecidableEq, Repr

/-- What the views on a page share. -/
structure Page where
  surface : Surface := {}
  log : List Event := []
  agenda : Agenda := {}
  config : SharedConfig := {}
  deriving Inhabited

/-- An engine with the record of the calls made on it and of its answers. -/
structure Renderer (σ : Type) where
  engine : σ
  configured : Bool := false
  calls : List EngineCall := []
  answers : List EngineAnswer := []

/-- The text form of a renderer. -/
def Renderer.describe {σ : Type} (r : Renderer σ) : String :=
  "DiagramRenderer \x7b engine: LazyEngine \x7b initialized: " ++
    (if r.configured then "true" else "false") ++ " \x7d \x7d"

/-- A renderer at work on a page. -/
structure Bench (σ : Type) extends Page, Renderer σ

namespace Bench

variable {σ κ : Type}

/-- Adds an event to the log. -/
def report (b : Bench σ) (event : Event) : Bench σ :=
  { b with log := b.log ++ [event] }

/-- Adds a call to the record. -/
def record (b : Bench σ) (phase : Option Phase) (request : EngineRequest) : Bench σ :=
  { b with calls := b.calls ++ [⟨request, phase⟩] }

/-- Takes over the state of the engine after a call that it answered. -/
def answered (b : Bench σ) (engine : σ) (answer : EngineAnswer) : Bench σ :=
  { b with engine, answers := b.answers ++ [answer] }

/-- Configures the engine unless that was done before. -/
def prepare (e : Engine σ κ) (phase : Option Phase) (b : Bench σ) : Bench σ :=
  if b.configured then b
  else
    let config := b.config.inForce
    let b := b.record phase (.configure config)
    { b with
      config := b.config.fix
      engine := e.configure config b.engine
      configured := true
      log := b.log ++ [.engineInitialized config.theme] }

/-- Decides whether a text is a diagram, and of which kind. -/
def validate (e : Engine σ κ) (phase : Option Phase) (text : String) (b : Bench σ) :
    Response (Bench σ) κ (Except ParseError Diagram.Keyword) :=
  match Diagram.keyword? text with
  | none => ⟨b, [], .error .notDiagramShaped⟩
  | some keyword =>
    let b := (b.prepare e phase).record phase (.validate text)
    let response := e.validate text b.engine
    ⟨b.answered response.state (.verdict text response.answer), response.deeds,
      match response.answer with
      | .ok () => .ok keyword
      | .error message => .error (.refused message)⟩

/-- Attaches a host and begins to render a text in it. The host stands for the call. -/
def render (e : Engine σ κ) (phase : Option Phase) (id : RenderId) (text : String) (b : Bench σ) :
    Response (Bench σ) κ HostId :=
  let host := b.surface.nextHost
  let b := { b with surface := b.surface.attachHost }
  let b := (b.prepare e phase).record phase (.render id text host)
  let response := e.render id text host b.engine
  ⟨{ b with engine := response.state }, response.deeds, host⟩

/-- Asks the engine for the result of a call. -/
def poll (e : Engine σ κ) (host : HostId) (b : Bench σ) :
    Option (Response (Bench σ) κ (Except String String)) :=
  (e.poll host b.engine).map fun response =>
    ⟨b.answered response.state (.result host response.answer), response.deeds, response.answer⟩

/-- Detaches the host of a call that is over, and neutralizes the markup that it gave. -/
def conclude (host : HostId) (result : Except String String) (b : Bench σ) :
    Bench σ × RenderResult :=
  let b := { b with surface := b.surface.detachHost host }
  match result with
  | .error message => (b, .failed message)
  | .ok raw =>
    let neutralized := Markup.neutralize raw
    let b := if neutralized.wellFormed then b else b.report .artifactNotWellFormed
    match neutralized.markup with
    | some markup => (b, .artifact markup)
    | none => (b, .crashed)

/-- Gives up a call. Its host stays attached if the surface is in use at that moment. -/
def giveUp (host : HostId) (busy : Bool) (b : Bench σ) : Bench σ :=
  if busy then b.report (.hostStaysAttached host.label)
  else { b with surface := b.surface.detachHost host }

end Bench

end DiagramView
