import DiagramView.Engine.Config
import DiagramView.Log.Event
import DiagramView.Session.Phase
import DiagramView.Surface

/-!
# Engines

What turns the text of a diagram into markup. An engine is a machine: a call takes its state to the
next one and answers, and in the course of a call it may put nodes on the surface, report events,
and ask the owner of the view for something, which `κ` ranges over. A render call answers at once
and goes on in its host; it is over when polling its host gives a result.
-/

namespace DiagramView

/-- Something that an engine does in the course of a call. -/
inductive Deed (κ : Type) where
  /-- Puts a node on the surface. -/
  | insert (parent : Parent) (node : SurfaceNode)
  /-- Reports an event. -/
  | report (event : Event)
  /-- Asks the owner of the view for something, which is done before the call goes on. -/
  | request (command : κ)
  deriving DecidableEq, Repr

/-- The state after a call, what was done in its course, and its answer. -/
structure Response (σ κ α : Type) where
  state : σ
  deeds : List (Deed κ)
  answer : α

/-- A diagram engine with states `σ`. -/
structure Engine (σ κ : Type) where
  /-- Takes settings, before any other call. -/
  configure : EngineConfig → σ → σ
  /-- Accepts a text, or refuses it with a message. -/
  validate : String → σ → Response σ κ (Except String Unit)
  /-- Begins to render a text under an id in a host of its own. -/
  render : RenderId → String → HostId → σ → Response σ κ Unit
  /-- The markup that the call in a host gives, or the message with which it fails; nothing as long
  as the call is under way. -/
  poll : HostId → σ → Option (Response σ κ (Except String String))

/-- A call that was made on an engine. -/
inductive EngineRequest where
  | configure (config : EngineConfig)
  | validate (text : String)
  | render (id : RenderId) (text : String) (host : HostId)
  deriving DecidableEq, Repr

/-- An entry of the record of calls. -/
structure EngineCall where
  request : EngineRequest
  /-- What the view showed when the call was made, if there was a view. -/
  phase : Option Phase
  deriving DecidableEq, Repr

/-- Something that an engine answered. -/
inductive EngineAnswer where
  /-- A text was accepted, or refused with a message. -/
  | verdict (text : String) (answer : Except String Unit)
  /-- The call in a host was over, with markup or a message. -/
  | result (host : HostId) (answer : Except String String)
  deriving Repr

/-! ## Shared settings -/

/-- The settings that all engines are configured with. The first use fixes them. -/
structure SharedConfig where
  fixed : Option EngineConfig := none
  deriving DecidableEq, Repr, Inhabited

namespace SharedConfig

/-- The settings in force: those that were fixed, else the defaults. -/
def inForce (c : SharedConfig) : EngineConfig :=
  c.fixed.getD {}

/-- Fixes the settings in force. -/
def fix (c : SharedConfig) : SharedConfig :=
  ⟨some c.inForce⟩

/-- Installs settings if none are in force yet. Others are ignored, which is reported unless they
are the ones in force. -/
def install (c : SharedConfig) (config : EngineConfig) : SharedConfig × List Event :=
  match c.fixed with
  | none => (⟨some config⟩, [])
  | some inForce => (c, if config = inForce then [] else [.configIgnored])

end SharedConfig

end DiagramView
