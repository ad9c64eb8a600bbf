import DiagramView.Session.Scheduler

/-!
# Running sessions

The task of a session runs in turns. In its first turn it steps back; then it validates the text
and begins to render it; then it awaits the engine. Whenever it runs it first looks whether its
session was given up. Whatever an engine does in the course of a call is carried out before the
session goes on, and may itself begin or give up sessions.
-/

namespace DiagramView

namespace Scene

variable {σ κ ο : Type}

/-- Carries out what an engine did in the course of a call. Requests go to the owner. -/
def perform (obey : κ → Scene σ ο → Scene σ ο) (s : Scene σ ο) (deed : Deed κ) : Scene σ ο :=
  match deed with
  | .insert parent node => { s with surface := s.surface.insert parent node }
  | .report event => s.report event
  | .request command => obey command s

/-- Takes over the state of the bench after a call, and carries out what the engine did. -/
def absorb {α : Type} (obey : κ → Scene σ ο → Scene σ ο) (s : Scene σ ο)
    (response : Response (Bench σ) κ α) : Scene σ ο :=
  response.deeds.foldl (perform obey) { s with toBench := response.state }

/-- Shows the result of a session's render call, if the session is still live. -/
def showResult (seq : Nat) (result : RenderResult) (s : Scene σ ο) : Scene σ ο :=
  match result with
  | .crashed => s.setProgress seq (.ended .cancelled)
  | .artifact markup =>
    if s.isLive seq then
      let id := s.renderId seq
      let s := { s with surface := s.surface.clearContainer.mount ⟨id.text, markup⟩ }
      let (s, swept) := s.sweep id.above
      (s.report (.diagramRendered id.text swept)).settle seq .rendered
    else s.discard seq
  | .failed message =>
    if s.isLive seq then
      let s := s.report (.renderFailed (s.renderId seq).text message)
      s.clearContainer.settle seq (.renderError message)
    else s.discard seq

/-- Awaits the engine call of a session. A session that was given up leaves the call to a task of
its own. -/
def await (e : Engine σ κ) (obey : κ → Scene σ ο → Scene σ ο) (seq : Nat) (host : HostId)
    (s : Scene σ ο) : Scene σ ο :=
  if s.isCancelled seq then
    let s := s.update seq fun session => { session with abandoned := some host }
    (s.wake seq .sweep).discard seq
  else
    match s.toBench.poll e host with
    | none => s.setProgress seq (.waiting host)
    | some response =>
      let s := s.absorb obey response
      let (bench, result) := s.toBench.conclude host response.answer
      { s with toBench := bench }.showResult seq result

/-- Begins to render the text of a session. -/
def beginRender (e : Engine σ κ) (obey : κ → Scene σ ο → Scene σ ο) (seq : Nat) (text : String)
    (s : Scene σ ο) : Scene σ ο :=
  let s := s.setPhase seq .rendering
  let response := s.toBench.render e s.phase? (s.renderId seq) text
  (s.absorb obey response).await e obey seq response.answer

/-- Validates the text of a session, and renders it if it is accepted. -/
def beginValidation (e : Engine σ κ) (obey : κ → Scene σ ο → Scene σ ο) (seq : Nat) (text : String)
    (s : Scene σ ο) : Scene σ ο :=
  let s := s.setPhase seq .validating
  let response := s.toBench.validate e s.phase? text
  let s := s.absorb obey response
  match response.answer with
  | .error error =>
    let s := s.report (.diagramRejected (s.renderId seq).text error.message)
    s.clearContainer.settle seq (.parseError error.message)
  | .ok _ => s.beginRender e obey seq text

/-- Gives the task of a session its turn. -/
def resumeSession (e : Engine σ κ) (obey : κ → Scene σ ο → Scene σ ο) (seq : Nat)
    (s : Scene σ ο) : Scene σ ο :=
  match s.session? seq with
  | none => s
  | some session =>
    match session.progress with
    | .created =>
      if session.cancelled then s.discard seq
      else (s.setProgress seq .deferred).setAside seq
    | .deferred =>
      if session.cancelled || !s.isLive seq then s.discard seq
      else (s.setProgress seq .running).beginValidation e obey seq session.text
    | .waiting host => (s.setProgress seq .running).await e obey seq host
    | .running | .ended _ => s

/-- Removes what an abandoned engine call left, once the call is over. -/
def resumeSweep (e : Engine σ κ) (obey : κ → Scene σ ο → Scene σ ο) (seq : Nat)
    (s : Scene σ ο) : Scene σ ο :=
  match (s.session? seq).bind (·.abandoned) with
  | none => s
  | some host =>
    match s.toBench.poll e host with
    | none => s
    | some response =>
      let s := s.absorb obey response
      let (bench, result) := s.toBench.conclude host response.answer
      let s := { s with toBench := bench }.update seq fun session =>
        { session with abandoned := none }
      match result with
      | .crashed => s
      | .artifact _ =>
        let id := s.renderId seq
        let (s, swept) := s.sweep id.owns
        s.report (.lateDiscarded id.text true swept)
      | .failed _ =>
        let id := s.renderId seq
        let (s, swept) := s.sweep id.owns
        s.report (.lateDiscarded id.text false swept)

/-- Gives a task its turn. -/
def resume (e : Engine σ κ) (obey : κ → Scene σ ο → Scene σ ο) (task : Task) (s : Scene σ ο) :
    Scene σ ο :=
  match task.role with
  | .session => s.resumeSession e obey task.seq
  | .sweep => s.resumeSweep e obey task.seq

end Scene

/-! ## Orders to a scheduler -/

/-- What the owner of a scheduler asks it for. -/
inductive Order where
  | schedule (text : String)
  | teardown
  deriving DecidableEq, Repr

/-- Carries out an order. -/
def Order.obey {σ ο : Type} (order : Order) (s : Scene σ ο) : Scene σ ο :=
  match order with
  | .schedule text => (s.schedule text).1
  | .teardown => s.teardown

end DiagramView
