import DiagramView.Renderer

/-!
# Schedulers

A scheduler runs render sessions for one view instance. Every call for a text begins a session and
gives up the one in flight; what the instance had put on the surface goes away with it. At most one
session is live, and only a live session may show anything.

A session that is given up learns of it when its task next runs. Until then an engine call of its
may still be under way, and when that call is over a task of its own sweeps up what it left.
-/

namespace DiagramView

/-- How far the task of a session has come. -/
inductive Progress where
  /-- The task has not run yet. -/
  | created
  /-- The task has stepped back once, so that a burst of calls costs one render. -/
  | deferred
  /-- The task has its turn, in which it calls the engine. -/
  | running
  /-- The task awaits the engine call in a host. -/
  | waiting (host : HostId)
  | ended (how : SessionEnd)
  deriving DecidableEq, Repr

/-- Whether a task that has come so far can be woken: it does not have its turn, and it is not
over. -/
def Progress.isResting : Progress → Bool
  | .created | .deferred | .waiting _ => true
  | .running | .ended _ => false

/-- A render session. -/
structure Session where
  seq : Nat
  text : String
  /-- Whether the session was given up. -/
  cancelled : Bool := false
  progress : Progress := .created
  /-- The host of an engine call that the session left under way when it ended. -/
  abandoned : Option HostId := none
  deriving DecidableEq, Repr

/-- How a session ended, if it did. -/
def Session.end? (session : Session) : Option SessionEnd :=
  match session.progress with
  | .ended how => some how
  | _ => none

/-- The books of a scheduler. -/
structure Schedule where
  instanceId : InstanceId
  /-- The sequence number that was given out last. It grows without bound here; a counter of 64
  bits gives the same numbers until it has counted through its range. -/
  lastSeq : Nat := 0
  /-- The session that may show something. -/
  live : Option Nat := none
  status : Status := {}
  /-- All sessions with a text, in the order in which they began. -/
  sessions : List Session := []
  /-- Whether the owner of the scheduler is gone. -/
  closed : Bool := false

/-- A scheduler at work on a page, for an owner. -/
structure Scene (σ ο : Type) extends Bench σ, Schedule where
  owner : ο

namespace Scene

variable {σ ο : Type}

/-! ## Books -/

/-- The id of a session. -/
def renderId (s : Scene σ ο) (seq : Nat) : RenderId :=
  s.instanceId.renderId seq

/-- The session with a sequence number. -/
def session? (s : Scene σ ο) (seq : Nat) : Option Session :=
  s.sessions.find? fun session => session.seq == seq

/-- Changes the record of a session. -/
def update (s : Scene σ ο) (seq : Nat) (f : Session → Session) : Scene σ ο :=
  { s with sessions := s.sessions.map fun session =>
      if session.seq = seq then f session else session }

/-- Notes how far a session has come. -/
def setProgress (s : Scene σ ο) (seq : Nat) (progress : Progress) : Scene σ ο :=
  s.update seq fun session => { session with progress }

/-- Whether a session may show something. -/
def isLive (s : Scene σ ο) (seq : Nat) : Bool :=
  s.live == some seq

/-- Whether a session was given up. -/
def isCancelled (s : Scene σ ο) (seq : Nat) : Bool :=
  match s.session? seq with
  | some session => session.cancelled
  | none => false

/-- What the owner sees, while there is one. -/
def phase? (s : Scene σ ο) : Option Phase :=
  if s.closed then none else some s.status.phase

/-- Adds an event to the log. -/
def report (s : Scene σ ο) (event : Event) : Scene σ ο :=
  { s with toBench := s.toBench.report event }

/-- Wakes a task. -/
def wake (s : Scene σ ο) (seq : Nat) (role : TaskRole) : Scene σ ο :=
  { s with agenda := s.agenda.wake ⟨s.instanceId, seq, role⟩ }

/-- Wakes the task of a session if that can be done. -/
def wakeSession (s : Scene σ ο) (seq : Nat) : Scene σ ο :=
  if (s.session? seq).any (·.progress.isResting) then s.wake seq .session else s

/-- Sets the task of a session aside. -/
def setAside (s : Scene σ ο) (seq : Nat) : Scene σ ο :=
  { s with agenda := s.agenda.setAside ⟨s.instanceId, seq, .session⟩ }

/-- Wakes the task that awaits the engine call in a host. -/
def wakeAwaiting (s : Scene σ ο) (host : HostId) : Scene σ ο :=
  s.sessions.foldl
    (fun s session =>
      if session.progress = .waiting host then s.wake session.seq .session
      else if session.abandoned = some host then s.wake session.seq .sweep
      else s)
    s

/-- Empties the container. -/
def clearContainer (s : Scene σ ο) : Scene σ ο :=
  { s with surface := s.surface.clearContainer }

/-- Removes the nodes whose ids satisfy a predicate, and says how many there were. -/
def sweep (s : Scene σ ο) (p : String → Bool) : Scene σ ο × Nat :=
  let (surface, swept) := s.surface.sweep p
  ({ s with surface }, swept)

/-! ## Calls of the owner -/

/-- Gives up the live session. -/
def cancelSession (reason : CancelReason) (s : Scene σ ο) : Scene σ ο :=
  match s.live with
  | none => s
  | some seq =>
    let s := { s with live := none }.update seq fun session => { session with cancelled := true }
    (s.wakeSession seq).report (.sessionCancelled seq reason)

/-- Removes from the surface whatever is in the container and all nodes of the instance. -/
def clean (reason : CancelReason) (s : Scene σ ο) : Scene σ ο :=
  let (s, swept) := s.clearContainer.sweep s.instanceId.covers
  if swept = 0 then s else s.report (.straysRemoved swept reason)

/-- Gives up the live session, and cleans the surface. -/
def cancelLive (reason : CancelReason) (s : Scene σ ο) : Scene σ ο :=
  (s.cancelSession reason).clean reason

/-- Begins a session for a text. A blank text settles at once and has no session of its own. -/
def schedule (text : String) (s : Scene σ ο) : Scene σ ο × Option RenderId :=
  let s := s.cancelLive .superseded
  let seq := s.lastSeq + 1
  let id := s.renderId seq
  let s := { s with lastSeq := seq }
  if Text.isBlankText text then
    let s := s.report (.noDiagramText id.text)
    ({ s with status := ⟨some id, .noDiagram, none⟩ }, none)
  else
    let session : Session := { seq, text }
    let s :=
      { s with
        live := some seq
        status := ⟨some id, .scheduled, none⟩
        sessions := s.sessions ++ [session] }
    ((s.report (.renderScheduled id.text)).wake seq .session, some id)

/-- Gives up the live session and forgets its status. -/
def teardown (s : Scene σ ο) : Scene σ ο :=
  { s.cancelLive .teardown with status := {} }

/-- Tears down when the owner goes away. -/
def close (s : Scene σ ο) : Scene σ ο :=
  { s.teardown with closed := true }

/-! ## Moves of a session -/

/-- Shows a phase, if the session is live. -/
def setPhase (seq : Nat) (phase : Phase) (s : Scene σ ο) : Scene σ ο :=
  if s.isLive seq then { s with status := { s.status with phase } } else s

/-- Ends a session that ran to completion and shows how. No session is live then. -/
def settle (seq : Nat) (outcome : Outcome) (s : Scene σ ο) : Scene σ ο :=
  let s :=
    { s with
      live := none
      status := ⟨some (s.renderId seq), outcome.phase, outcome.message?⟩ }
  s.setProgress seq (.ended (.settled outcome))

/-- Ends a session that was given up and removes its own nodes, but not those of others. -/
def discard (seq : Nat) (s : Scene σ ο) : Scene σ ο :=
  let id := s.renderId seq
  let (s, swept) := s.sweep id.owns
  (s.report (.staleDiscarded id.text swept)).setProgress seq (.ended .cancelled)

end Scene

end DiagramView
