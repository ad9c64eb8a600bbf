import DiagramView.Session.Room

/-!
# Courses of events

What happens around a scheduler whose engine asks it for nothing: its owner calls it, a task has a
turn, and between turns the engine inserts nodes and works on, so that a call may come to its end
with any result. A course is any list of such moves, in any order: a task may have a turn whether or
not it was woken, and an engine may come to any state.
-/

namespace DiagramView

variable {σ κ ο : Type}

/-- Something that happens around a scheduler, whose owner makes calls `κ`. -/
inductive Move (σ κ : Type) where
  /-- The owner makes a call. -/
  | call (command : κ)
  /-- A task has its turn. -/
  | turn (task : Task)
  /-- The engine inserts a node. -/
  | insert (parent : Parent) (node : SurfaceNode)
  /-- The engine comes to another state. -/
  | work (engine : σ)

/-- What a move does. -/
def Move.take (e : Engine σ Empty) (obey : κ → Scene σ ο → Scene σ ο) (move : Move σ κ)
    (s : Scene σ ο) : Scene σ ο :=
  match move with
  | .call command => obey command s
  | .turn task => s.resume e nofun task
  | .insert parent node => { s with surface := s.surface.insert parent node }
  | .work engine => { s with engine }

namespace Scene

/-- A scheduler that has done nothing yet, on an empty page. -/
def fresh (config : SharedConfig) (engine : σ) (instanceId : InstanceId) (owner : ο) :
    Scene σ ο :=
  Desk.onPage ⟨{ engine }, { instanceId }, owner⟩ { config }

/-- The scene after a course of moves. -/
def run (e : Engine σ Empty) (obey : κ → Scene σ ο → Scene σ ο) (moves : List (Move σ κ))
    (s : Scene σ ο) : Scene σ ο :=
  moves.foldl (fun s move => move.take e obey s) s

/-- What holds at first and is kept by every move holds after every course. -/
theorem run_invariant {e : Engine σ Empty} {obey : κ → Scene σ ο → Scene σ ο}
    {P : Scene σ ο → Prop} (hmove : ∀ (move : Move σ κ) s, P s → P (move.take e obey s))
    (moves : List (Move σ κ)) {s : Scene σ ο} (hs : P s) : P (s.run e obey moves) := by
  induction moves generalizing s with
  | nil => exact hs
  | cons move moves ih => exact ih (hmove move s hs)

end Scene

end DiagramView
