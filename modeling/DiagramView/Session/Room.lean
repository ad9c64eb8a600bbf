import DiagramView.Session.Run

/-!
# Rooms

Several schedulers on one page, each with an engine state of its own. Their tasks take turns: the
task at the head of the line runs until it waits or steps back, and a round of turns is over when
the line is empty or a fixed number of turns has been taken. Then the tasks that stepped back are
woken.
-/

namespace DiagramView

/-- What belongs to one scheduler of a room. -/
structure Desk (σ ο : Type) where
  renderer : Renderer σ
  schedule : Schedule
  owner : ο

namespace Desk

variable {σ ο : Type}

/-- The scheduler at work on a page. -/
def onPage (desk : Desk σ ο) (page : Page) : Scene σ ο :=
  { toPage := page, toRenderer := desk.renderer, toSchedule := desk.schedule, owner := desk.owner }

/-- What belongs to a scheduler at work. -/
def ofScene (s : Scene σ ο) : Desk σ ο :=
  ⟨s.toRenderer, s.toSchedule, s.owner⟩

end Desk

/-- Schedulers on one page. -/
structure Room (σ ο : Type) where
  page : Page
  desks : List (Desk σ ο)

namespace Room

variable {σ κ ο : Type}

/-- A room with an empty page and the given number of schedulers. -/
def new (engine : σ) (owner : ο) (count : Nat) : Room σ ο :=
  { page := {}
    desks := (List.range count).map fun n =>
      { renderer := { engine }, schedule := { instanceId := .numbered (n + 1) }, owner } }

/-- The scheduler at an index, at work on the page. -/
def scene? (room : Room σ ο) (index : Nat) : Option (Scene σ ο) :=
  room.desks[index]?.map fun desk => desk.onPage room.page

/-- Takes over what the scheduler at an index did. -/
def put (room : Room σ ο) (index : Nat) (s : Scene σ ο) : Room σ ο :=
  { page := s.toPage, desks := room.desks.set index (.ofScene s) }

/-- Lets the scheduler at an index do something. Nothing happens when there is none. -/
def visit (room : Room σ ο) (index : Nat) (f : Scene σ ο → Scene σ ο) : Room σ ο :=
  match room.scene? index with
  | none => room
  | some s => room.put index (f s)

/-- Replaces the agenda of the page. -/
def withAgenda (room : Room σ ο) (agenda : Agenda) : Room σ ο :=
  { room with page := { room.page with agenda } }

/-- Gives a task its turn, at the desk that it belongs to. -/
def resume (e : Engine σ κ) (obey : κ → Scene σ ο → Scene σ ο) (room : Room σ ο) (task : Task) :
    Room σ ο :=
  match room.desks.findIdx? fun desk => desk.schedule.instanceId = task.instanceId with
  | none => room
  | some index => room.visit index (Scene.resume e obey task)

/-- The number of turns after which a round is over at the latest. -/
def roundLength : Nat := 61

/-- Lets the tasks take turns until none is left to run or the fuel is spent, with the given number
of turns left in the round. -/
def runRounds (e : Engine σ κ) (obey : κ → Scene σ ο → Scene σ ο) :
    Nat → Nat → Room σ ο → Room σ ο
  | 0, _, room => room
  | fuel + 1, turns, room =>
    match turns, room.page.agenda.ready with
    | turns + 1, task :: rest =>
      let agenda := { room.page.agenda with ready := rest }
      runRounds e obey fuel turns ((room.withAgenda agenda).resume e obey task)
    | _, _ =>
      if room.page.agenda.isDone then room
      else runRounds e obey fuel roundLength (room.withAgenda room.page.agenda.wakeAside)

/-- Lets the tasks take turns until none is left to run, for at most the given number of steps. -/
def settle (e : Engine σ κ) (obey : κ → Scene σ ο → Scene σ ο) (fuel : Nat) (room : Room σ ο) :
    Room σ ο :=
  runRounds e obey fuel roundLength room

end Room

end DiagramView
