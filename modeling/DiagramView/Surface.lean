import DiagramView.Id

/-!
# Surfaces

What a view draws on: one container for the diagram that is shown, a body beside it, and hosts off
the screen in which engines lay diagrams out. Nodes are told apart by their ids alone, and a sweep
removes the nodes whose ids satisfy a predicate, wherever they are.
-/

namespace DiagramView

/-- A piece of markup under an id. -/
structure SurfaceNode where
  id : String
  markup : String
  deriving DecidableEq, Repr

/-- The number of a host. -/
structure HostId where
  number : Nat
  deriving DecidableEq, Repr, Inhabited

/-- A host as log lines name it. -/
def HostId.label (h : HostId) : String :=
  "HostId(" ++ toString h.number ++ ")"

/-- Where a node is inserted. -/
inductive Parent where
  | body
  | host (id : HostId)
  deriving DecidableEq, Repr

/-- A surface. Hosts are numbered in the order in which they were attached. Numbers have no bound
here; a counter of 64 bits gives the same ones until it has counted through its range. -/
structure Surface where
  container : Option SurfaceNode := none
  body : List SurfaceNode := []
  hosts : List (HostId × List SurfaceNode) := []
  /-- The number of hosts ever attached. -/
  attached : Nat := 0
  deriving DecidableEq, Repr, Inhabited

namespace Surface

/-- Empties the container. -/
def clearContainer (s : Surface) : Surface :=
  { s with container := none }

/-- Shows a node in the container, in the place of what was there. -/
def mount (s : Surface) (node : SurfaceNode) : Surface :=
  { s with container := some node }

/-- The host that is attached next. -/
def nextHost (s : Surface) : HostId :=
  ⟨s.attached + 1⟩

/-- Attaches an empty host. -/
def attachHost (s : Surface) : Surface :=
  { s with hosts := s.hosts ++ [(s.nextHost, [])], attached := s.attached + 1 }

/-- Detaches a host with all that is in it. A host that is not attached is ignored. -/
def detachHost (s : Surface) (h : HostId) : Surface :=
  { s with hosts := s.hosts.filter fun entry => entry.1 != h }

/-- Inserts a node outside the container. Nothing happens when its host is not attached. -/
def insert (s : Surface) (parent : Parent) (node : SurfaceNode) : Surface :=
  match parent with
  | .body => { s with body := s.body ++ [node] }
  | .host h =>
    { s with hosts := s.hosts.map fun entry =>
        if entry.1 = h then (entry.1, entry.2 ++ [node]) else entry }

/-- The nodes of a surface: the container's, the body's, and those of the hosts in order. -/
def nodes (s : Surface) : List SurfaceNode :=
  s.container.toList ++ s.body ++ s.hosts.flatMap (·.2)

/-- The number of nodes whose ids satisfy a predicate. -/
def count (s : Surface) (p : String → Bool) : Nat :=
  s.nodes.countP fun node => p node.id

/-- Removes the nodes whose ids satisfy a predicate. -/
def remove (s : Surface) (p : String → Bool) : Surface :=
  { s with
    container := s.container.filter fun node => !p node.id
    body := s.body.filter fun node => !p node.id
    hosts := s.hosts.map fun entry => (entry.1, entry.2.filter fun node => !p node.id) }

/-- The number of nodes that one place loses: those that it holds, less those that stay. -/
def lostAt (p : String → Bool) (nodes : List SurfaceNode) : Nat :=
  nodes.length - (nodes.filter fun node => !p node.id).length

/-- The number of nodes that a surface loses, summed up over the container, the body and the
hosts. -/
@[irreducible] def lost (s : Surface) (p : String → Bool) : Nat :=
  let shown := if s.container.any fun node => p node.id then 1 else 0
  s.hosts.foldl (fun n entry => n + lostAt p entry.2) (shown + lostAt p s.body)

/-- Removes the nodes whose ids satisfy a predicate, and says how many were lost. -/
def sweep (s : Surface) (p : String → Bool) : Surface × Nat :=
  (s.remove p, s.lost p)

end Surface

end DiagramView
