import DiagramView.Text.Blank

/-!
# Element ids

Every view instance has an id, every render session of an instance has an id below it, and the
nodes an engine makes for a session carry the session's id or an id below that. Which node belongs
to whom is read off the beginning of its id.
-/

namespace DiagramView

/-- Why a text is no id. -/
inductive IdError where
  | empty
  | containsBlank
  deriving DecidableEq, Repr

/-- The wording of an id error. -/
def IdError.message : IdError → String
  | .empty => "id must not be empty"
  | .containsBlank => "id must not contain whitespace"

/-- Checks that a text may serve as an id: it is not empty and has no blank in it. -/
def checkId (text : String) : Except IdError String :=
  if text.isEmpty then .error .empty
  else if text.toList.any Text.isBlank then .error .containsBlank
  else .ok text

/-- The id of one view instance. -/
structure InstanceId where
  text : String
  deriving DecidableEq, Repr, Inhabited

/-- The id of one render session, which its artifact carries on the surface. -/
structure RenderId where
  text : String
  deriving DecidableEq, Repr, Inhabited

namespace InstanceId

/-- Reads an instance id. -/
def parse (text : String) : Except IdError InstanceId :=
  (checkId text).map InstanceId.mk

/-- The id of the instance with the given number. Numbers have no bound here; a counter of 64 bits
gives the same ones until it has counted through its range, and only then could an id come twice. -/
def numbered (n : Nat) : InstanceId :=
  ⟨"cl-" ++ toString n⟩

/-- What the ids of all the instance's nodes begin with. -/
def scope (i : InstanceId) : String :=
  i.text ++ "-"

/-- The id of the instance's session with the given sequence number. -/
def renderId (i : InstanceId) (seq : Nat) : RenderId :=
  ⟨i.scope ++ toString seq⟩

/-- Whether a node belongs to the instance. -/
def covers (i : InstanceId) (node : String) : Bool :=
  Text.startsWith node i.scope

end InstanceId

namespace RenderId

/-- Reads a render id. -/
def parse (text : String) : Except IdError RenderId :=
  (checkId text).map RenderId.mk

/-- Whether a node lies below the session: its id begins with the session's id and a hyphen. -/
def above (r : RenderId) (node : String) : Bool :=
  Text.startsWith node (r.text ++ "-")

/-- Whether a node belongs to the session: it carries the session's id, or one below it. -/
def owns (r : RenderId) (node : String) : Bool :=
  node == r.text || r.above node

end RenderId

end DiagramView
