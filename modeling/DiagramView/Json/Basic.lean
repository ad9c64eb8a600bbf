import DiagramView.Decimal.Binary64

/-!
# JSON values

Objects keep the order in which their fields were first written; a field written again keeps its
place and takes the new value. Whole numbers are kept exactly where 64 bits suffice.
-/

namespace DiagramView

/-- A JSON number. -/
inductive Number where
  /-- A whole number that is not negative. -/
  | natural (n : UInt64)
  /-- A negative whole number. -/
  | negative (n : Int64)
  /-- Any other number, rounded to the 64-bit binary format. -/
  | real (x : Decimal.Binary64)
  deriving DecidableEq, Repr

/-- A JSON value. -/
inductive Json where
  | null
  | bool (b : Bool)
  | number (n : Number)
  | string (s : String)
  | array (items : List Json)
  | object (fields : List (String × Json))
  deriving Inhabited

namespace Json

/-- The value of the field with the given name. -/
def field? (fields : List (String × Json)) (name : String) : Option Json :=
  (fields.find? fun entry => entry.1 == name).map (·.2)

/-- Sets a field: in place when the name is there already, at the end otherwise. -/
def setField : List (String × Json) → String → Json → List (String × Json)
  | [], name, value => [(name, value)]
  | entry :: rest, name, value =>
    if entry.1 = name then (name, value) :: rest else entry :: setField rest name value

/-- The text of a string. -/
def string? : Json → Option String
  | .string s => some s
  | _ => none

/-- The value of a field when the value is an object that has it. -/
def get? (v : Json) (name : String) : Option Json :=
  match v with
  | .object fields => field? fields name
  | _ => none

end Json

end DiagramView
