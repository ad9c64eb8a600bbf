import DiagramView.Diagram.Keyword
import DiagramView.Diagram.Line

/-!
# Finding the diagram in a payload

Payloads come in many shapes. A registry is a list of named strategies, and the first of them that
finds a text that is not empty decides. Four strategies go by the shape of a value; they also apply
to the values under the keys that usually hold a diagram. A fifth looks through all the fields of an
object for a text that looks like a diagram.
-/

namespace DiagramView.Diagram

/-- One way to find diagram text in a value. -/
structure Strategy where
  name : String
  extract : Json → Option String

/-- Strategies in the order in which they are tried. -/
abbrev Registry := List Strategy

/-- A text that was found, and the name of the strategy that found it. -/
structure Extraction where
  strategy : String
  text : String
  deriving DecidableEq, Repr

/-- A text unless it is empty. -/
def nonEmpty? (text : String) : Option String :=
  if text.isEmpty then none else some text

/-- What a strategy finds, an empty text not counted. -/
def Strategy.find? (s : Strategy) (v : Json) : Option Extraction :=
  ((s.extract v).bind nonEmpty?).map (Extraction.mk s.name)

/-- What the first strategy that finds something finds. -/
def Registry.extract? (r : Registry) (v : Json) : Option Extraction :=
  r.findSome? (·.find? v)

/-- The diagram text of a value, empty when there is none. -/
def Registry.normalize (r : Registry) (v : Json) : String :=
  match r.extract? v with
  | none => ""
  | some extraction => extraction.text

/-! ## Going by the shape -/

/-- The keys that may hold a diagram, the most telling first. -/
def aliasKeys : List String :=
  ["diagram", "mermaid", "graph", "flowchart", "chart", "diagramText"]

/-- The key that may hold the lines of a diagram. -/
def linesKey : String := "lines"

/-- The text of a string. -/
def plainText : Json → Option String
  | .string s => nonEmpty? (Text.trim s)
  | _ => none

/-- The lines of an array. -/
def lineSequence : Json → Option String
  | .array items => nonEmpty? (Text.trim (joinLines items))
  | _ => none

/-- The lines under the key for lines. -/
def nestedLines : Json → Option String
  | .object fields =>
    match Json.field? fields linesKey with
    | some (.array items) => nonEmpty? (Text.trim (joinLines items))
    | _ => none
  | _ => none

/-- The first text that is not empty among those under the alias keys. -/
def firstAliased (texts : List (String × String)) : Option String :=
  aliasKeys.findSome? fun key =>
    match texts.find? fun entry => entry.1 == key with
    | some (_, text) => nonEmpty? text
    | none => none

mutual

/-- The text that the shape of a value leads to, empty when there is none. -/
def shapeText : Json → String
  | .object fields =>
    match firstAliased (shapeTexts fields) with
    | some text => text
    | none => (nestedLines (.object fields)).getD ""
  | .string s => (plainText (.string s)).getD ""
  | .array items => (lineSequence (.array items)).getD ""
  | _ => ""

/-- The names of some fields with the texts of their values. -/
def shapeTexts : List (String × Json) → List (String × String)
  | [] => []
  | (name, v) :: rest => (name, shapeText v) :: shapeTexts rest

end

/-- The text under the first alias key whose value leads to one. -/
def aliasedKey : Json → Option String
  | .object fields => firstAliased (shapeTexts fields)
  | _ => none

/-- The text of the first field that looks like a diagram. -/
def keywordScan : Json → Option String
  | .object fields => ((shapeTexts fields).map (·.2)).find? looksLikeDiagram
  | _ => none

namespace Strategy

/-- Takes a string for the diagram. -/
def text : Strategy := ⟨"text", plainText⟩

/-- Takes an array for the lines of the diagram. -/
def lineSequence : Strategy := ⟨"line-sequence", Diagram.lineSequence⟩

/-- Looks under the alias keys. -/
def aliasedKey : Strategy := ⟨"aliased-key", Diagram.aliasedKey⟩

/-- Looks under the key for lines. -/
def nestedLines : Strategy := ⟨"nested-lines", Diagram.nestedLines⟩

/-- Looks for a field that looks like a diagram. -/
def keywordScan : Strategy := ⟨"keyword-scan", Diagram.keywordScan⟩

end Strategy

namespace Registry

/-- The strategies that go by the shape of a value. -/
def structural : Registry :=
  [.text, .lineSequence, .aliasedKey, .nestedLines]

/-- The strategies that the view uses. -/
def standard : Registry :=
  structural ++ [.keywordScan]

/-- The names of the strategies, in order. -/
def names (r : Registry) : List String :=
  r.map (·.name)

/-- The shape of a registry as a debugging aid shows it. -/
def describe (r : Registry) : String :=
  "Normalizer \x7b strategies: [" ++
    Text.join ", " (r.names.map fun name =>
      "Strategy \x7b name: \"" ++ name ++ "\", .. \x7d") ++
    "] \x7d"

end Registry

/-- The diagram text of a payload. -/
def normalize (payload : Json) : String :=
  Registry.standard.normalize payload

end DiagramView.Diagram
