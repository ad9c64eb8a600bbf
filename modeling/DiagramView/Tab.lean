import DiagramView.Json.Decode

/-!
# Tabs

The view has three tabs, exactly one of which is active. Users may name a tab by either of two
words, in any case and with blanks around it; the stored form is the canonical name alone.
-/

namespace DiagramView

/-- The tabs of the view. -/
inductive Tab where
  | explanation
  | flow
  | output
  deriving DecidableEq, Repr, Inhabited

namespace Tab

/-- All tabs, in the order in which they are shown. -/
def all : List Tab :=
  [.explanation, .flow, .output]

/-- The canonical name of a tab. -/
def name : Tab → String
  | .explanation => "explanation"
  | .flow => "flow"
  | .output => "output"

/-- The tab that a word names. -/
def ofName? (word : String) : Option Tab :=
  match Text.lowerAscii (Text.trim word) with
  | "explain" | "explanation" => some .explanation
  | "flow" | "diagram" => some .flow
  | "output" | "run" => some .output
  | _ => none

/-- The message for a word that names no tab. -/
def unknownMessage (word : String) : String :=
  "unknown tab " ++ Text.quoted word ++ " (expected explain, flow or output)"

/-- Reads the stored form of a tab. -/
def parseJson (text : String) : Except Json.Failure Tab :=
  Json.readWhole (Json.readVariant (all.map fun tab => (tab.name, tab))) text

end Tab

end DiagramView
