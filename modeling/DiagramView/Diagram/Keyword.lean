import DiagramView.Text.WordChar

/-!
# Diagram keywords

A text is taken for a diagram when its first line that is not blank begins with a diagram keyword
as a word of its own.
-/

namespace DiagramView.Diagram

/-- The keywords that a diagram begins with. -/
inductive Keyword where
  | flowchart
  | graph
  deriving DecidableEq, Repr

namespace Keyword

/-- All keywords, in the order in which messages list them. -/
def all : List Keyword :=
  [.flowchart, .graph]

/-- The keyword as it is written. -/
def word : Keyword → String
  | .flowchart => "flowchart"
  | .graph => "graph"

/-- Whether a line begins with the keyword and no word character follows it. -/
def opens (k : Keyword) (line : List Char) : Bool :=
  k.word.toList.isPrefixOf line && !Text.continuesWord (line.drop k.word.length)

end Keyword

/-- The first line that is not blank, without the blanks around it. -/
def firstLine? (text : List Char) : Option (List Char) :=
  ((Text.linesOf text).map Text.trimChars).find? (!·.isEmpty)

/-- The first line of a text that is not blank, without the blanks around it. -/
def firstNonBlankLine? (text : String) : Option String :=
  (firstLine? text.toList).map String.ofList

/-- The keyword that a text begins with. -/
def keyword? (text : String) : Option Keyword :=
  match firstLine? text.toList with
  | none => none
  | some line => Keyword.all.find? (·.opens line)

/-- Whether a text looks like a diagram. -/
def looksLikeDiagram (text : String) : Bool :=
  (keyword? text).isSome

end DiagramView.Diagram
