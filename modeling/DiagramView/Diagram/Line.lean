import DiagramView.Decimal.Natural
import DiagramView.Json.Printer
import DiagramView.Text.Blank

/-!
# Lines of a payload

Payloads often hold a text as an array of lines. A line is a string, or an object with a text and
an indent; each level of indent is two spaces, and levels beyond a bound count as the bound.
-/

namespace DiagramView.Diagram

/-- The greatest level of indent. -/
def maxIndent : Nat := 256

/-- The level of indent that a value stands for; what is no number and no numeral counts as zero,
and so does what is negative. -/
def indentLevel (v : Json) : Nat :=
  let level : Nat :=
    match v with
    | .number (.natural n) => n.toNat
    | .number (.real x) => if x.negative then 0 else x.floor
    | .string s => (Decimal.natural64? (Text.trimChars s.toList)).getD 0
    | _ => 0
  min level maxIndent

/-- The level of indent of a line with the given fields. -/
def indentOf (fields : List (String × Json)) : Nat :=
  match Json.field? fields "indent" with
  | none => 0
  | some v => indentLevel v

/-- The spaces that a level of indent stands for. -/
def indentation (level : Nat) : String :=
  String.ofList (List.replicate (2 * level) ' ')

/-- The text that a line with the given fields has, if it has any. -/
def textOf? (fields : List (String × Json)) : Option String :=
  match Json.field? fields "text" with
  | none => none
  | some .null => none
  | some (.string s) => some s
  | some v => some v.compact

/-- A line of a diagram. A line without text is empty but for its indent. -/
def diagramLine : Json → String
  | .string s => s
  | .object fields => indentation (indentOf fields) ++ (textOf? fields).getD ""
  | .null => ""
  | v => v.compact

/-- The text of a diagram that is given line by line. -/
def joinLines (lines : List Json) : String :=
  Text.join "\n" (lines.map diagramLine)

end DiagramView.Diagram
