import DiagramView.Text.WordChar

/-!
# Start tags as text

An artifact is edited tag by tag and character by character, so that all else in it stays as it is.
A start tag runs from its less-than sign to the next greater-than sign. Its attributes are found
where a blank, a name, an equals sign and a quoted value follow one another, and setting one
replaces just that stretch.
-/

namespace DiagramView.Markup

/-- A text up to the first occurrence of a character, and the text behind that. -/
def splitAtChar (mark : Char) : List Char → Option (List Char × List Char)
  | [] => none
  | c :: cs =>
    if c = mark then some ([], cs)
    else
      match splitAtChar mark cs with
      | none => none
      | some (before, after) => some (c :: before, after)

/-- The start tag of an element that stands at the head of a text: its name ends there, and the tag
ends with the first greater-than sign. -/
def startTag? (name : String) (text : List Char) : Option (List Char) :=
  let opening := '<' :: name.toList
  let body := text.drop opening.length
  if opening.isPrefixOf text && !Text.continuesWord body then
    match splitAtChar '>' body with
    | none => none
    | some (inner, _) => some (opening ++ inner ++ ['>'])
  else none

/-- The start tags of an element in a text, with the number of characters before each, none inside
another. The second counter is the number of characters still covered by the tag found last. -/
def startTagsFrom (name : String) (index : Nat) : Nat → List Char → List (Nat × List Char)
  | _, [] => []
  | k + 1, _ :: cs => startTagsFrom name (index + 1) k cs
  | 0, c :: cs =>
    match startTag? name (c :: cs) with
    | none => startTagsFrom name (index + 1) 0 cs
    | some tag => (index, tag) :: startTagsFrom name (index + 1) (tag.length - 1) cs

/-- The start tags of an element in a text, with the number of characters before each. -/
def startTags (name : String) (text : List Char) : List (Nat × List Char) :=
  startTagsFrom name 0 0 text

/-! ## Attributes -/

/-- A value between quotation marks of either kind, and the text behind it. -/
def quotedValue? : List Char → Option (List Char × List Char)
  | '\x22' :: cs => splitAtChar '\x22' cs
  | '\x27' :: cs => splitAtChar '\x27' cs
  | _ => none

/-- The value of an attribute that stands at the head of a text behind a blank, and the text behind
it. -/
def attributeHead? (name : String) : List Char → Option (List Char × List Char)
  | [] => none
  | c :: cs =>
    if Text.isBlank c && name.toList.isPrefixOf cs then
      match Text.dropBlanks (cs.drop name.length) with
      | '=' :: rest => quotedValue? (Text.dropBlanks rest)
      | _ => none
    else none

/-- An attribute found in a tag: what stands before it, its value, and what stands behind it. -/
structure FoundAttribute where
  before : List Char
  value : List Char
  after : List Char
  deriving Repr

/-- Finds the first occurrence of an attribute. -/
def findAttribute? (name : String) : List Char → Option FoundAttribute
  | [] => none
  | c :: cs =>
    match attributeHead? name (c :: cs) with
    | some (value, after) => some ⟨[], value, after⟩
    | none =>
      match findAttribute? name cs with
      | none => none
      | some found => some { found with before := c :: found.before }

/-- The value of an attribute of a tag, as it is written. -/
def attributeValue? (name : String) (tag : List Char) : Option (List Char) :=
  (findAttribute? name tag).map (·.value)

/-- An attribute as it is written into a tag. -/
def writtenAttribute (name : String) (value : List Char) : List Char :=
  ' ' :: name.toList ++ '=' :: '\x22' :: value ++ ['\x22']

/-- The end of a tag: the last two characters when they are a slash and a greater-than sign, else
the last one. -/
def tagEndLength (tag : List Char) : Nat :=
  if ['>', '/'].isPrefixOf tag.reverse then 2 else 1

/-- Sets an attribute of a tag: in place when the tag has it, before the end of the tag
otherwise. -/
def setAttribute (name : String) (value : List Char) (tag : List Char) : List Char :=
  match findAttribute? name tag with
  | some found => found.before ++ writtenAttribute name value ++ found.after
  | none =>
    let close := tag.length - tagEndLength tag
    Text.dropTrailingBlanks (tag.take close) ++ writtenAttribute name value ++ tag.drop close

end DiagramView.Markup
