import DiagramView.Markup.Reader
import DiagramView.Markup.StartTag

/-!
# Transparent backgrounds

Before an artifact is shown, its root element is made to fill the container without a background of
its own, and the rectangle that an engine paints behind the diagram is made transparent. At most
two start tags change.

In a well-formed artifact both tags are found in its tree. Any other artifact is scanned for start
tags, and then a rectangle counts as the root's child only when it follows the root's tag at once.
-/

namespace DiagramView.Markup

/-! ## The root's style -/

/-- The declarations that the root's style ends with. -/
def rootStyle : List (String × String) :=
  [("display", "block"), ("margin", "0"), ("padding", "0"), ("width", "100%"),
   ("height", "auto"), ("background", "transparent")]

/-- The property that a declaration sets. -/
def propertyOf (declaration : List Char) : List Char :=
  Text.trimChars (declaration.takeWhile (· != ':'))

/-- Whether a declaration sets a property that the root's style sets anyway. -/
def isOverridden (declaration : List Char) : Bool :=
  rootStyle.any fun entry => (propertyOf declaration).map Char.toLower == entry.1.toList

/-- The declarations of a style that stay. -/
def keptDeclarations (style : List Char) : List (List Char) :=
  (((Text.cutAt ';' style).map Text.trimChars).filter (!·.isEmpty)).filter (!isOverridden ·)

/-- The declarations that are added to every root's style. -/
def addedDeclarations : List (List Char) :=
  rootStyle.map fun entry => entry.1.toList ++ ':' :: entry.2.toList

/-- Declarations as a style writes them. -/
def joinDeclarations : List (List Char) → List Char
  | [] => []
  | [d] => d
  | d :: rest => d ++ ';' :: joinDeclarations rest

/-- The style that a root with the given style gets. -/
def restyled (style : List Char) : List Char :=
  joinDeclarations (keptDeclarations style ++ addedDeclarations)

/-- The root's start tag with its new style. -/
def restyleRoot (tag : List Char) : List Char :=
  setAttribute "style" (restyled ((attributeValue? "style" tag).getD [])) tag

/-- A rectangle's start tag without paint. -/
def clearRect (tag : List Char) : List Char :=
  setAttribute "stroke" "transparent".toList (setAttribute "fill" "transparent".toList tag)

/-! ## Finding the tags -/

/-- A start tag in a text, with the number of characters before it. -/
structure LocatedTag where
  start : Nat
  tag : List Char
  deriving Repr

/-- The number of characters up to the end of a tag. -/
def LocatedTag.stop (t : LocatedTag) : Nat :=
  t.start + t.tag.length

/-- The tags that change. -/
structure Located where
  root : LocatedTag
  rect : Option LocatedTag
  deriving Repr

/-- Whether one of a class attribute's words is `background`. -/
def namesBackground (classes : List Char) : Bool :=
  (Text.wordsOf classes).any (· == "background".toList)

/-- Whether a class attribute mentions `background` anywhere. -/
def mentionsBackground (classes : List Char) : Bool :=
  Text.occursIn "background".toList classes

/-- The start tag of an element at an index of a text. -/
def startTagAt (name : String) (markup : List Char) (index : Nat) : Option LocatedTag :=
  (startTag? name (markup.drop index)).map (LocatedTag.mk index)

/-- The background rectangle below a root: the first whose classes name it, else the first whose
classes mention it, else the first that is a child of an `svg` element. -/
def backgroundRect? (root : Node) : Option Node :=
  let rects := (root.walk none).filter fun (_, node) => node.hasName "rect"
  let byClass (p : List Char → Bool) : Option (Option Node × Node) :=
    rects.find? fun (_, node) =>
      match node.attribute? "class" with
      | none => false
      | some classes => p classes
  let isChild (entry : Option Node × Node) : Bool :=
    match entry.1 with
    | none => false
    | some parent => parent.hasName "svg"
  ((byClass namesBackground).or ((byClass mentionsBackground).or (rects.find? isChild))).map (·.2)

/-- Finds the tags in the tree of a document. -/
def locateInDocument (d : Document) (markup : List Char) : Option Located := do
  let root ← d.root?
  if !root.hasName "svg" then none
  else
    let rootTag ← startTagAt "svg" markup (← root.start?)
    let rect := do
      let rect ← backgroundRect? root
      startTagAt "rect" markup (← rect.start?)
    return ⟨rootTag, rect⟩

/-- Finds the tags by scanning for start tags. -/
def locateByScan (markup : List Char) : Option Located :=
  match startTags "svg" markup with
  | [] => none
  | (start, tag) :: _ =>
    let root : LocatedTag := ⟨start, tag⟩
    let rest := markup.drop root.stop
    let rects := startTags "rect" rest
    let byClass (p : List Char → Bool) : Option (Nat × List Char) :=
      rects.find? fun (_, tag) =>
        match attributeValue? "class" tag with
        | none => false
        | some classes => p classes
    let firstChild := rects.head?.filter fun (start, _) =>
      start == rest.length - (Text.dropBlanks rest).length
    let rect := (byClass namesBackground).or ((byClass mentionsBackground).or firstChild)
    some ⟨root, rect.map fun (start, tag) => ⟨root.stop + start, tag⟩⟩

/-! ## Editing -/

/-- A text with the two tags replaced. There is none when the rectangle starts before the root's
tag ends, which happens only where an entity holds it. -/
def editTags (markup : List Char) (l : Located) : Option (List Char) :=
  let head := markup.take l.root.start ++ restyleRoot l.root.tag
  match l.rect with
  | none => some (head ++ markup.drop l.root.stop)
  | some rect =>
    if l.root.stop ≤ rect.start then
      some (head ++ (markup.drop l.root.stop).take (rect.start - l.root.stop) ++
        clearRect rect.tag ++ markup.drop rect.stop)
    else none

/-- An artifact with a transparent background. -/
structure Neutralized where
  /-- The edited markup; there is none when the tags cannot be edited in order. -/
  markup : Option String
  /-- Whether the artifact was well-formed. -/
  wellFormed : Bool
  deriving Repr

/-- Edits the tags that were located, if any were. -/
def editLocated (markup : List Char) (located : Option Located) : Option String :=
  match located with
  | none => some (String.ofList markup)
  | some l => (editTags markup l).map String.ofList

/-- Makes the background of an artifact transparent. -/
def neutralize (markup : String) : Neutralized :=
  let cs := markup.toList
  match readDocument cs with
  | .ok d => ⟨editLocated cs (locateInDocument d cs), true⟩
  | .error .malformed => ⟨editLocated cs (locateByScan cs), false⟩
  | .error .overclosed => ⟨none, true⟩

end DiagramView.Markup
