import DiagramView.Markup.Lexis

/-!
# Documents

A document is a list of nodes, of which the first element is its root. While a document is read, a
builder holds the elements that are still open, innermost first, each with the nodes read into it
so far.

Names are resolved against the namespaces in scope. A builder accepts an end tag only when it
matches the innermost open element, and an element only when its name and its attributes have known
namespaces and no attribute occurs twice.
-/

namespace DiagramView.Markup

/-- A name and the namespace it belongs to, if any. -/
structure ExpandedName where
  uri : Option (List Char)
  name : List Char
  deriving DecidableEq, Repr

/-- An attribute of an element. -/
structure Attribute where
  name : ExpandedName
  value : List Char
  deriving DecidableEq, Repr

/-- A node of a document. An element knows the index of its less-than sign. -/
inductive Node where
  | element (start : Nat) (name : ExpandedName) (attributes : List Attribute)
      (children : List Node)
  | text (content : List Char)
  | comment (content : List Char)
  | instruction (target content : List Char)
  deriving Inhabited

namespace Node

/-- Whether a node is an element with the given name, in whatever namespace. -/
def hasName (name : String) : Node → Bool
  | .element _ n _ _ => n.name == name.toList
  | _ => false

/-- The value of an attribute without namespace. -/
def attribute? (name : String) : Node → Option (List Char)
  | .element _ _ attributes _ =>
    (attributes.find? fun a => a.name == ⟨none, name.toList⟩).map (·.value)
  | _ => none

/-- The index at which an element starts. -/
def start? : Node → Option Nat
  | .element start _ _ _ => some start
  | _ => none

mutual

/-- The nodes of a tree with their parents, in the order in which they start. -/
def walk (parent : Option Node) : Node → List (Option Node × Node)
  | .element start name attributes children =>
    (parent, .element start name attributes children) ::
      walkAll (some (.element start name attributes children)) children
  | node => [(parent, node)]

/-- The nodes of several trees with their parents, in the order in which they start. -/
def walkAll (parent : Option Node) : List Node → List (Option Node × Node)
  | [] => []
  | node :: rest => walk parent node ++ walkAll parent rest

end

end Node

/-- A document that was read. -/
structure Document where
  nodes : List Node

/-- The root element of a document. -/
def Document.root? (d : Document) : Option Node :=
  d.nodes.find? fun node => node.start?.isSome

/-! ## Namespaces -/

/-- Namespaces in scope, each under the name before the colon that stands for it; `none` is for
names without colon. The first entry for a name counts. -/
abbrev Scope := List (Option (List Char) × List Char)

/-- The namespace that a name is bound to. -/
def Scope.find (s : Scope) (space : Option (List Char)) : Option (List Char) :=
  (s.find? fun entry => entry.1 == space).map (·.2)

/-- Whether a name is bound. -/
def Scope.binds (s : Scope) (space : Option (List Char)) : Bool :=
  s.any fun entry => entry.1 == space

/-- The scope inside an element that declares some namespaces. -/
def Scope.extend (outer declared : Scope) : Scope :=
  if declared.isEmpty then outer
  else declared ++ outer.filter fun entry => !Scope.binds declared entry.1

/-- The part before the colon as a scope knows it. -/
def spaceKey (space : List Char) : Option (List Char) :=
  if space.isEmpty then none else some space

/-- The namespace of `xml:` names. -/
def xmlUri : List Char := "http://www.w3.org/XML/1998/namespace".toList

/-- The namespace of `xmlns:` names, to which nothing may be bound. -/
def xmlnsUri : List Char := "http://www.w3.org/2000/xmlns/".toList

/-- Resolves the name of an element. Without a colon it may have no namespace, with one it has to
have one. -/
def Scope.resolve (s : Scope) (name : QName) : Option ExpandedName :=
  match s.find (spaceKey name.space) with
  | some uri => some ⟨some uri, name.name⟩
  | none => if name.space.isEmpty then some ⟨none, name.name⟩ else none

/-- Resolves the name of an attribute. Without a colon it has no namespace. -/
def Scope.resolveAttribute (s : Scope) (name : QName) : Option ExpandedName :=
  if name.space = "xml".toList then some ⟨some xmlUri, name.name⟩
  else if name.space.isEmpty then some ⟨none, name.name⟩
  else s.resolve name

/-- Resolves attributes, no two of which may have the same name. -/
def Scope.resolveAttributes (s : Scope) :
    List (QName × List Char) → List Attribute → Option (List Attribute)
  | [], done => some done.reverse
  | (name, value) :: rest, done =>
    match s.resolveAttribute name with
    | none => none
    | some name =>
      if done.any fun a => a.name == name then none
      else s.resolveAttributes rest (⟨name, value⟩ :: done)

/-! ## Building -/

/-- A start tag of which the name has been read. -/
structure PendingTag where
  start : Nat
  name : QName
  deriving Repr

/-- An element that is still open. Its children are in reverse order. -/
structure OpenElement where
  tag : PendingTag
  name : ExpandedName
  attributes : List Attribute
  scope : Scope
  children : List Node

/-- An entity that the document declares: where its value starts, and the value. -/
structure Entity where
  name : List Char
  value : Place

/-- What has been read of a document. The nodes outside its root are in reverse order. -/
structure Builder where
  entities : List Entity := []
  /-- The start tag read last, unless nothing has been read but the text of an entity. -/
  tag : Option PendingTag := none
  /-- The attributes and the namespace declarations of a start tag that has no end yet. -/
  attributes : List (QName × List Char) := []
  declared : Scope := []
  opened : List OpenElement := []
  nodes : List Node := []
  /-- The number of references followed inside the reference that is being followed. -/
  references : Nat := 0

/-- Why a document is refused. -/
inductive Fault where
  | malformed
  /-- An end tag behind the end of the root, which the text of an entity closed. -/
  | overclosed
  deriving DecidableEq, Repr

namespace Builder

/-- The value of an entity; the first declaration of a name counts. -/
def entity? (b : Builder) (name : List Char) : Option Place :=
  (b.entities.find? fun e => e.name == name).map (·.value)

/-- Declares an entity. -/
def declare (b : Builder) (name : List Char) (value : Place) : Builder :=
  { b with entities := b.entities ++ [⟨name, value⟩] }

/-- Appends a node to the innermost open element. -/
def append (b : Builder) (node : Node) : Builder :=
  match b.opened with
  | [] => { b with nodes := node :: b.nodes }
  | e :: outer => { b with opened := { e with children := node :: e.children } :: outer }

/-- Joins a text to the text that comes last among some nodes in reverse order. -/
def joinText (content : List Char) : List Node → List Node
  | .text before :: rest => .text (before ++ content) :: rest
  | nodes => .text content :: nodes

/-- Appends a text, joined to a text before it. -/
def appendText (b : Builder) (content : List Char) : Builder :=
  if content.isEmpty then b
  else
    match b.opened with
    | [] => { b with nodes := joinText content b.nodes }
    | e :: outer => { b with opened := { e with children := joinText content e.children } :: outer }

/-- Begins a start tag. -/
def beginTag (b : Builder) (start : Nat) (name : QName) : Except Fault Builder :=
  if name.space = "xmlns".toList then .error .malformed
  else .ok { b with tag := some ⟨start, name⟩ }

/-- Takes in an attribute with its final value; declarations of namespaces are kept apart. -/
def addAttribute (b : Builder) (name : QName) (value : List Char) : Except Fault Builder :=
  if name.space = "xmlns".toList then
    let bindsXml := decide (value = xmlUri)
    if value = xmlnsUri then .error .malformed
    else if (name.name = "xml".toList) != bindsXml then .error .malformed
    else if Scope.binds b.declared (some name.name) then .error .malformed
    else if bindsXml then .ok b
    else .ok { b with declared := b.declared ++ [(some name.name, value)] }
  else if name.name = "xmlns".toList then
    if value = xmlUri ∨ value = xmlnsUri then .error .malformed
    else .ok { b with declared := b.declared ++ [(none, value)] }
  else .ok { b with attributes := b.attributes ++ [(name, value)] }

/-- The scope of the innermost open element. -/
def outerScope (b : Builder) : Scope :=
  match b.opened with
  | [] => []
  | e :: _ => e.scope

/-- Resolves the declarations and attributes of the tag that ends here, and forgets them. -/
def resolveTag (b : Builder) : Except Fault (Scope × List Attribute × Builder) :=
  let scope := b.outerScope.extend b.declared
  match scope.resolveAttributes b.attributes [] with
  | none => .error .malformed
  | some attributes => .ok (scope, attributes, { b with attributes := [], declared := [] })

/-- Ends a start tag; `closed` says that it is an empty element's. -/
def endTag (b : Builder) (closed : Bool) : Except Fault Builder := do
  match b.tag with
  | none => .error .malformed
  | some tag =>
    let (scope, attributes, b) ← b.resolveTag
    match scope.resolve tag.name with
    | none => .error .malformed
    | some name =>
      if closed then .ok (b.append (.element tag.start name attributes []))
      else .ok { b with opened := ⟨tag, name, attributes, scope, []⟩ :: b.opened }

/-- The node that an open element becomes. -/
def finish (e : OpenElement) : Node :=
  .element e.tag.start e.name e.attributes e.children.reverse

/-- Takes in an end tag. Right behind the start of an entity's text it closes nothing. -/
def closeTag (b : Builder) (name : QName) : Except Fault Builder := do
  match b.tag with
  | none => .error .malformed
  | some _ =>
    let (_, _, b) ← b.resolveTag
    match b.opened with
    | [] => .error .overclosed
    | e :: outer =>
      if e.tag.name = name then .ok ({ b with opened := outer }.append (finish e))
      else .error .malformed

/-- The document, when every element is closed and there is one. -/
def document (b : Builder) : Except Fault Document :=
  let d : Document := ⟨b.nodes.reverse⟩
  if b.opened.isEmpty && d.root?.isSome then .ok d else .error .malformed

end Builder

end DiagramView.Markup
