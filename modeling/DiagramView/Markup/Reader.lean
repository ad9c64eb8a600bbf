import DiagramView.Markup.Document

/-!
# Reading documents

A document is a declaration, a document type with the entities it declares, and one element, with
comments and instructions between. References to entities are followed at most ten deep, and at
most 255 of them inside one another reference; an entity's text is read as content of the element
around the reference.
-/

namespace DiagramView.Markup

/-- How deep references to entities may be followed. -/
def maxEntityDepth : Nat := 10

/-- How many references may be followed inside a reference. -/
def maxReferences : Nat := 255

/-- What a reader needs, or the document is malformed. -/
def need {α : Type} (result : Option α) : Except Fault α :=
  match result with
  | some x => .ok x
  | none => .error .malformed

/-- Counts a reference. Those outside any other reference are not counted. -/
def countReference (left references : Nat) : Except Fault Nat :=
  if left = maxEntityDepth then .ok references
  else if references = maxReferences then .error .malformed
  else .ok (references + 1)

/-- The count behind a reference that was followed. -/
def settleReference (left references : Nat) : Nat :=
  if left = maxEntityDepth then 0 else references

/-! ## Values of attributes -/

/-- A character of a value: every blank becomes a space, and a line ends in one blank. -/
def valueChar (c : Char) (next : List Char) : List Char :=
  if c = '\r' ∧ next.head? = some '\n' then []
  else if isSpace c then [' ']
  else [c]

/-- A character that a reference in a value stands for. Inside an entity it may not be a less-than
sign. -/
def referencedChar (left : Nat) (c : Char) : Except Fault (List Char) :=
  if left = maxEntityDepth then .ok [c]
  else if c = '<' then .error .malformed
  else .ok (valueChar c [])

/-- Reads a value, following its references; `nested` reads the values of entities. -/
def readValueWith (b : Builder) (left : Nat)
    (nested : List Char → Nat → Except Fault (List Char × Nat)) :
    Nat → Nat → Place → Except Fault (List Char × Nat)
  | 0, references, _ => .ok ([], references)
  | bound + 1, references, p =>
    match p.rest with
    | [] => .ok ([], references)
    | '&' :: _ => do
      let (reference, p) ← need (readReference (p.advance 1))
      match reference with
      | .char c =>
        let read ← referencedChar left c
        let (more, references) ← readValueWith b left nested bound references p
        return (read ++ more, references)
      | .entity name =>
        let value ← need (b.entity? name)
        let references ← countReference left references
        let (read, references) ← nested value.rest references
        let (more, references) ←
          readValueWith b left nested bound (settleReference left references) p
        return (read ++ more, references)
    | c :: cs => do
      let (more, references) ← readValueWith b left nested bound references (p.advance 1)
      return (valueChar c cs ++ more, references)

/-- Reads a value where references may be followed `left` more levels deep. -/
def readValue (b : Builder) : Nat → List Char → Nat → Except Fault (List Char × Nat)
  | 0, value, references =>
    readValueWith b 0 (fun _ _ => .error .malformed) value.length references ⟨0, value⟩
  | left + 1, value, references =>
    readValueWith b (left + 1) (readValue b left) value.length references ⟨0, value⟩

/-! ## Tags -/

/-- How a start tag ends. -/
inductive TagEnd where
  | opened
  | closed
  /-- The text ends inside the tag. -/
  | missing
  deriving DecidableEq, Repr

/-- Reads the attributes and the end of a start tag. -/
def readTagEnd (left : Nat) : Nat → Place → Builder → Except Fault (TagEnd × Place × Builder)
  | 0, p, b => .ok (.missing, p, b)
  | bound + 1, p, b =>
    if p.rest.isEmpty then .ok (.missing, p, b)
    else
      let q := p.skipSpaces
      match q.rest with
      | [] => .error .malformed
      | '/' :: _ => do
        let q ← need (q.expect "/>")
        return (.closed, q, ← b.endTag true)
      | '>' :: _ => do return (.opened, q.advance 1, ← b.endTag false)
      | _ =>
        if !p.seesSpace then .error .malformed
        else do
          let ((name, value), q) ← need (readAttribute q)
          let (value, references) ← readValue b left value b.references
          let b ← { b with references }.addAttribute name value
          readTagEnd left bound q b

/-- Reads a start tag, which has no more attributes than `bound`. -/
def readStartTag (left bound : Nat) (p : Place) (b : Builder) :
    Except Fault (TagEnd × Place × Builder) := do
  let (name, q) ← need (readQName (p.advance 1))
  let b ← b.beginTag p.index name
  readTagEnd left bound q b

/-- Reads an end tag. -/
def readEndTag (p : Place) (b : Builder) : Except Fault (Place × Builder) := do
  let (name, p) ← need (readQName (p.advance 2))
  let p ← need (expectChar '>' p.skipSpaces)
  return (p, ← b.closeTag name)

/-! ## Comments, instructions and sections -/

/-- Whether a comment holds two hyphens in a row or ends with one. -/
def isBadComment (content : List Char) : Bool :=
  Text.occursIn ['-', '-'] content || content.getLast? == some '-'

/-- Reads a comment. -/
def readComment (p : Place) (b : Builder) : Except Fault (Place × Builder) := do
  let (content, p) ← need (readThrough "-->" (p.advance 4))
  if isBadComment content then .error .malformed
  else return (p, b.append (.comment content))

/-- Reads a processing instruction. -/
def readInstruction (p : Place) (b : Builder) : Except Fault (Place × Builder) := do
  if p.sees "<?xml " then .error .malformed
  else
    let (target, p) ← need (readName (p.advance 2))
    let (content, p) ← need (readThrough "?>" p.skipSpaces)
    return (p, b.append (.instruction target content))

/-- Reads a section of character data. -/
def readSection (p : Place) (b : Builder) : Except Fault (Place × Builder) := do
  let (content, p) ← need (readThrough "]]>" (p.advance 9))
  return (p, b.appendText content)

/-! ## Text -/

/-- Reads the references in a text; `nested` reads the text of an entity as content. The characters
read since the last entity are in reverse order. -/
def readTextWith (left : Nat) (nested : Place → Builder → Except Fault Builder) :
    Nat → List Char → Place → Builder → Except Fault Builder
  | 0, read, _, b => .ok (b.appendText read.reverse)
  | bound + 1, read, p, b =>
    match p.rest with
    | [] => .ok (b.appendText read.reverse)
    | '&' :: _ => do
      let (reference, p) ← need (readReference (p.advance 1))
      match reference with
      | .char c => readTextWith left nested bound (c :: read) p b
      | .entity name =>
        let value ← need (b.entity? name)
        let references ← countReference left b.references
        let b := { b.appendText read.reverse with references }
        let after ← nested value { b with tag := none }
        readTextWith left nested bound [] p
          { after with tag := b.tag, references := settleReference left after.references }
    | '\r' :: '\n' :: _ => readTextWith left nested bound read (p.advance 1) b
    | '\r' :: _ => readTextWith left nested bound ('\n' :: read) (p.advance 1) b
    | c :: _ => readTextWith left nested bound (c :: read) (p.advance 1) b

/-- Whether a less-than sign comes next. -/
def seesTag : List Char → Bool
  | '<' :: _ => true
  | _ => false

/-- Reads a text up to the next tag. -/
def readText (left : Nat) (nested : Place → Builder → Except Fault Builder) (p : Place)
    (b : Builder) : Except Fault (Place × Builder) := do
  let (content, q) ← need (readUntil seesTag p.index p.rest)
  if Text.occursIn "]]>".toList content then .error .malformed
  else
    let b ← readTextWith left nested content.length [] ⟨p.index, content⟩ b
    return (q, b)

/-! ## Content -/

/-- Reads content up to the end tag that closes the outermost of `levels` levels, or to the end of
the text. -/
def readContentWith (left : Nat) (nested : Place → Builder → Except Fault Builder) :
    Nat → Nat → Place → Builder → Except Fault (Place × Builder)
  | 0, _, p, b => .ok (p, b)
  | bound + 1, levels, p, b => do
    match p.rest with
    | [] => return (p, b)
    | '<' :: '!' :: _ =>
      let (p, b) ←
        if p.sees "<!--" then readComment p b
        else if p.sees "<![CDATA[" then readSection p b
        else .error .malformed
      readContentWith left nested bound levels p b
    | '<' :: '?' :: _ =>
      let (p, b) ← readInstruction p b
      readContentWith left nested bound levels p b
    | '<' :: '/' :: _ =>
      let (p, b) ← readEndTag p b
      if levels ≤ 1 then return (p, b)
      else readContentWith left nested bound (levels - 1) p b
    | ['<'] => .error .malformed
    | '<' :: _ =>
      let (tagEnd, p, b) ← readStartTag left bound p b
      readContentWith left nested bound (if tagEnd = .opened then levels + 1 else levels) p b
    | _ =>
      let (p, b) ← readText left nested p b
      readContentWith left nested bound levels p b

/-- Reads content where references may be followed `left` more levels deep. -/
def readContent : Nat → Place → Builder → Except Fault (Place × Builder)
  | 0, p, b => readContentWith 0 (fun _ _ => .error .malformed) (p.rest.length + 1) 1 p b
  | left + 1, p, b =>
    readContentWith (left + 1) (fun value b => (readContent left value b).map (·.2))
      (p.rest.length + 1) 1 p b

/-- Reads the root element. -/
def readElement (p : Place) (b : Builder) : Except Fault (Place × Builder) := do
  let (tagEnd, p, b) ← readStartTag maxEntityDepth p.rest.length p b
  if tagEnd = .opened then readContent maxEntityDepth p b else return (p, b)

/-! ## The prolog -/

/-- Passes over blanks in the declaration, which may only be missing before its end. -/
def declarationSpaces (p : Place) : Option Place :=
  if p.seesSpace then some p.skipSpaces
  else if p.sees "?>" || p.rest.isEmpty then some p
  else none

/-- Passes over the XML declaration: a version, perhaps an encoding, perhaps a standalone mark. -/
def skipDeclaration (p : Place) : Option Place := do
  let p ← declarationSpaces (p.advance 5)
  if !p.sees "version" then none
  else
    let (_, p) ← readAttribute p
    let p ← declarationSpaces p
    let p ←
      if p.sees "encoding" then do
        let (_, p) ← readAttribute p
        declarationSpaces p
      else some p
    let p ←
      if p.sees "standalone" then do
        let (_, p) ← readAttribute p
        some p
      else some p
    p.skipSpaces.expect "?>"

/-- Reads comments, instructions and blanks. -/
def readMisc : Nat → Place → Builder → Except Fault (Place × Builder)
  | 0, p, b => .ok (p, b)
  | bound + 1, p, b => do
    let p := p.skipSpaces
    if p.sees "<!--" then
      let (p, b) ← readComment p b
      readMisc bound p b
    else if p.sees "<?" then
      let (p, b) ← readInstruction p b
      readMisc bound p b
    else return (p, b)

/-- Passes over an external id when there is one: whether there is, and the place behind it. -/
def skipExternalId (p : Place) : Option (Bool × Place) :=
  if p.sees "SYSTEM" then do
    let (_, p) ← readLiteral (← (p.advance 6).expectSpaces)
    return (true, p)
  else if p.sees "PUBLIC" then do
    let (_, p) ← readLiteral (← (p.advance 6).expectSpaces)
    let (_, p) ← readLiteral (← p.expectSpaces)
    return (true, p)
  else some (false, p)

/-- Reads what an entity stands for: a value, or an external id, which is passed over. -/
def readEntityValue (general : Bool) (p : Place) : Option (Option Place × Place) :=
  match p.rest with
  | '\x22' :: _ | '\x27' :: _ => do
    let (value, p) ← readLiteral p
    return (some value, p)
  | _ => do
    let (found, p) ← skipExternalId p
    if !found then none
    else if general && p.skipSpaces.sees "NDATA" then
      let (_, p) ← readName (← (p.skipSpaces.advance 5).expectSpaces)
      return (none, p)
    else return (none, p)

/-- Reads the declaration of an entity. -/
def readEntity (p : Place) (b : Builder) : Option (Place × Builder) := do
  let p ← (p.advance 8).expectSpaces
  let general := !p.sees "%"
  let p ← if general then some p else (p.advance 1).expectSpaces
  let (name, p) ← readName p
  let p ← p.expectSpaces
  let (value, p) ← readEntityValue general p
  let p ← expectChar '>' p.skipSpaces
  return (p, match value with
    | none => b
    | some value => b.declare name value)

/-- Passes over a declaration of no interest. -/
def skipMarkupDeclaration (p : Place) : Option Place :=
  expectChar '>' (p.skipWhile (· != '>'))

/-- Reads the declarations of a document type, up to its end. -/
def readSubset : Nat → Place → Builder → Except Fault (Place × Builder)
  | 0, p, b => .ok (p, b)
  | bound + 1, p, b => do
    if p.rest.isEmpty then return (p, b)
    else
      let p := p.skipSpaces
      if p.sees "<!ENTITY" then
        let (p, b) ← need (readEntity p b)
        readSubset bound p b
      else if p.sees "<!--" then
        let (p, b) ← readComment p b
        readSubset bound p b
      else if p.sees "<?" then
        let (p, b) ← readInstruction p b
        readSubset bound p b
      else if p.sees "]" then
        let p ← need (expectChar '>' (p.advance 1).skipSpaces)
        return (p, b)
      else if p.sees "<!ELEMENT" || p.sees "<!ATTLIST" || p.sees "<!NOTATION" then
        let p ← need (skipMarkupDeclaration p)
        readSubset bound p b
      else .error .malformed

/-- Reads a document type. -/
def readDoctype (p : Place) (b : Builder) : Except Fault (Place × Builder) := do
  let p ← need (p.advance 9).expectSpaces
  let (_, p) ← need (readName p)
  let (_, p) ← need (skipExternalId p.skipSpaces)
  let p := p.skipSpaces
  match p.rest with
  | '>' :: _ => return (p.advance 1, b)
  | '[' :: _ => readSubset (p.rest.length + 1) (p.advance 1) b
  | _ => .error .malformed

/-! ## Documents -/

/-- Reads the document type when there is one, and what may follow it. -/
def readOptionalDoctype (p : Place) (b : Builder) : Except Fault (Place × Builder) := do
  let p := p.skipSpaces
  if p.sees "<!DOCTYPE" then
    let (p, b) ← readDoctype p b
    readMisc (p.rest.length + 1) p b
  else return (p, b)

/-- Reads a whole document. -/
def readDocument (markup : List Char) : Except Fault Document := do
  let p := Place.start markup
  let p := if p.sees "\ufeff" then p.advance 1 else p
  let p ← if p.sees "<?xml " then need (skipDeclaration p) else pure p
  let (p, b) ← readMisc (p.rest.length + 1) p {}
  let (p, b) ← readOptionalDoctype p b
  let p := p.skipSpaces
  let (p, b) ← if seesTag p.rest then readElement p b else pure (p, b)
  let (p, b) ← readMisc (p.rest.length + 1) p b
  if p.rest.isEmpty then b.document else .error .malformed

end DiagramView.Markup
