import DiagramView.Text.Blank

/-!
# The lexis of XML

Classes of characters, and the small readers that the grammar of documents is built from. A reader
takes the place reached and gives what it read with the place behind it, or nothing when the text
is malformed there.
-/

namespace DiagramView.Markup

/-! ## Characters -/

/-- The blanks of XML. -/
def isSpace (c : Char) : Bool :=
  c == ' ' || c == '\t' || c == '\n' || c == '\r'

/-- The characters that a document may hold. -/
def isDocumentChar (c : Char) : Bool :=
  if c.toNat < 0x20 then isSpace c else c.toNat != 0xfffe && c.toNat != 0xffff

/-- The code points beyond ASCII that a name may begin with. -/
def nameStartChars : Text.CodeRanges :=
  [(0xc0, 0xd6), (0xd8, 0xf6), (0xf8, 0x2ff), (0x370, 0x37d), (0x37f, 0x1fff), (0x200c, 0x200d),
   (0x2070, 0x218f), (0x2c00, 0x2fef), (0x3001, 0xd7ff), (0xf900, 0xfdcf), (0xfdf0, 0xfffd),
   (0x10000, 0xeffff)]

/-- The code points beyond ASCII that a name may go on with besides. -/
def nameOnlyChars : Text.CodeRanges :=
  [(0xb7, 0xb7), (0x300, 0x36f), (0x203f, 0x2040)]

/-- The characters that a name may begin with. -/
def isNameStart (c : Char) : Bool :=
  c.isAlpha || c == ':' || c == '_' || nameStartChars.has c

/-- The characters of names. -/
def isNameChar (c : Char) : Bool :=
  isNameStart c || c.isDigit || c == '-' || c == '.' || nameOnlyChars.has c

/-! ## Places -/

/-- What is left of a text, and the number of characters before it. -/
structure Place where
  index : Nat
  rest : List Char
  deriving Repr

namespace Place

/-- The start of a text. -/
def start (text : List Char) : Place :=
  ⟨0, text⟩

/-- The place some characters further on. -/
def advance (p : Place) (n : Nat) : Place :=
  ⟨p.index + n, p.rest.drop n⟩

/-- Whether the given characters come next. -/
def sees (p : Place) (word : String) : Bool :=
  word.toList.isPrefixOf p.rest

/-- Reads the given characters. -/
def expect (p : Place) (word : String) : Option Place :=
  if p.sees word then some (p.advance word.length) else none

/-- Whether a blank comes next. -/
def seesSpace (p : Place) : Bool :=
  match p.rest with
  | [] => false
  | c :: _ => isSpace c

/-- Passes over the characters of a class. -/
def skipWhile (p : Place) (inside : Char → Bool) : Place :=
  p.advance (p.rest.takeWhile inside).length

/-- Passes over blanks. -/
def skipSpaces (p : Place) : Place :=
  p.skipWhile isSpace

/-- Passes over blanks, of which there has to be one. -/
def expectSpaces (p : Place) : Option Place :=
  if p.seesSpace then some p.skipSpaces else none

end Place

/-! ## Readers -/

/-- Reads characters up to where `stop` holds of what is left, or to the end. -/
def readUntil (stop : List Char → Bool) (index : Nat) : List Char → Option (List Char × Place)
  | [] => some ([], ⟨index, []⟩)
  | c :: cs =>
    if !isDocumentChar c then none
    else if stop (c :: cs) then some ([], ⟨index, c :: cs⟩)
    else
      match readUntil stop (index + 1) cs with
      | none => none
      | some (read, p) => some (c :: read, p)

/-- Reads characters up to a word that closes them, and the word. -/
def readThrough (word : String) (p : Place) : Option (List Char × Place) := do
  let (read, p) ← readUntil word.toList.isPrefixOf p.index p.rest
  let p ← p.expect word
  return (read, p)

/-- Reads a name. -/
def readName (p : Place) : Option (List Char × Place) :=
  match p.rest with
  | [] => none
  | c :: _ =>
    if isNameStart c then
      let name := p.rest.takeWhile isNameChar
      some (name, p.advance name.length)
    else none

/-- A name with the part before its colon, which is empty when there is no colon. -/
structure QName where
  space : List Char
  name : List Char
  deriving DecidableEq, Repr

/-- Whether a part of a name begins as a name does, if it begins at all. -/
def beginsAsName : List Char → Bool
  | [] => true
  | c :: _ => isNameStart c

/-- Reads a name with at most one colon. -/
def readQName (p : Place) : Option (QName × Place) :=
  let all := p.rest.takeWhile isNameChar
  let finish (space name : List Char) : Option (QName × Place) :=
    if beginsAsName space && beginsAsName name && !name.isEmpty then
      some (⟨space, name⟩, p.advance all.length)
    else none
  match Text.cutAt ':' all with
  | [name] => finish [] name
  | [space, name] => finish space name
  | _ => none

/-- Reads a quotation mark of either kind. -/
def readQuote (p : Place) : Option (Char × Place) :=
  match p.rest with
  | '\x22' :: _ => some ('\x22', p.advance 1)
  | '\x27' :: _ => some ('\x27', p.advance 1)
  | _ => none

/-- Reads a character that has to come next. -/
def expectChar (c : Char) (p : Place) : Option Place :=
  match p.rest with
  | [] => none
  | d :: _ => if c = d then some (p.advance 1) else none

/-- Reads a literal between quotation marks, whatever it holds: where it starts, and it. -/
def readLiteral (p : Place) : Option (Place × Place) := do
  let (quote, p) ← readQuote p
  let value := p.rest.takeWhile (· != quote)
  let after ← expectChar quote (p.advance value.length)
  return (⟨p.index, value⟩, after)

/-- Reads a name, an equals sign and a value between quotation marks, which holds no less-than
sign. -/
def readAttribute (p : Place) : Option ((QName × List Char) × Place) := do
  let (name, p) ← readQName p
  let p ← expectChar '=' p.skipSpaces
  let (quote, p) ← readQuote p.skipSpaces
  let stop (cs : List Char) : Bool :=
    match cs with
    | [] => true
    | c :: _ => c == quote || c == '<'
  let (value, p) ← readUntil stop p.index p.rest
  let p ← expectChar quote p
  return ((name, value), p)

/-! ## References -/

/-- What a reference stands for. -/
inductive Reference where
  | char (c : Char)
  | entity (name : List Char)
  deriving DecidableEq, Repr

/-- The value of a digit in a base up to sixteen. -/
def digitIn? (base : Nat) (c : Char) : Option Nat :=
  let value :=
    if '0' ≤ c ∧ c ≤ '9' then c.toNat - '0'.toNat
    else if 'a' ≤ c ∧ c ≤ 'f' then c.toNat - 'a'.toNat + 10
    else if 'A' ≤ c ∧ c ≤ 'F' then c.toNat - 'A'.toNat + 10
    else 16
  if value < base then some value else none

/-- The character with a number, or the replacement character where there is none. -/
def charOfNumber (n : Nat) : Char :=
  if n.isValidChar then Char.ofNat n else '\ufffd'

/-- Reads the digits of a numeric reference. The number has at most 32 bits, and stands for a
character that a document may hold. -/
def readCharNumber (base : Nat) (p : Place) : Option (Char × Place) :=
  let digits := p.rest.takeWhile fun c => (digitIn? base c).isSome
  let n := digits.foldl (fun n c => base * n + (digitIn? base c).getD 0) 0
  if digits.isEmpty || decide (UInt32.size ≤ n) || !isDocumentChar (charOfNumber n) then none
  else some (charOfNumber n, p.advance digits.length)

/-- The reference by a name: five names stand for characters. -/
def Reference.ofName (name : List Char) : Reference :=
  match String.ofList name with
  | "quot" => .char '\x22'
  | "apos" => .char '\x27'
  | "amp" => .char '&'
  | "lt" => .char '<'
  | "gt" => .char '>'
  | _ => .entity name

/-- Reads the rest of a reference whose ampersand has been read. -/
def readReference (p : Place) : Option (Reference × Place) := do
  let (reference, p) ←
    if p.sees "#x" then (readCharNumber 16 (p.advance 2)).map fun (c, p) => (.char c, p)
    else if p.sees "#" then (readCharNumber 10 (p.advance 1)).map fun (c, p) => (.char c, p)
    else (readName p).map fun (name, p) => (Reference.ofName name, p)
  let p ← expectChar ';' p
  return (reference, p)

end DiagramView.Markup
