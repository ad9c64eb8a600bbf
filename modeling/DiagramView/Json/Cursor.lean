import DiagramView.Json.Failure

/-!
# Reading from left to right

A cursor is the part of a text that is still to be read, with the number of bytes before it. Every
reader takes a cursor and gives a value and the cursor behind it, or a failure.
-/

namespace DiagramView.Json

/-- What is left of a text, and the number of bytes read before it. -/
structure Cursor where
  offset : Nat
  rest : List Char
  deriving DecidableEq, Repr

namespace Cursor

/-- The cursor at the start of a text. -/
def start (text : String) : Cursor :=
  ⟨0, text.toList⟩

/-- The cursor behind a character. -/
def past (cur : Cursor) (c : Char) (rest : List Char) : Cursor :=
  ⟨cur.offset + c.utf8Size, rest⟩

/-- Fails at the place reached. -/
def fail {α : Type} (cur : Cursor) (cause : Cause) : Except Failure α :=
  .error ⟨cause, cur.offset⟩

/-- Fails at the byte that comes next, which is the place reached when there is none. -/
def failAhead {α : Type} (cur : Cursor) (cause : Cause) : Except Failure α :=
  .error ⟨cause, if cur.rest.isEmpty then cur.offset else cur.offset + 1⟩

end Cursor

/-- The blanks between the parts of a JSON text. -/
def isSpace (c : Char) : Bool :=
  c == ' ' || c == '\n' || c == '\t' || c == '\r'

/-- Skips blanks; each of them is one byte. -/
def skipSpacesFrom (offset : Nat) : List Char → Cursor
  | [] => ⟨offset, []⟩
  | c :: cs => if isSpace c then skipSpacesFrom (offset + 1) cs else ⟨offset, c :: cs⟩

/-- The cursor behind the blanks that come next. -/
def Cursor.skipSpaces (cur : Cursor) : Cursor :=
  skipSpacesFrom cur.offset cur.rest

/-- Reads the given letters. -/
def readLetters : List Char → Cursor → Except Failure Cursor
  | [], cur => .ok cur
  | expected :: more, cur =>
    match cur.rest with
    | [] => cur.fail .valueMissing
    | c :: cs =>
      if c = expected then readLetters more (cur.past c cs)
      else .error ⟨.identExpected, cur.offset + 1⟩

/-! ## Strings -/

/-- The value of a hexadecimal digit. -/
def hexValue? (c : Char) : Option Nat :=
  if '0' ≤ c ∧ c ≤ '9' then some (c.toNat - '0'.toNat)
  else if 'a' ≤ c ∧ c ≤ 'f' then some (c.toNat - 'a'.toNat + 10)
  else if 'A' ≤ c ∧ c ≤ 'F' then some (c.toNat - 'A'.toNat + 10)
  else none

/-- Reads four hexadecimal digits. Four bytes are taken before they are looked at, so malformed
digits are reported behind them. -/
def readHex (cur : Cursor) : Except Failure (Nat × Cursor) :=
  let tooShort : Except Failure (Nat × Cursor) :=
    .error ⟨.stringUnfinished, cur.offset + Text.byteSize cur.rest⟩
  let malformed : Except Failure (Nat × Cursor) := .error ⟨.badEscape, cur.offset + 4⟩
  match cur.rest with
  | a :: b :: c :: d :: rest =>
    match hexValue? a, hexValue? b, hexValue? c, hexValue? d with
    | some w, some x, some y, some z =>
      .ok (((w * 16 + x) * 16 + y) * 16 + z, ⟨cur.offset + 4, rest⟩)
    | _, _, _, _ => malformed
  | short => if Text.byteSize short < 4 then tooShort else malformed

/-- The first half of a surrogate pair. -/
def isLeadingSurrogate (n : Nat) : Bool :=
  decide (0xd800 ≤ n) && decide (n ≤ 0xdbff)

/-- The second half of a surrogate pair. -/
def isTrailingSurrogate (n : Nat) : Bool :=
  decide (0xdc00 ≤ n) && decide (n ≤ 0xdfff)

/-- Reads one given character of a surrogate pair's second escape. -/
def readPairMark (expected : Char) (cur : Cursor) : Except Failure Cursor :=
  match cur.rest with
  | [] => cur.fail .stringUnfinished
  | c :: cs =>
    if c = expected then .ok (cur.past c cs) else .error ⟨.hexEscapeUnfinished, cur.offset + 1⟩

/-- Reads the digits of a numeric escape, and the escape of the other half when they name the first
half of a surrogate pair. -/
def readUnicodeEscape (cur : Cursor) : Except Failure (Char × Cursor) := do
  let (n, cur) ← readHex cur
  if isTrailingSurrogate n then cur.fail .loneSurrogate
  else if isLeadingSurrogate n then
    let cur ← readPairMark '\\' cur
    let cur ← readPairMark 'u' cur
    let (m, cur) ← readHex cur
    if isTrailingSurrogate m then
      .ok (Char.ofNat (0x10000 + (n - 0xd800) * 0x400 + (m - 0xdc00)), cur)
    else cur.fail .loneSurrogate
  else .ok (Char.ofNat n, cur)

/-- The character that a one-letter escape stands for. -/
def simpleEscape? (c : Char) : Option Char :=
  if c = '\x22' then some '\x22'
  else if c = '\\' then some '\\'
  else if c = '/' then some '/'
  else if c = 'b' then some '\x08'
  else if c = 'f' then some '\x0c'
  else if c = 'n' then some '\n'
  else if c = 'r' then some '\r'
  else if c = 't' then some '\t'
  else none

/-- Reads what follows a backslash. -/
def readEscape (cur : Cursor) : Except Failure (Char × Cursor) :=
  match cur.rest with
  | [] => cur.fail .stringUnfinished
  | c :: cs =>
    if c = 'u' then readUnicodeEscape (cur.past c cs)
    else
      match simpleEscape? c with
      | some x => .ok (x, cur.past c cs)
      | none => .error ⟨.badEscape, cur.offset + 1⟩

/-- Reads the characters of a string up to its closing quotation mark. The bound is the number of
characters left, each step takes at least one. -/
def readStringFrom : Nat → Cursor → Except Failure (List Char × Cursor)
  | 0, cur => cur.fail .stringUnfinished
  | bound + 1, cur =>
    match cur.rest with
    | [] => cur.fail .stringUnfinished
    | c :: cs =>
      let next := cur.past c cs
      if c = '\x22' then .ok ([], next)
      else if c = '\\' then do
        let (x, cur) ← readEscape next
        let (xs, cur) ← readStringFrom bound cur
        .ok (x :: xs, cur)
      else if c.toNat < 0x20 then next.fail .controlInString
      else do
        let (xs, cur) ← readStringFrom bound next
        .ok (c :: xs, cur)

/-- Reads the rest of a string whose opening quotation mark has been read. -/
def readString (cur : Cursor) : Except Failure (String × Cursor) := do
  let (cs, cur) ← readStringFrom (cur.rest.length + 1) cur
  .ok (String.ofList cs, cur)

end DiagramView.Json
