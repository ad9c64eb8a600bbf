import DiagramView.Json.Reader

/-!
# Passing over values

A field that no record knows is passed over. Its value has to be JSON, but it may nest without
limit, its numbers may have any size, and its escapes are not paired up.
-/

namespace DiagramView.Json

/-- Passes over what follows a backslash. -/
def skipEscape (cur : Cursor) : Except Failure Cursor :=
  match cur.rest with
  | [] => cur.fail .stringUnfinished
  | c :: cs =>
    if c = 'u' then do return (← readHex (cur.past c cs)).2
    else if (simpleEscape? c).isSome then .ok (cur.past c cs)
    else .error ⟨.badEscape, cur.offset + 1⟩

/-- Passes over the characters of a string up to its closing quotation mark. -/
def skipStringFrom : Nat → Cursor → Except Failure Cursor
  | 0, cur => cur.fail .stringUnfinished
  | bound + 1, cur =>
    match cur.rest with
    | [] => cur.fail .stringUnfinished
    | c :: cs =>
      let next := cur.past c cs
      if c = '\x22' then .ok next
      else if c = '\\' then do skipStringFrom bound (← skipEscape next)
      else if c.toNat < 0x20 then cur.fail .controlInString
      else skipStringFrom bound next

/-- Passes over the rest of a string whose opening quotation mark has been read. -/
def skipString (cur : Cursor) : Except Failure Cursor :=
  skipStringFrom (cur.rest.length + 1) cur

/-- Passes over what follows the exponent mark. -/
def skipExponent (cur : Cursor) : Except Failure Cursor :=
  let (_, cur) := readExponentSign cur
  match cur.rest with
  | [] => cur.fail .badNumber
  | c :: cs =>
    if (digitValue? c).isSome then .ok (skipDigits 0 (cur.offset + 1) cs).2
    else .error ⟨.badNumber, cur.offset + 1⟩

/-- Passes over the exponent when there is one. -/
def skipOptionalExponent (cur : Cursor) : Except Failure Cursor :=
  match cur.rest with
  | 'e' :: cs => skipExponent ⟨cur.offset + 1, cs⟩
  | 'E' :: cs => skipExponent ⟨cur.offset + 1, cs⟩
  | _ => .ok cur

/-- Passes over the fraction and the exponent when there are any. -/
def skipRealParts (cur : Cursor) : Except Failure Cursor :=
  match cur.rest with
  | '.' :: cs =>
    let (count, cur) := skipDigits 0 (cur.offset + 1) cs
    if count = 0 then cur.failAhead .badNumber else skipOptionalExponent cur
  | _ => skipOptionalExponent cur

/-- Passes over a numeral whose sign has been read. -/
def skipNumeral (cur : Cursor) : Except Failure Cursor :=
  match cur.rest with
  | [] => cur.fail .badNumber
  | c :: cs =>
    match digitValue? c with
    | none => .error ⟨.badNumber, cur.offset + 1⟩
    | some 0 =>
      if beginsWithDigit cs then Cursor.failAhead ⟨cur.offset + 1, cs⟩ .badNumber
      else skipRealParts ⟨cur.offset + 1, cs⟩
    | some _ => skipRealParts (skipDigits 0 (cur.offset + 1) cs).2

/-- A container that has been opened. -/
inductive Frame where
  | list
  | object
  deriving DecidableEq, Repr

/-- What comes after the opening of a container or after a value in it. -/
inductive Turn where
  /-- Another value, in the given containers, innermost first. -/
  | value (frames : List Frame) (cur : Cursor)
  /-- The end of the outermost container. -/
  | done (cur : Cursor)

/-- Passes over the key of an object's field and its colon. -/
def skipKey (cur : Cursor) : Except Failure Cursor := do
  let cur := cur.skipSpaces
  match cur.rest with
  | [] => cur.failAhead .objectUnfinished
  | '\x22' :: cs =>
    let cur ← skipString ⟨cur.offset + 1, cs⟩
    readColon cur
  | _ => cur.failAhead .keyNotString

/-- Goes on in the innermost container, where the key of an object's field is passed over. -/
def enterFrame (frames : List Frame) (cur : Cursor) : Except Failure Turn :=
  match frames with
  | .object :: _ => do .ok (.value frames (← skipKey cur))
  | _ => .ok (.value frames cur)

/-- Whether a character closes a container. -/
def Frame.closedBy (frame : Frame) (c : Char) : Bool :=
  match frame with
  | .list => c == ']'
  | .object => c == '\x7d'

/-- Leaves the containers that close here and finds out what comes next. `settled` says that a value
stands before the cursor, so that a comma may follow. -/
def nextTurn (settled : Bool) : List Frame → Cursor → Except Failure Turn
  | [], cur => .ok (.done cur)
  | frame :: outer, cur =>
    let cur := cur.skipSpaces
    match cur.rest with
    | [] => cur.failAhead (if frame = .list then .listUnfinished else .objectUnfinished)
    | c :: cs =>
      if c = ',' ∧ settled then enterFrame (frame :: outer) ⟨cur.offset + 1, cs⟩
      else if frame.closedBy c then nextTurn true outer ⟨cur.offset + 1, cs⟩
      else if settled then
        cur.failAhead (if frame = .list then .listSeparatorExpected else .objectSeparatorExpected)
      else enterFrame (frame :: outer) cur

/-- Passes over a value inside the given containers, and over what follows up to the end of the
outermost one. -/
def skipValueFrom : Nat → List Frame → Cursor → Except Failure Cursor
  | 0, _, cur => cur.failAhead .valueMissing
  | bound + 1, frames, cur => do
    let cur := cur.skipSpaces
    let goOn (turn : Turn) : Except Failure Cursor :=
      match turn with
      | .value frames cur => skipValueFrom bound frames cur
      | .done cur => .ok cur
    match cur.rest with
    | [] => cur.failAhead .valueMissing
    | c :: cs =>
      let next : Cursor := ⟨cur.offset + 1, cs⟩
      if c = 'n' then goOn (← nextTurn true frames (← readLetters ['u', 'l', 'l'] next))
      else if c = 't' then goOn (← nextTurn true frames (← readLetters ['r', 'u', 'e'] next))
      else if c = 'f' then goOn (← nextTurn true frames (← readLetters ['a', 'l', 's', 'e'] next))
      else if c = '-' then goOn (← nextTurn true frames (← skipNumeral next))
      else if (digitValue? c).isSome then goOn (← nextTurn true frames (← skipNumeral cur))
      else if c = '\x22' then goOn (← nextTurn true frames (← skipString next))
      else if c = '[' then goOn (← nextTurn false (.list :: frames) next)
      else if c = '\x7b' then goOn (← nextTurn false (.object :: frames) next)
      else cur.failAhead .valueExpected

/-- Passes over a value. -/
def skipValue (cur : Cursor) : Except Failure Cursor :=
  skipValueFrom (cur.rest.length + 1) [] cur

end DiagramView.Json
