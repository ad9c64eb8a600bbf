import DiagramView.Json.Numeral

/-!
# Reading values

Values nest at most 127 deep. The readers of lists and objects are given the reader of what they
hold, so that they serve untyped values and typed ones alike; each round of theirs takes at least
one character, and the characters left bound the rounds.
-/

namespace DiagramView.Json

/-! ## Lists -/

/-- Moves on to the next item of a list: the cursor before it, or `none` at the closing bracket,
which is not read. -/
def nextItem (first : Bool) (cur : Cursor) : Except Failure (Option Cursor) :=
  let cur := cur.skipSpaces
  match cur.rest with
  | [] => cur.failAhead .listUnfinished
  | ']' :: _ => .ok none
  | ',' :: cs =>
    if first then .ok (some cur)
    else
      let cur := Cursor.skipSpaces ⟨cur.offset + 1, cs⟩
      match cur.rest with
      | [] => cur.failAhead .valueMissing
      | ']' :: _ => cur.failAhead .trailingComma
      | _ => .ok (some cur)
  | _ => if first then .ok (some cur) else cur.failAhead .listSeparatorExpected

/-- Reads the closing bracket of a list. -/
def closeList (cur : Cursor) : Except Failure Cursor :=
  let cur := cur.skipSpaces
  match cur.rest with
  | [] => cur.failAhead .listUnfinished
  | ']' :: cs => .ok ⟨cur.offset + 1, cs⟩
  | ',' :: cs =>
    let cur := Cursor.skipSpaces ⟨cur.offset + 1, cs⟩
    match cur.rest with
    | ']' :: _ => cur.failAhead .trailingComma
    | _ => cur.failAhead .trailingCharacters
  | _ => cur.failAhead .trailingCharacters

/-- Reads items up to the closing bracket. -/
def readItems {α : Type} (item : Cursor → Except Failure (α × Cursor)) :
    Nat → Bool → Cursor → Except Failure (List α × Cursor)
  | 0, _, cur => cur.failAhead .listUnfinished
  | bound + 1, first, cur => do
    match ← nextItem first cur with
    | none =>
      let cur ← closeList cur
      .ok ([], cur)
    | some cur =>
      let (x, cur) ← item cur
      let (xs, cur) ← readItems item bound false cur
      .ok (x :: xs, cur)

/-! ## Objects -/

/-- Moves on to the next key of an object: the cursor behind its opening quotation mark, or `none`
at the closing brace, which is not read. -/
def nextKey (first : Bool) (cur : Cursor) : Except Failure (Option Cursor) :=
  let cur := cur.skipSpaces
  match cur.rest with
  | [] => cur.failAhead .objectUnfinished
  | '\x7d' :: _ => .ok none
  | '\x22' :: cs =>
    if first then .ok (some ⟨cur.offset + 1, cs⟩) else cur.failAhead .objectSeparatorExpected
  | ',' :: cs =>
    if first then cur.failAhead .keyNotString
    else
      let cur := Cursor.skipSpaces ⟨cur.offset + 1, cs⟩
      match cur.rest with
      | [] => cur.failAhead .valueMissing
      | '\x22' :: cs => .ok (some ⟨cur.offset + 1, cs⟩)
      | '\x7d' :: _ => cur.failAhead .trailingComma
      | _ => cur.failAhead .keyNotString
  | _ =>
    if first then cur.failAhead .keyNotString else cur.failAhead .objectSeparatorExpected

/-- Reads the colon between a key and its value. -/
def readColon (cur : Cursor) : Except Failure Cursor :=
  let cur := cur.skipSpaces
  match cur.rest with
  | [] => cur.failAhead .objectUnfinished
  | ':' :: cs => .ok ⟨cur.offset + 1, cs⟩
  | _ => cur.failAhead .colonExpected

/-- Reads the closing brace of an object. -/
def closeObject (cur : Cursor) : Except Failure Cursor :=
  let cur := cur.skipSpaces
  match cur.rest with
  | [] => cur.failAhead .objectUnfinished
  | '\x7d' :: cs => .ok ⟨cur.offset + 1, cs⟩
  | ',' :: _ => cur.failAhead .trailingComma
  | _ => cur.failAhead .trailingCharacters

/-- Reads fields up to the closing brace. `member` is given the result so far, a key and the cursor
behind it, from which it reads the colon and the value. -/
def readMembers {σ : Type} (member : σ → String → Cursor → Except Failure (σ × Cursor)) :
    Nat → Bool → σ → Cursor → Except Failure (σ × Cursor)
  | 0, _, _, cur => cur.failAhead .objectUnfinished
  | bound + 1, first, acc, cur => do
    match ← nextKey first cur with
    | none =>
      let cur ← closeObject cur
      .ok (acc, cur)
    | some cur =>
      let (key, cur) ← readString cur
      let (acc, cur) ← member acc key cur
      readMembers member bound false acc cur

/-! ## Values -/

/-- Reads a field of an untyped object. -/
def readField (value : Cursor → Except Failure (Json × Cursor)) (fields : List (String × Json))
    (key : String) (cur : Cursor) : Except Failure (List (String × Json) × Cursor) := do
  let cur ← readColon cur
  let (v, cur) ← value cur
  .ok (setField fields key v, cur)

/-- Reads a value; `nested` reads the values inside it, and is absent where nothing may nest any
more. -/
def readValueWith (nested : Option (Cursor → Except Failure (Json × Cursor))) (cur : Cursor) :
    Except Failure (Json × Cursor) :=
  let cur := cur.skipSpaces
  match cur.rest with
  | [] => cur.failAhead .valueMissing
  | c :: cs =>
    let next : Cursor := ⟨cur.offset + 1, cs⟩
    if c = 'n' then do .ok (.null, ← readLetters ['u', 'l', 'l'] next)
    else if c = 't' then do .ok (.bool true, ← readLetters ['r', 'u', 'e'] next)
    else if c = 'f' then do .ok (.bool false, ← readLetters ['a', 'l', 's', 'e'] next)
    else if c = '-' then do
      let (n, cur) ← readNumeral false next
      .ok (.number n, cur)
    else if (digitValue? c).isSome then do
      let (n, cur) ← readNumeral true cur
      .ok (.number n, cur)
    else if c = '\x22' then do
      let (s, cur) ← readString next
      .ok (.string s, cur)
    else if c = '[' then
      match nested with
      | none => cur.failAhead .tooDeep
      | some value => do
        let (items, cur) ← readItems value (cs.length + 1) true next
        .ok (.array items, cur)
    else if c = '\x7b' then
      match nested with
      | none => cur.failAhead .tooDeep
      | some value => do
        let (fields, cur) ← readMembers (readField value) (cs.length + 1) true [] next
        .ok (.object fields, cur)
    else cur.failAhead .valueExpected

/-- Reads a value in which lists and objects nest at most `depth` deep. -/
def readValue : Nat → Cursor → Except Failure (Json × Cursor)
  | 0 => readValueWith none
  | depth + 1 => readValueWith (some (readValue depth))

/-- How deep values may nest. -/
def maxDepth : Nat := 127

/-- Reads a whole text with the given reader: nothing but blanks may follow. -/
def readWhole {α : Type} (reader : Cursor → Except Failure (α × Cursor)) (text : String) :
    Except Failure α := do
  let (x, cur) ← reader (Cursor.start text)
  let cur := cur.skipSpaces
  match cur.rest with
  | [] => .ok x
  | _ => cur.failAhead .trailingCharacters

/-- Reads a JSON text. -/
def parse (text : String) : Except Failure Json :=
  readWhole (readValue maxDepth) text

end DiagramView.Json
