import DiagramView.Json.Printer
import DiagramView.Json.Skip

/-!
# Reading typed values

Readers for the kinds of values that records are made of. A record is read from an object, whose
fields may come in any order, or from a list of its fields in the order of their declaration; what
is missing keeps its default.
-/

namespace DiagramView.Json

/-! ## Values of the wrong kind -/

/-- What a number counts as when something else was expected. -/
def Found.ofNumber : Number → Found
  | .natural n => .integer n.toNat
  | .negative n => .integer n.toInt
  | .real x => .real (String.ofList (writeReal x))

/-- Reads the value that stands in the place of an expected one, as far as the message needs it,
and fails. -/
def unexpected {α : Type} (expected : String) (cur : Cursor) : Except Failure α :=
  match cur.rest with
  | [] => cur.failAhead .valueExpected
  | c :: cs =>
    let next : Cursor := ⟨cur.offset + 1, cs⟩
    let wrong (found : Found) (cur : Cursor) : Except Failure α :=
      cur.fail (.wrongKind found expected)
    if c = 'n' then do wrong .null (← readLetters ['u', 'l', 'l'] next)
    else if c = 't' then do wrong (.bool true) (← readLetters ['r', 'u', 'e'] next)
    else if c = 'f' then do wrong (.bool false) (← readLetters ['a', 'l', 's', 'e'] next)
    else if c = '-' then do
      let (n, cur) ← readNumeral false next
      wrong (.ofNumber n) cur
    else if (digitValue? c).isSome then do
      let (n, cur) ← readNumeral true cur
      wrong (.ofNumber n) cur
    else if c = '\x22' then do
      let (s, cur) ← readString next
      wrong (.string s) cur
    else if c = '[' then wrong .sequence cur
    else if c = '\x7b' then wrong .map cur
    else cur.failAhead .valueExpected

/-! ## Single values -/

/-- Reads a string. -/
def readText (cur : Cursor) : Except Failure (String × Cursor) :=
  let cur := cur.skipSpaces
  match cur.rest with
  | [] => cur.failAhead .valueMissing
  | '\x22' :: cs => readString ⟨cur.offset + 1, cs⟩
  | _ => unexpected "a string" cur

/-- Reads a truth value. -/
def readBool (cur : Cursor) : Except Failure (Bool × Cursor) :=
  let cur := cur.skipSpaces
  match cur.rest with
  | [] => cur.failAhead .valueMissing
  | 't' :: cs => do .ok (true, ← readLetters ['r', 'u', 'e'] ⟨cur.offset + 1, cs⟩)
  | 'f' :: cs => do .ok (false, ← readLetters ['a', 'l', 's', 'e'] ⟨cur.offset + 1, cs⟩)
  | _ => unexpected "a boolean" cur

/-- Reads null. -/
def readNull (cur : Cursor) : Except Failure (Unit × Cursor) :=
  let cur := cur.skipSpaces
  match cur.rest with
  | [] => cur.failAhead .valueMissing
  | 'n' :: cs => do .ok ((), ← readLetters ['u', 'l', 'l'] ⟨cur.offset + 1, cs⟩)
  | _ => unexpected "unit" cur

/-- Reads a number and takes it for a value of a type of whole numbers, which `fit` does when the
number is in the range of the type. -/
def readWholeNumber {α : Type} (expected : String) (fit : Int → Option α) (cur : Cursor) :
    Except Failure (α × Cursor) :=
  let cur := cur.skipSpaces
  let take (result : Except Failure (Number × Cursor)) : Except Failure (α × Cursor) := do
    let (n, cur) ← result
    let whole (value : Int) : Except Failure (α × Cursor) :=
      match fit value with
      | some x => .ok (x, cur)
      | none => cur.fail (.outOfRange (.integer value) expected)
    match n with
    | .natural n => whole n.toNat
    | .negative n => whole n.toInt
    | .real x => cur.fail (.wrongKind (.ofNumber (.real x)) expected)
  match cur.rest with
  | [] => cur.failAhead .valueMissing
  | c :: cs =>
    if c = '-' then take (readNumeral false ⟨cur.offset + 1, cs⟩)
    else if (digitValue? c).isSome then take (readNumeral true cur)
    else unexpected expected cur

/-- Reads a whole number of 32 bits without sign. -/
def readUInt32 : Cursor → Except Failure (UInt32 × Cursor) :=
  readWholeNumber "u32" fun n =>
    if 0 ≤ n ∧ n < UInt32.size then some (UInt32.ofNat n.toNat) else none

/-- Reads a whole number of 64 bits with sign. -/
def readInt64 : Cursor → Except Failure (Int64 × Cursor) :=
  readWholeNumber "i64" fun n =>
    if Int64.minValue.toInt ≤ n ∧ n ≤ Int64.maxValue.toInt then some (Int64.ofInt n) else none

/-- Reads null as the absence of a value, and anything else as a value. -/
def readOptional {α : Type} (value : Cursor → Except Failure (α × Cursor)) (cur : Cursor) :
    Except Failure (Option α × Cursor) :=
  let cur := cur.skipSpaces
  match cur.rest with
  | 'n' :: cs => do .ok (none, ← readLetters ['u', 'l', 'l'] ⟨cur.offset + 1, cs⟩)
  | _ => do
    let (x, cur) ← value cur
    .ok (some x, cur)

/-! ## Alternatives -/

/-- Reads the rest of the name of one of some alternatives, behind its opening quote. -/
def readVariantName {α : Type} (variants : List (String × α)) (cur : Cursor) :
    Except Failure (α × Cursor) := do
  let (name, cur) ← readString cur
  match variants.find? fun v => v.1 == name with
  | some v => .ok (v.2, cur)
  | none => cur.fail (.unknownVariant name (variants.map (·.1)))

/-- Reads the rest of an object with the name of one of some alternatives and null, behind its
opening brace. -/
def readVariantObject {α : Type} (variants : List (String × α)) (cur : Cursor) :
    Except Failure (α × Cursor) :=
  let cur := cur.skipSpaces
  match cur.rest with
  | [] => cur.failAhead .objectUnfinished
  | '\x7d' :: _ => cur.failAhead .valueExpected
  | '\x22' :: cs => do
    let (x, cur) ← readVariantName variants ⟨cur.offset + 1, cs⟩
    let cur ← readColon cur
    let (_, cur) ← readNull cur
    let cur := cur.skipSpaces
    match cur.rest with
    | [] => cur.fail .objectUnfinished
    | '\x7d' :: cs => .ok (x, ⟨cur.offset + 1, cs⟩)
    | _ => cur.fail .valueExpected
  | _ => cur.failAhead .keyNotString

/-- Reads one of some alternatives: its name, or an object with its name and null. -/
def readVariant {α : Type} (variants : List (String × α)) (cur : Cursor) :
    Except Failure (α × Cursor) :=
  let cur := cur.skipSpaces
  match cur.rest with
  | [] => cur.failAhead .valueMissing
  | '\x22' :: cs => readVariantName variants ⟨cur.offset + 1, cs⟩
  | '\x7b' :: cs => readVariantObject variants ⟨cur.offset + 1, cs⟩
  | _ => cur.failAhead .valueExpected

/-! ## Maps and records -/

/-- Reads an object as a map: `insert` takes in one key and value after the other. -/
def readMap {σ α : Type} (value : Cursor → Except Failure (α × Cursor))
    (insert : σ → String → α → σ) (empty : σ) (cur : Cursor) : Except Failure (σ × Cursor) :=
  let cur := cur.skipSpaces
  match cur.rest with
  | [] => cur.failAhead .valueMissing
  | '\x7b' :: cs =>
    let member (acc : σ) (key : String) (cur : Cursor) : Except Failure (σ × Cursor) := do
      let cur ← readColon cur
      let (x, cur) ← value cur
      .ok (insert acc key x, cur)
    readMembers member (cs.length + 1) true empty ⟨cur.offset + 1, cs⟩
  | _ => unexpected "a map" cur

/-- A field of a record: its name, and how its value is read into the record. -/
structure Field (ρ : Type) where
  name : String
  read : ρ → Cursor → Except Failure (ρ × Cursor)

/-- Where a repeated field is reported: behind the blanks after its key, and behind the closing
brace when that comes next. -/
def afterRepeatedKey (cur : Cursor) : Cursor :=
  match closeObject cur with
  | .ok cur => cur
  | .error _ => cur.skipSpaces

/-- Reads a field of a record from an object. The names of the known fields read so far are kept, a
field that the record does not know is passed over. -/
def readRecordField {ρ : Type} (fields : List (Field ρ)) (acc : List String × ρ) (key : String)
    (cur : Cursor) : Except Failure ((List String × ρ) × Cursor) :=
  match fields.find? fun f => f.name == key with
  | none => do
    let cur ← readColon cur
    .ok (acc, ← skipValue cur)
  | some f =>
    if acc.1.contains key then (afterRepeatedKey cur).fail (.repeatedField key)
    else do
      let cur ← readColon cur
      let (r, cur) ← f.read acc.2 cur
      .ok ((key :: acc.1, r), cur)

/-- Reads the fields of a record from a list, as many as there are. -/
def readPositional {ρ : Type} : List (Field ρ) → Bool → ρ → Cursor → Except Failure (ρ × Cursor)
  | [], _, r, cur => .ok (r, cur)
  | f :: rest, first, r, cur => do
    match ← nextItem first cur with
    | none => .ok (r, cur)
    | some cur =>
      let (r, cur) ← f.read r cur
      readPositional rest false r cur

/-- Reads a record with the given name and fields, over its defaults. -/
def readRecord {ρ : Type} (name : String) (fields : List (Field ρ)) (defaults : ρ)
    (cur : Cursor) : Except Failure (ρ × Cursor) :=
  let cur := cur.skipSpaces
  match cur.rest with
  | [] => cur.failAhead .valueMissing
  | '[' :: cs => do
    let (r, cur) ← readPositional fields true defaults ⟨cur.offset + 1, cs⟩
    .ok (r, ← closeList cur)
  | '\x7b' :: cs => do
    let ((_, r), cur) ←
      readMembers (readRecordField fields) (cs.length + 1) true ([], defaults) ⟨cur.offset + 1, cs⟩
    .ok (r, cur)
  | _ => unexpected ("struct " ++ name) cur

end DiagramView.Json
