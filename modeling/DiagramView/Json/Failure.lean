import DiagramView.Text.Quoted

/-!
# Why a JSON text is refused

A refusal has a cause and a place. The place is a number of bytes from the start of the text, from
which the line and the column of the message are counted.
-/

namespace DiagramView.Json

/-- What was found where a value of some other kind was expected. -/
inductive Found where
  | null
  | bool (b : Bool)
  | integer (n : Int)
  /-- A number with a fraction or an exponent, or beyond 64 bits; its written form. -/
  | real (text : String)
  | string (s : String)
  | sequence
  | map
  deriving DecidableEq, Repr

/-- The wording of a finding. -/
def Found.describe : Found → String
  | .null => "null"
  | .bool b => "boolean `" ++ (if b then "true" else "false") ++ "`"
  | .integer n => "integer `" ++ toString n ++ "`"
  | .real text => "floating point `" ++ text ++ "`"
  | .string s => "string " ++ Text.quoted s
  | .sequence => "sequence"
  | .map => "map"

/-- Why reading stopped. -/
inductive Cause where
  | listUnfinished
  | objectUnfinished
  | stringUnfinished
  | valueMissing
  | colonExpected
  | listSeparatorExpected
  | objectSeparatorExpected
  | identExpected
  | valueExpected
  | badEscape
  | badNumber
  | numberTooGreat
  | controlInString
  | keyNotString
  | loneSurrogate
  | trailingComma
  | trailingCharacters
  | hexEscapeUnfinished
  | tooDeep
  /-- A value of the wrong kind. -/
  | wrongKind (found : Found) (expected : String)
  /-- A value of the right kind outside the range of its type. -/
  | outOfRange (found : Found) (expected : String)
  /-- A name that is none of the alternatives. -/
  | unknownVariant (name : String) (known : List String)
  /-- A known field written twice. -/
  | repeatedField (name : String)
  deriving DecidableEq, Repr

/-- The wording of a cause. -/
def Cause.describe : Cause → String
  | .listUnfinished => "EOF while parsing a list"
  | .objectUnfinished => "EOF while parsing an object"
  | .stringUnfinished => "EOF while parsing a string"
  | .valueMissing => "EOF while parsing a value"
  | .colonExpected => "expected `:`"
  | .listSeparatorExpected => "expected `,` or `]`"
  | .objectSeparatorExpected => "expected `,` or `\x7d`"
  | .identExpected => "expected ident"
  | .valueExpected => "expected value"
  | .badEscape => "invalid escape"
  | .badNumber => "invalid number"
  | .numberTooGreat => "number out of range"
  | .controlInString =>
    "control character (\\u0000-\\u001F) found while parsing a string"
  | .keyNotString => "key must be a string"
  | .loneSurrogate => "lone leading surrogate in hex escape"
  | .trailingComma => "trailing comma"
  | .trailingCharacters => "trailing characters"
  | .hexEscapeUnfinished => "unexpected end of hex escape"
  | .tooDeep => "recursion limit exceeded"
  | .wrongKind found expected =>
    "invalid type: " ++ found.describe ++ ", expected " ++ expected
  | .outOfRange found expected =>
    "invalid value: " ++ found.describe ++ ", expected " ++ expected
  | .unknownVariant name known =>
    "unknown variant `" ++ name ++ "`, expected one of " ++
      Text.join ", " (known.map fun k => "`" ++ k ++ "`")
  | .repeatedField name => "duplicate field `" ++ name ++ "`"

/-- A cause and the number of bytes before it. -/
structure Failure where
  cause : Cause
  offset : Nat
  deriving DecidableEq, Repr

/-- A line, counted from one, and a column, counted in bytes from the start of the line. -/
structure Position where
  line : Nat
  column : Nat
  deriving DecidableEq, Repr

/-- Moves a position on over the bytes that remain before a place. -/
def Position.advance (p : Position) : Nat → List Char → Position
  | left, [] => { p with column := p.column + left }
  | left, c :: cs =>
    if left < c.utf8Size then { p with column := p.column + left }
    else if c = '\n' then Position.advance ⟨p.line + 1, 0⟩ (left - 1) cs
    else Position.advance ⟨p.line, p.column + c.utf8Size⟩ (left - c.utf8Size) cs

/-- The position of a place in a text. -/
def positionAt (text : String) (offset : Nat) : Position :=
  Position.advance ⟨1, 0⟩ offset text.toList

/-- The message of a failure to read a text. -/
def Failure.message (f : Failure) (text : String) : String :=
  let p := positionAt text f.offset
  f.cause.describe ++ " at line " ++ toString p.line ++ " column " ++ toString p.column

end DiagramView.Json
