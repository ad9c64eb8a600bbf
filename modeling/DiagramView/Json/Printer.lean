import DiagramView.Decimal.Shortest
import DiagramView.Json.Basic

/-!
# Writing JSON

The compact form has no blanks at all; the indented form puts every item on a line of its own, two
spaces deeper than its container. Strings escape the quotation mark, the backslash and the control
characters below U+0020 and nothing else.
-/

namespace DiagramView.Json

/-! ## Strings -/

/-- A hexadecimal digit, in small letters. -/
def hexDigit (n : Nat) : Char :=
  Nat.digitChar (n % 16)

/-- A character inside a written string. -/
def writeChar (c : Char) : List Char :=
  if c = '\x22' then ['\\', '\x22']
  else if c = '\\' then ['\\', '\\']
  else if c = '\x08' then ['\\', 'b']
  else if c = '\t' then ['\\', 't']
  else if c = '\n' then ['\\', 'n']
  else if c = '\x0c' then ['\\', 'f']
  else if c = '\r' then ['\\', 'r']
  else if c.toNat < 0x20 then
    ['\\', 'u', '0', '0', hexDigit (c.toNat / 16), hexDigit c.toNat]
  else [c]

/-- A written string. -/
def writeString (s : String) : List Char :=
  '\x22' :: s.toList.flatMap writeChar ++ ['\x22']

/-! ## Numbers -/

/-- How decimals are laid out: the exponents of ten that are written positionally. -/
structure RealLayout where
  leastPositional : Int
  greatestPositional : Int

/-- Positional notation serves from `0.00001` up to sixteen digits before the point. -/
def realLayout : RealLayout :=
  ⟨-5, 15⟩

/-- Digits whose first one has the given exponent, in positional notation. A fraction has at least
one digit. -/
def positional (digits : List Char) (exponent : Int) : List Char :=
  if exponent < 0 then
    '0' :: '.' :: List.replicate ((-exponent).toNat - 1) '0' ++ digits
  else
    let before := exponent.toNat + 1
    if digits.length ≤ before then
      digits ++ List.replicate (before - digits.length) '0' ++ ['.', '0']
    else digits.take before ++ '.' :: digits.drop before

/-- Digits whose first one has the given exponent, in scientific notation. The exponent has a
sign. -/
def scientific (digits : List Char) (exponent : Int) : List Char :=
  let mantissa :=
    match digits with
    | [] => []
    | [d] => [d]
    | d :: rest => d :: '.' :: rest
  let sign := if exponent < 0 then '-' else '+'
  mantissa ++ 'e' :: sign :: Nat.toDigits 10 exponent.natAbs

/-- A written number of the 64-bit binary format. -/
def writeReal (x : Decimal.Binary64) : List Char :=
  let magnitude :=
    if x.isZero then ['0', '.', '0']
    else
      let (digits, exponent) := (Decimal.shortest x).normalized
      if realLayout.leastPositional ≤ exponent ∧ exponent ≤ realLayout.greatestPositional then
        positional digits exponent
      else scientific digits exponent
  if x.negative then '-' :: magnitude else magnitude

/-- A written number. -/
def writeNumber : Number → List Char
  | .natural n => Nat.toDigits 10 n.toNat
  | .negative n =>
    if n.toInt < 0 then '-' :: Nat.toDigits 10 n.toInt.natAbs else Nat.toDigits 10 n.toInt.natAbs
  | .real x => writeReal x

/-- A written truth value. -/
def writeBool (b : Bool) : List Char :=
  if b then "true".toList else "false".toList

/-! ## The compact form -/

mutual

/-- A value in compact form. -/
def write : Json → List Char
  | .null => "null".toList
  | .bool b => writeBool b
  | .number n => writeNumber n
  | .string s => writeString s
  | .array items => '[' :: writeItems items ++ [']']
  | .object fields => '\x7b' :: writeFields fields ++ ['\x7d']

/-- The items of an array in compact form, with commas between them. -/
def writeItems : List Json → List Char
  | [] => []
  | [v] => write v
  | v :: rest => write v ++ ',' :: writeItems rest

/-- The fields of an object in compact form, with commas between them. -/
def writeFields : List (String × Json) → List Char
  | [] => []
  | [(name, v)] => writeString name ++ ':' :: write v
  | (name, v) :: rest => writeString name ++ ':' :: write v ++ ',' :: writeFields rest

end

/-- The compact text of a value. -/
def compact (v : Json) : String :=
  String.ofList v.write

/-! ## The indented form -/

/-- A line break and the indentation of the given depth. -/
def lineBreak (depth : Nat) : List Char :=
  '\n' :: List.replicate (2 * depth) ' '

mutual

/-- A value in indented form, at the given depth. -/
def writeIndented (depth : Nat) : Json → List Char
  | .array [] => ['[', ']']
  | .array (v :: rest) =>
    '[' :: writeIndentedItems (depth + 1) (v :: rest) ++ lineBreak depth ++ [']']
  | .object [] => ['\x7b', '\x7d']
  | .object (entry :: rest) =>
    '\x7b' :: writeIndentedFields (depth + 1) (entry :: rest) ++ lineBreak depth ++ ['\x7d']
  | .null => "null".toList
  | .bool b => writeBool b
  | .number n => writeNumber n
  | .string s => writeString s

/-- The items of an array in indented form, each on its own line. -/
def writeIndentedItems (depth : Nat) : List Json → List Char
  | [] => []
  | [v] => lineBreak depth ++ writeIndented depth v
  | v :: rest => lineBreak depth ++ writeIndented depth v ++ ',' :: writeIndentedItems depth rest

/-- The fields of an object in indented form, each on its own line. -/
def writeIndentedFields (depth : Nat) : List (String × Json) → List Char
  | [] => []
  | [(name, v)] => lineBreak depth ++ writeString name ++ ':' :: ' ' :: writeIndented depth v
  | (name, v) :: rest =>
    lineBreak depth ++ writeString name ++ ':' :: ' ' :: writeIndented depth v ++
      ',' :: writeIndentedFields depth rest

end

/-- The indented text of a value. -/
def indented (v : Json) : String :=
  String.ofList (v.writeIndented 0)

end DiagramView.Json
