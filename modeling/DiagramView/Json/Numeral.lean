import DiagramView.Json.Basic
import DiagramView.Json.Cursor

/-!
# Reading numbers

A numeral without fraction and exponent is a whole number when 64 bits hold it. Any other numeral
is gathered into a significand of at most 64 bits and a power of ten: digits that no longer fit are
dropped, and those before the point still count as powers of ten.
-/

namespace DiagramView.Json

/-- The greatest significand that is gathered. -/
def maxSignificand : Nat := UInt64.size - 1

/-- The greatest exponent that is gathered. -/
def maxGatheredExponent : Nat := Int32.size / 2 - 1

/-- The value of a decimal digit. -/
def digitValue? (c : Char) : Option Nat :=
  if '0' ≤ c ∧ c ≤ '9' then some (c.toNat - '0'.toNat) else none

/-- Whether a text goes on with a decimal digit. -/
def beginsWithDigit : List Char → Bool
  | [] => false
  | c :: _ => (digitValue? c).isSome

/-- Digits gathered into a significand, up to the first that is no digit or no longer fits. -/
structure Gathered where
  significand : Nat
  /-- The number of digits gathered. -/
  count : Nat
  /-- Whether a digit was left because it no longer fits. -/
  full : Bool
  cursor : Cursor

/-- Gathers digits into a significand. -/
def gatherDigits (significand count offset : Nat) : List Char → Gathered
  | [] => ⟨significand, count, false, ⟨offset, []⟩⟩
  | c :: cs =>
    match digitValue? c with
    | none => ⟨significand, count, false, ⟨offset, c :: cs⟩⟩
    | some d =>
      if maxSignificand < significand * 10 + d then ⟨significand, count, true, ⟨offset, c :: cs⟩⟩
      else gatherDigits (significand * 10 + d) (count + 1) (offset + 1) cs

/-- Skips digits and counts them. -/
def skipDigits (count offset : Nat) : List Char → Nat × Cursor
  | [] => (count, ⟨offset, []⟩)
  | c :: cs =>
    if (digitValue? c).isSome then skipDigits (count + 1) (offset + 1) cs
    else (count, ⟨offset, c :: cs⟩)

/-- The number with a sign, a significand and a power of ten. -/
def finishReal (positive : Bool) (significand : Nat) (exponent : Int) (cur : Cursor) :
    Except Failure (Number × Cursor) :=
  match Decimal.ofDecimal? significand exponent with
  | none => cur.fail .numberTooGreat
  | some x => .ok (.real (x.withSign (!positive)), cur)

/-- Gathers the digits of an exponent; `none` when they no longer fit, with the cursor behind the
first digit that does not. -/
def gatherExponent (exponent offset : Nat) : List Char → Option Nat × Cursor
  | [] => (some exponent, ⟨offset, []⟩)
  | c :: cs =>
    match digitValue? c with
    | none => (some exponent, ⟨offset, c :: cs⟩)
    | some d =>
      if maxGatheredExponent < exponent * 10 + d then (none, ⟨offset + 1, cs⟩)
      else gatherExponent (exponent * 10 + d) (offset + 1) cs

/-- Reads the sign of an exponent; no sign counts as plus. -/
def readExponentSign (cur : Cursor) : Bool × Cursor :=
  match cur.rest with
  | '+' :: cs => (true, ⟨cur.offset + 1, cs⟩)
  | '-' :: cs => (false, ⟨cur.offset + 1, cs⟩)
  | _ => (true, cur)

/-- Reads what follows the exponent mark. An exponent too great to gather gives zero, unless it
would make a number that is not zero too great. -/
def readExponent (positive : Bool) (significand : Nat) (shift : Int) (cur : Cursor) :
    Except Failure (Number × Cursor) :=
  let (raising, cur) := readExponentSign cur
  match cur.rest with
  | [] => cur.fail .valueMissing
  | c :: cs =>
    match digitValue? c with
    | none => .error ⟨.badNumber, cur.offset + 1⟩
    | some d =>
      match gatherExponent d (cur.offset + 1) cs with
      | (some e, cur) =>
        finishReal positive significand (if raising then shift + e else shift - e) cur
      | (none, cur) =>
        if significand ≠ 0 ∧ raising then cur.fail .numberTooGreat
        else .ok (.real (.zero (!positive)), (skipDigits 0 cur.offset cur.rest).2)

/-- Reads the exponent when there is one. -/
def readOptionalExponent (positive : Bool) (significand : Nat) (shift : Int) (cur : Cursor) :
    Except Failure (Number × Cursor) :=
  match cur.rest with
  | 'e' :: cs => readExponent positive significand shift ⟨cur.offset + 1, cs⟩
  | 'E' :: cs => readExponent positive significand shift ⟨cur.offset + 1, cs⟩
  | _ => finishReal positive significand shift cur

/-- Reads what follows the decimal point: at least one digit. -/
def readFraction (positive : Bool) (significand : Nat) (shift : Int) (cur : Cursor) :
    Except Failure (Number × Cursor) :=
  let g := gatherDigits significand 0 cur.offset cur.rest
  if g.full then
    readOptionalExponent positive g.significand (shift - g.count)
      (skipDigits 0 g.cursor.offset g.cursor.rest).2
  else if g.count = 0 then
    match g.cursor.rest with
    | [] => g.cursor.fail .valueMissing
    | _ => g.cursor.failAhead .badNumber
  else readOptionalExponent positive g.significand (shift - g.count) g.cursor

/-- Reads the fraction and the exponent when there are any. -/
def readRealParts (positive : Bool) (significand : Nat) (shift : Int) (cur : Cursor) :
    Except Failure (Number × Cursor) :=
  match cur.rest with
  | '.' :: cs => readFraction positive significand shift ⟨cur.offset + 1, cs⟩
  | _ => readOptionalExponent positive significand shift cur

/-- Whether a fraction or an exponent comes next. -/
def realPartsNext : List Char → Bool
  | '.' :: _ => true
  | 'e' :: _ => true
  | 'E' :: _ => true
  | _ => false

/-- A whole number with a sign. What 64 bits cannot hold is rounded, and so is minus zero. -/
def wholeNumber (positive : Bool) (n : Nat) : Number :=
  if positive then .natural n.toUInt64
  else if 0 < n ∧ n ≤ Int64.size / 2 then .negative (Int64.ofInt (-n))
  else .real ((Decimal.Binary64.ofNat n).withSign true)

/-- Reads what follows the integer part. -/
def readAfterInteger (positive : Bool) (significand : Nat) (cur : Cursor) :
    Except Failure (Number × Cursor) :=
  if realPartsNext cur.rest then readRealParts positive significand 0 cur
  else .ok (wholeNumber positive significand, cur)

/-- Reads a numeral whose sign has been read. -/
def readNumeral (positive : Bool) (cur : Cursor) : Except Failure (Number × Cursor) :=
  match cur.rest with
  | [] => cur.fail .valueMissing
  | c :: cs =>
    match digitValue? c with
    | none => .error ⟨.badNumber, cur.offset + 1⟩
    | some 0 =>
      if beginsWithDigit cs then Cursor.failAhead ⟨cur.offset + 1, cs⟩ .badNumber
      else readAfterInteger positive 0 ⟨cur.offset + 1, cs⟩
    | some d =>
      let g := gatherDigits d 0 (cur.offset + 1) cs
      if g.full then
        let (dropped, cur) := skipDigits 0 g.cursor.offset g.cursor.rest
        readRealParts positive g.significand dropped cur
      else readAfterInteger positive g.significand g.cursor

end DiagramView.Json
