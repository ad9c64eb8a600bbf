/-!
# Decimal numerals of natural numbers

A numeral is a row of decimal digits, before which a plus sign may stand. Leading zeros count for
nothing.
-/

namespace DiagramView.Decimal

/-- The value of a row of decimal digits. -/
def digitsValue (digits : List Char) : Nat :=
  digits.foldl (fun n c => 10 * n + (c.toNat - '0'.toNat)) 0

/-- Reads a numeral whose value 64 bits hold. -/
def natural64? (text : List Char) : Option Nat :=
  let digits := match text with
    | '+' :: rest => rest
    | _ => text
  if digits.isEmpty || !digits.all Char.isDigit then none
  else
    let n := digitsValue digits
    if n < UInt64.size then some n else none

end DiagramView.Decimal
