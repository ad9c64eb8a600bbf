import DiagramView.Decimal.Binary64

/-!
# Shortest decimals

The decimal written for a binary number has the fewest digits among those that read back as the
number; of several such decimals it is the one nearest to the number, and of two equally near the
one with an even last digit. The search runs over the decimal grids from coarse to fine and looks
at the number's two neighbours on each.
-/

namespace DiagramView.Decimal

/-- The decimal `digits * 10 ^ exponent`. -/
structure Scientific where
  digits : Nat
  exponent : Int
  deriving DecidableEq, Repr

/-- The reals that round to a number, in units of a quarter of its last place: the ends, and whether
they belong to it. -/
structure Interval where
  low : Nat
  high : Nat
  closed : Bool
  deriving Repr

/-- The interval of reals that round to a positive number. It is narrower below a power of two,
where the numbers lie closer together. -/
def roundingInterval (x : Binary64) : Interval where
  low := if x.mantissa = Nat.pow 2 52 ∧ minExponent < x.exponent then 4 * x.mantissa - 1
    else 4 * x.mantissa - 2
  high := 4 * x.mantissa + 2
  closed := x.mantissa % 2 == 0

/-- The fraction `num / den * 10 ^ shift` as a pair of naturals. -/
def scaledTen (num den : Nat) (shift : Int) : Nat × Nat :=
  if 0 ≤ shift then (num * Nat.pow 10 shift.toNat, den)
  else (num, den * Nat.pow 10 (-shift).toNat)

/-- Whether `10 ^ e ≤ num / den`. -/
def reachesPower (num den : Nat) (e : Int) : Bool :=
  let (n, d) := scaledTen num den (-e)
  decide (d ≤ n)

/-- The greatest `e` with `10 ^ e ≤ num / den`, found among the three values above a lower bound. -/
def decimalOrder (num den : Nat) : Int :=
  let base : Int := ((num.log2 : Int) - (den.log2 : Int) - 1) * 1233 / 4096 - 1
  if reachesPower num den (base + 3) then base + 3
  else if reachesPower num den (base + 2) then base + 2
  else if reachesPower num den (base + 1) then base + 1
  else base

/-- The decimal on the grid of `10 ^ exponent` that stands for the number, when there is one. The
value is `4 * mantissa` quarter units, a unit being `unit.1 / unit.2` grid steps. -/
def onGrid (interval : Interval) (value : Nat) (unit : Nat × Nat) : Option Nat :=
  let (n, d) := unit
  let below := value * n / d
  let above := below + 1
  let inside (k : Nat) : Bool :=
    if interval.closed then decide (interval.low * n ≤ k * d) && decide (k * d ≤ interval.high * n)
    else decide (interval.low * n < k * d) && decide (k * d < interval.high * n)
  let gapBelow := value * n - below * d
  let gapAbove := above * d - value * n
  match inside below, inside above with
  | true, true =>
    if gapBelow < gapAbove then some below
    else if gapAbove < gapBelow then some above
    else if below % 2 = 0 then some below else some above
  | true, false => some below
  | false, true => some above
  | false, false => none

/-- Searches the grids of one digit more each time. -/
def searchGrids (x : Binary64) (top : Int) : Nat → Nat → Scientific
  | _, 0 => ⟨0, 0⟩
  | count, left + 1 =>
    let exponent := top - count
    let quarter := scaled 1 1 (x.exponent - 2)
    let unit := scaledTen quarter.1 quarter.2 (-exponent)
    match onGrid (roundingInterval x) (4 * x.mantissa) unit with
    | some digits => ⟨digits, exponent⟩
    | none => searchGrids x top (count + 1) left

/-- The shortest decimal of a positive number: seventeen digits always suffice. -/
def shortest (x : Binary64) : Scientific :=
  let (num, den) := x.fraction
  searchGrids x (decimalOrder num den) 0 18

/-- The digits of a decimal without zeros at the end, with the exponent of the first digit. -/
def Scientific.normalized (s : Scientific) : List Char × Int :=
  let all := Nat.toDigits 10 s.digits
  let kept := (all.reverse.dropWhile (· == '0')).reverse
  (kept, s.exponent + (all.length : Int) - 1)

end DiagramView.Decimal
