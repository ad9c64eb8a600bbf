/-!
# Finite binary numbers of 64 bits

A finite number of the 64-bit binary format is a sign, a mantissa below `2 ^ 53` and an exponent of
two. All arithmetic is exact arithmetic on naturals followed by one rounding, to the nearest number
and from halfway to the even mantissa, so every result is determined by its definition alone.
-/

namespace DiagramView.Decimal

/-- The finite number `± mantissa * 2 ^ exponent`. Zero has a sign. -/
structure Binary64 where
  negative : Bool
  mantissa : Nat
  exponent : Int
  deriving DecidableEq, Repr, Inhabited

/-- The least exponent of the format. -/
def minExponent : Int := -1074

/-- The greatest exponent of the format. -/
def maxExponent : Int := 971

/-- The quotient `num / den`, rounded to the nearest natural and from halfway to the even one. -/
def roundQuotient (num den : Nat) : Nat :=
  let q := num / den
  let r := num % den
  if 2 * r < den then q
  else if den < 2 * r then q + 1
  else if q % 2 = 0 then q else q + 1

/-- The fraction `num / den * 2 ^ shift` as a pair of naturals. -/
def scaled (num den : Nat) (shift : Int) : Nat × Nat :=
  if 0 ≤ shift then (num * Nat.pow 2 shift.toNat, den)
  else (num, den * Nat.pow 2 (-shift).toNat)

/-- The greatest `e` with `2 ^ e ≤ num / den`, for positive `num` and `den`. -/
def binaryOrder (num den : Nat) : Int :=
  let guess : Int := (num.log2 : Int) - (den.log2 : Int)
  let (n, d) := scaled num den (-guess)
  if d ≤ n then guess else guess - 1

namespace Binary64

/-- Zero with a sign. -/
def zero (negative : Bool) : Binary64 :=
  ⟨negative, 0, minExponent⟩

/-- Whether the number is one of the two zeros. -/
def isZero (x : Binary64) : Bool :=
  x.mantissa == 0

/-- The number nearest to the fraction `num / den` with a sign, or `none` when the fraction is too
great for the format. -/
def nearest? (negative : Bool) (num den : Nat) : Option Binary64 :=
  if num = 0 then some (zero negative)
  else
    let exponent := max (binaryOrder num den - 52) minExponent
    let (n, d) := scaled num den (-exponent)
    let mantissa := roundQuotient n d
    let (mantissa, exponent) :=
      if mantissa = Nat.pow 2 53 then (Nat.pow 2 52, exponent + 1) else (mantissa, exponent)
    if maxExponent < exponent then none else some ⟨negative, mantissa, exponent⟩

/-- The magnitude as a fraction of naturals. -/
def fraction (x : Binary64) : Nat × Nat :=
  scaled x.mantissa 1 x.exponent

/-- The number nearest to a natural below `2 ^ 64`. -/
def ofNat (n : Nat) : Binary64 :=
  (nearest? false n 1).getD (zero false)

/-- The number nearest to a power of ten. -/
def powerOfTen (k : Nat) : Binary64 :=
  ofNat (Nat.pow 10 k)

/-- The rounded product of two magnitudes, or `none` when it is too great. -/
def mul? (x y : Binary64) : Option Binary64 :=
  let (a, b) := x.fraction
  let (c, d) := y.fraction
  nearest? false (a * c) (b * d)

/-- The rounded quotient of two magnitudes; `y` is not zero and not below one, so the quotient is
never too great. -/
def div (x y : Binary64) : Binary64 :=
  let (a, b) := x.fraction
  let (c, d) := y.fraction
  (nearest? false (a * d) (b * c)).getD (zero false)

/-- The number with the given sign and the same magnitude. -/
def withSign (x : Binary64) (negative : Bool) : Binary64 :=
  { x with negative }

/-- The greatest natural that is not above the magnitude. -/
def floor (x : Binary64) : Nat :=
  let (a, b) := x.fraction
  a / b

end Binary64

/-! ## Scaling by powers of ten

A decimal `significand * 10 ^ exponent` is turned into a binary number by one rounding of the
significand and one rounded multiplication or division by the rounded power of ten; exponents
below `-308` take further divisions by `10 ^ 308` first. -/

/-- The greatest power of ten that is multiplied or divided by at once. -/
def greatestPower : Nat := 308

/-- Divides by `10 ^ k`, in as many steps as the bound allows. -/
def scaleDown (x : Binary64) (k : Nat) : Nat → Binary64
  | 0 => x
  | bound + 1 =>
    if k ≤ greatestPower then x.div (.powerOfTen k)
    else if x.isZero then x
    else scaleDown (x.div (.powerOfTen greatestPower)) (k - greatestPower) bound

/-- The magnitude of `significand * 10 ^ exponent`, or `none` when it is too great. -/
def ofDecimal? (significand : Nat) (exponent : Int) : Option Binary64 :=
  let x := Binary64.ofNat significand
  if 0 ≤ exponent then
    if exponent.toNat ≤ greatestPower then x.mul? (.powerOfTen exponent.toNat)
    else if x.isZero then some x
    else none
  else
    let k := (-exponent).toNat
    some (scaleDown x k (k / greatestPower + 1))

end DiagramView.Decimal
