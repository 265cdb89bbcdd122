/-!
# Binary64 numbers as exact values

A finite number is a sign, a whole mantissa below `2 ^ 53` and a power of two, so
that every comparison and every rounding here is exact arithmetic on whole numbers.
`ofDecimal` rounds a decimal to the nearest number, ties to the even mantissa.
`text` writes the fewest significant digits that read back as the same number, and
among those the nearest.
-/

namespace PocketLisp

/-- A binary64 number. A finite one is worth `mantissa * 2 ^ exponent`. -/
inductive Binary64
  | finite (negative : Bool) (mantissa : Nat) (exponent : Int)
  | infinite (negative : Bool)
  deriving DecidableEq, Repr

namespace Binary64

/-- The least exponent, which all numbers below the normal range share. -/
def minExponent : Int := -1074

/-- The exponent of the largest finite number. -/
def maxExponent : Int := 971

/-- The least mantissa of a number in the normal range. -/
def minNormal : Nat := Nat.pow 2 52

/-- The numerator and the denominator of `base ^ exponent`. -/
def powerRatio (base : Nat) (exponent : Int) : Nat × Nat :=
  if exponent < 0 then (1, Nat.pow base (-exponent).toNat) else (Nat.pow base exponent.toNat, 1)

/-- A quotient rounded to the nearest whole number, a tie to the even one. -/
def roundDiv (numerator denominator : Nat) : Nat :=
  let quotient := numerator / denominator
  let twice := 2 * (numerator % denominator)
  if twice < denominator ∨ (twice = denominator ∧ quotient % 2 = 0) then quotient
  else quotient + 1

/-- The number nearest to a positive ratio, or infinity when it is too large. -/
def ofRatio (negative : Bool) (numerator denominator : Nat) : Binary64 :=
  let guess : Int := (numerator.log2 : Int) - denominator.log2 - 52
  let scaled (exponent : Int) : Nat × Nat :=
    let (top, bottom) := powerRatio 2 exponent
    (numerator * bottom, denominator * top)
  let (top, bottom) := scaled guess
  let exponent := max minExponent (if top < minNormal * bottom then guess - 1 else guess)
  let (top, bottom) := scaled exponent
  let rounded := roundDiv top bottom
  let (mantissa, exponent) :=
    if rounded = 2 * minNormal then (minNormal, exponent + 1) else (rounded, exponent)
  if maxExponent < exponent then .infinite negative else .finite negative mantissa exponent

/-- The number nearest to `digits * 10 ^ exponent`. Decimals far outside the range
are zero or infinite without any power being computed. -/
def ofDecimal (negative : Bool) (digits : Nat) (exponent : Int) : Binary64 :=
  let magnitude : Int := (Nat.toDigits 10 digits).length + exponent
  if digits = 0 ∨ magnitude < -330 then .finite negative 0 minExponent
  else if 310 < magnitude then .infinite negative
  else
    let (top, bottom) := powerRatio 10 exponent
    ofRatio negative (digits * top) bottom

/-- Both zeros are zero. -/
def isZero : Binary64 → Bool
  | .finite _ mantissa _ => mantissa == 0
  | .infinite _ => false

/-- Numbers are the same when they have the same value: the sign of zero does not
count. -/
def same (left right : Binary64) : Bool :=
  left == right || (left.isZero && right.isZero)

/-- Whether the number is this whole number, exactly. -/
def isInt : Binary64 → Int → Bool
  | .finite negative mantissa exponent, number =>
      let (top, bottom) := powerRatio 2 exponent
      let magnitude : Int := (mantissa * top : Nat)
      (if negative then -magnitude else magnitude) == number * bottom
  | .infinite _, _ => false

/-- The number of decimal digits of a whole number; zero has none. -/
def decimalLength (number : Nat) : Nat :=
  if number = 0 then 0 else (Nat.toDigits 10 number).length

/-- The place of the decimal point in front of which a positive ratio has no digit:
the least `point` with a ratio below `10 ^ point`. -/
def decimalPoint (numerator denominator : Nat) : Int :=
  if denominator ≤ numerator then decimalLength (numerator / denominator)
  else 1 - decimalLength ((denominator + numerator - 1) / numerator - 1)

/-- The two decimals `digits * 10 ^ exponent` next to a finite positive number on
the grid of an exponent, as far as they round to the number; the nearer one wins and
of two equally near ones the even one. -/
def onGrid? (mantissa : Nat) (exponent grid : Int) : Option Nat :=
  let (unitTop, unitBottom) := powerRatio 2 (exponent - 2)
  let (gridTop, gridBottom) := powerRatio 10 grid
  let place (quarters : Nat) : Nat := quarters * unitTop * gridBottom
  let below := if mantissa = minNormal ∧ minExponent < exponent then 1 else 2
  let low := place (4 * mantissa - below)
  let value := place (4 * mantissa)
  let high := place (4 * mantissa + 2)
  let step := gridTop * unitBottom
  let inside (digits : Nat) : Bool :=
    if mantissa % 2 = 0 then low ≤ digits * step && digits * step ≤ high
    else low < digits * step && digits * step < high
  let floor := value / step
  match inside floor, inside (floor + 1) with
  | false, false => none
  | true, false => some floor
  | false, true => some (floor + 1)
  | true, true => some (roundDiv value step)

/-- The shortest digits of a finite positive number with the place of the decimal
point in front of the first digit. Seventeen digits always suffice. -/
def shortest (mantissa : Nat) (exponent : Int) : List Char × Int :=
  let (top, bottom) := powerRatio 2 exponent
  let point := decimalPoint (mantissa * top) bottom
  let hit? := (List.range 17).findSome? fun shorter =>
    let grid := point - (shorter + 1 : Nat)
    (onGrid? mantissa exponent grid).map fun digits => (Nat.toDigits 10 digits, grid)
  match hit? with
  | none => (['0'], 1)
  | some (digits, grid) =>
      ((digits.reverse.dropWhile fun digit => digit == '0').reverse, digits.length + grid)

/-- Digits are written positionally when the first of them stands no further than
four places behind the point or sixteen places in front of it. A whole number keeps
one zero behind its point, and an exponent has a sign and at least two digits. -/
def decimalText (digits : List Char) (point : Int) : String :=
  let zeros (count : Int) : List Char := List.replicate count.toNat '0'
  if -4 < point ∧ point ≤ 16 then
    if point ≤ 0 then String.ofList ('0' :: '.' :: zeros (-point) ++ digits)
    else if digits.length ≤ point then
      String.ofList (digits ++ zeros (point - digits.length) ++ ['.', '0'])
    else
      String.ofList (digits.take point.toNat ++ '.' :: digits.drop point.toNat)
  else
    let power := point - 1
    let count := Nat.toDigits 10 power.natAbs
    let mantissa := match digits with
      | [] => []
      | [digit] => [digit]
      | digit :: rest => digit :: '.' :: rest
    String.ofList (mantissa ++ 'e' :: (if power < 0 then '-' else '+')
      :: zeros (2 - count.length) ++ count)

/-- The shortest text that reads back as the number. -/
def text : Binary64 → String
  | .infinite negative => if negative then "-inf" else "inf"
  | .finite negative mantissa exponent =>
      let unsigned :=
        if mantissa = 0 then "0.0"
        else
          let (digits, point) := shortest mantissa exponent
          decimalText digits point
      if negative then "-" ++ unsigned else unsigned

end Binary64

end PocketLisp
