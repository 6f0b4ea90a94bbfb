import FeedbackBoard.Binary64.Decimal
import FeedbackBoard.Binary64.Wide
import FeedbackBoard.Json.Number

/-!
# Reals of the database

The database reads and writes its reals through wide numbers.  A numeral keeps
as many leading digits as fit in 64 bits and is then scaled by its power of ten;
a real is written by scaling it until its whole part has all the digits that
are needed.  Both may end one step beside the nearest number.

Main definitions:

- `StoredReal.ofDigits`: the rank that a numeral means.
- `StoredReal.decimal`: the 15 digits that are written.
- `StoredReal.text`: the text of a real.
-/

namespace FeedbackBoard.StoredReal

/-! ## Reading -/

/-- A significand below this bound takes one more digit. -/
def digitBound : Nat := 0x1999999999999998

/-- A significand below this bound can be multiplied by ten. -/
def tenfoldBound : Nat := 0x1999999999999999

/-- Appends the digits before the point, and counts those that are left over. -/
def absorbWhole (significand : Nat) : List Char → Nat × Nat
  | [] => (significand, 0)
  | c :: rest =>
    let next := significand * 10 + Json.digitValue c
    if next < digitBound then absorbWhole next rest else (next, rest.length)

/-- Appends the digits after the point; each of them lowers the power of ten. -/
def absorbFraction (significand : Nat) (power : Int) : List Char → Nat × Int
  | [] => (significand, power)
  | c :: rest =>
    if significand < digitBound then
      absorbFraction (significand * 10 + Json.digitValue c) (power - 1) rest
    else (significand, power)

/-- The exponent that digits spell; from `10 ^ 4` on it grows no more. -/
def exponentOfDigits (digits : List Char) : Nat :=
  digits.foldl (fun n c => if n < 10000 then n * 10 + Json.digitValue c else 10000) 0

/-- Moves a positive power of ten into the significand as far as it fits. -/
def raise (significand : Nat) : (power : Nat) → Nat × Nat
  | 0 => (significand, 0)
  | power + 1 =>
    if significand < tenfoldBound then raise (significand * 10) power
    else (significand, power + 1)

/-- Cancels a negative power of ten against the zeros at the end of the significand. -/
def lower (significand : Nat) : (power : Nat) → Nat × Nat
  | 0 => (significand, 0)
  | power + 1 =>
    if significand % 10 = 0 then lower (significand / 10) power else (significand, power + 1)

/-- The rank of `significand * 10 ^ power`. -/
def scaledRank (significand : Nat) (power : Int) : Nat :=
  if significand = 0 then 0
  else if power < 0 then
    let (significand, left) := lower significand power.natAbs
    ((Wide.ofNat significand).scale (-(left : Int))).rank
  else
    let (significand, left) := raise significand power.natAbs
    ((Wide.ofNat significand).scale left).rank

/-- The rank that the digits before and after a point mean, times a power of ten. -/
def ofDigits (whole fraction : List Char) (exponent : Int) : Nat :=
  let (significand, skipped) := absorbWhole 0 whole
  let (significand, power) := absorbFraction significand skipped fraction
  scaledRank significand (power + exponent)

/-! ## Writing -/

/-- Scales by `10 ^ step` while the number is to be scaled; the pair stands for `a * 10 ^ power`. -/
def scaleWhile (wanted : Wide → Bool) (step : Int) : (fuel : Nat) → Wide × Int → Wide × Int
  | 0, scaled => scaled
  | fuel + 1, (a, power) =>
    if wanted a then scaleWhile wanted step fuel (a.scale step, power - step) else (a, power)

/--
The number as a whole part of 18 or 19 digits, and a power of ten.  No loop
takes more than ten turns, since the largest number is below `10 ^ 309` and the
smallest above `10 ^ (-324)`.
-/
def spread (a : Wide) : Wide × Int :=
  let isBelow (power : Int) (a : Wide) : Bool := a.isBelow (Wide.powerOfTen power)
  if isBelow 19 a then
    scaleWhile (isBelow 17) 1 16
      (scaleWhile (isBelow 7) 10 16 (scaleWhile (isBelow (-97)) 100 16 (a, 0)))
  else
    scaleWhile (fun a => !isBelow 19 a) (-1) 16
      (scaleWhile (fun a => !isBelow 29 a) (-10) 16
        (scaleWhile (fun a => !isBelow 119 a) (-100) 16 (a, 0)))

/-- How many digits are written. -/
def digitCount : Nat := 15

/-- The decimal of a positive rank: the leading digits of its whole part, a half going up. -/
def decimal (rank : Nat) : Decimal :=
  let (a, power) := spread (Wide.ofRank rank)
  let all := decimalDigits a.floor
  let unit := powerOfTen (all.length - digitCount)
  let rounded := (2 * a.floor + unit) / (2 * unit)
  { digits := trimmedDigits rounded
    exponent := power + ((all.length - digitCount : Nat) : Int) +
      ((decimalDigits rounded).length - 1 : Nat) }

/-- Reals are written plainly from `0.0001` to below `10 ^ 15`. -/
def layout : Layout where
  lowestPlain := -4
  highestPlain := 14
  pointBeforeExponent := true
  exponentDigits := 2

/-- The text of a real; minus zero has no sign. -/
def text (negative : Bool) (rank : Nat) : String :=
  if rank = 0 then "0.0"
  else
    let sign := if negative then ['-'] else []
    if rank < Binary64.infinityRank then String.ofList (sign ++ layout.write (decimal rank))
    else String.ofList (sign ++ ['I', 'n', 'f'])

end FeedbackBoard.StoredReal
