import FeedbackBoard.Binary64.Basic

/-!
# Wide numbers

A wide number is a significand of 64 bits and a power of two, eleven bits more
than a binary64 number has.  Every operation computes the exact result and
rounds it once, a half going to the even neighbour.  Powers of ten are not exact
from `10 ^ 28` on, so a number that is scaled in several steps may end beside
the nearest one.

Main definitions:

- `Wide.round`: the first 64 bits of a magnitude.
- `Wide.mul`, `Wide.scale`: products, and products with powers of ten.
- `Wide.ofRank`, `Wide.rank`: from and to binary64 numbers.
-/

namespace FeedbackBoard

/-- The magnitude `significand * 2 ^ exponent`. -/
structure Wide where
  significand : Nat
  exponent : Int
deriving DecidableEq, Repr

namespace Wide

/-- How many bits of a magnitude are kept. -/
def precision : Nat := 64

/-! ## Rounding -/

/-- The wide number nearest to `n * 2 ^ exponent`. -/
def round (n : Nat) (exponent : Int) : Wide :=
  let excess := n.log2 + 1 - precision
  { significand := Binary64.roundHalfEven n (powerOfTwo excess)
    exponent := exponent + excess }

/-- The wide number nearest to a natural number. -/
def ofNat (n : Nat) : Wide :=
  round n 0

/-- The wide number nearest to `1 / n`. -/
def reciprocal (n : Nat) : Wide :=
  let shift := n.log2 + precision
  { significand := Binary64.roundHalfEven (powerOfTwo shift) n
    exponent := -(shift : Int) }

/-- The wide number nearest to `10 ^ power`. -/
def powerOfTen (power : Int) : Wide :=
  if power < 0 then reciprocal (FeedbackBoard.powerOfTen power.natAbs)
  else ofNat (FeedbackBoard.powerOfTen power.natAbs)

/-! ## Products -/

/-- The product, rounded once. -/
def mul (a b : Wide) : Wide :=
  round (a.significand * b.significand) (a.exponent + b.exponent)

/-- Multiplies several times by one factor and rounds each time. -/
def mulRepeated (factor : Wide) : (times : Nat) → Wide → Wide
  | 0, a => a
  | times + 1, a => mulRepeated factor times (a.mul factor)

/-- The number times `10 ^ power`, first by hundreds of powers, then by tens, then one by one. -/
def scale (power : Int) (a : Wide) : Wide :=
  let factor (step : Int) : Wide := powerOfTen (if power < 0 then -step else step)
  let count := power.natAbs
  mulRepeated (factor 1) (count % 10)
    (mulRepeated (factor 10) (count / 10 % 10) (mulRepeated (factor 100) (count / 100) a))

/-! ## Comparing -/

/-- Whether the first number is less than the second. -/
def isBelow (a b : Wide) : Bool :=
  let lowest := min a.exponent b.exponent
  let aligned (x : Wide) : Nat := x.significand * powerOfTwo (x.exponent - lowest).toNat
  decide (aligned a < aligned b)

/-- The whole part of the number. -/
def floor (a : Wide) : Nat :=
  if 0 ≤ a.exponent then a.significand * powerOfTwo a.exponent.toNat
  else a.significand / powerOfTwo (-a.exponent).toNat

/-! ## Binary64 numbers -/

/-- The magnitude with this rank, which is exact. -/
def ofRank (rank : Nat) : Wide :=
  round (Binary64.units rank) (-1074)

/-- The rank of the nearest binary64 number; every number above the finite ones is infinite. -/
def rank (a : Wide) : Nat :=
  let shift := a.exponent + 1074
  if shift < 0 then Binary64.nearestRank a.significand (powerOfTwo (-shift).toNat)
  else
    let units := a.significand * powerOfTwo shift.toNat
    if Binary64.units (Binary64.infinityRank - 1) < units then Binary64.infinityRank
    else Binary64.nearestRank units 1

end Wide

end FeedbackBoard
