import FeedbackBoard.Binary64.Basic

/-!
# Decimal text of binary64 numbers

Two decimal readings of a binary magnitude: the fewest digits that read back as
the same number, and a fixed count of places after the point.  Both are computed
on whole numbers, so a digit is never lost to a second rounding.

Main definitions:

- `Binary64.shortest`: the shortest decimal that lies nearest to the number among
  those that read back.
- `Layout.write`: where a format puts the point and when it writes an exponent.
- `fixedPlaces`: a ratio with a fixed number of places.
-/

namespace FeedbackBoard

/-- A decimal magnitude: its digits, and the power of ten of the first digit. -/
structure Decimal where
  digits : List Char
  exponent : Int
deriving DecidableEq, Repr

/-- The decimal digits of a natural number. -/
def decimalDigits (n : Nat) : List Char :=
  Nat.toDigits 10 n

/-- The number without its trailing decimal zeros, as digits. -/
def trimmedDigits (n : Nat) : List Char :=
  let kept := ((decimalDigits n).reverse.dropWhile (· == '0')).reverse
  if kept.isEmpty then ['0'] else kept

/-- The power of ten of the first digit of a positive ratio `num / den`. -/
def leadingExponent (num den : Nat) : Int :=
  if den ≤ num then ((decimalDigits (num / den)).length : Int) - 1
  else -((decimalDigits ((den + num - 1) / num - 1)).length : Int)

namespace Binary64

/-! ## The shortest decimal that reads back -/

/--
The candidate on the decimal grid of `count` digits, if one of the two grid
points around the number with this positive rank reads back as it.  Of two such
points the nearer is taken, and of two equally near ones the even.  Lengths are
in half units, so that the ends of the interval are whole numbers; an end reads
back exactly if the rank is even.
-/
def candidate? (rank : Nat) (top : Int) (count : Nat) : Option (Nat × Int) :=
  let step := top - (count - 1 : Nat)
  let grid := if 0 ≤ step then powerOfTen step.toNat * one * 2 else one * 2
  let scale := if 0 ≤ step then 1 else powerOfTen (-step).toNat
  let lower := (units (rank - 1) + units rank) * scale
  let upper := (units rank + units (rank + 1)) * scale
  let value := 2 * units rank * scale
  let inside (point : Nat) : Bool :=
    if rank % 2 = 0 then decide (lower ≤ point) && decide (point ≤ upper)
    else decide (lower < point) && decide (point < upper)
  let below := value / grid
  let above := below + 1
  match inside (below * grid), inside (above * grid) with
  | false, false => none
  | true, false => some (below, step)
  | false, true => some (above, step)
  | true, true =>
    let left := value - below * grid
    let right := above * grid - value
    if left < right then some (below, step)
    else if right < left then some (above, step)
    else some (if below % 2 = 0 then below else above, step)

/-- The first grid with a candidate, from `count` digits on. -/
def firstCandidate (rank : Nat) (top : Int) : Nat → Nat → Nat × Int
  | 0, _ => (0, 0)
  | fuel + 1, count =>
    match candidate? rank top count with
    | some found => found
    | none => firstCandidate rank top fuel (count + 1)

/-- The shortest decimal that reads back as the number with this rank; 17 digits always do. -/
def shortest (rank : Nat) : Decimal :=
  if rank = 0 then { digits := ['0'], exponent := 0 }
  else
    let top := leadingExponent (units rank) one
    let (significand, step) := firstCandidate rank top 17 1
    let all := decimalDigits significand
    { digits := trimmedDigits significand, exponent := step + ((all.length : Int) - 1) }

end Binary64

/-! ## Layout -/

/-- The decisions a text format makes about a decimal. -/
structure Layout where
  /-- The least exponent that is still written with a point only. -/
  lowestPlain : Int
  /-- The greatest exponent that is still written with a point only. -/
  highestPlain : Int
  /-- Whether a single digit before an exponent is followed by a point and a zero. -/
  pointBeforeExponent : Bool
  /-- The least number of digits of a written exponent. -/
  exponentDigits : Nat

/-- A decimal in plain notation, with at least one digit after the point. -/
def Decimal.plain (d : Decimal) : List Char :=
  if 0 ≤ d.exponent then
    let whole := d.exponent.toNat + 1
    if d.digits.length ≤ whole then
      d.digits ++ List.replicate (whole - d.digits.length) '0' ++ ['.', '0']
    else
      d.digits.take whole ++ '.' :: d.digits.drop whole
  else
    '0' :: '.' :: (List.replicate ((-d.exponent).toNat - 1) '0' ++ d.digits)

/-- A decimal in exponent notation; the exponent always has a sign. -/
def Layout.scientific (layout : Layout) (d : Decimal) : List Char :=
  let mantissa :=
    match d.digits with
    | [only] => if layout.pointBeforeExponent then [only, '.', '0'] else [only]
    | first :: rest => first :: '.' :: rest
    | [] => ['0']
  let power := decimalDigits d.exponent.natAbs
  let sign := if d.exponent < 0 then '-' else '+'
  mantissa ++ 'e' :: sign ::
    (List.replicate (layout.exponentDigits - power.length) '0' ++ power)

/-- The text of a decimal magnitude. -/
def Layout.write (layout : Layout) (d : Decimal) : List Char :=
  if layout.lowestPlain ≤ d.exponent ∧ d.exponent ≤ layout.highestPlain then d.plain
  else layout.scientific d

/-! ## A fixed number of places -/

/-- The ratio `num / den` with exactly `places` places, a half going to the even neighbour. -/
def fixedPlaces (places num den : Nat) : List Char :=
  let scaled := decimalDigits (Binary64.roundHalfEven (num * powerOfTen places) den)
  let padded := List.replicate (places + 1 - scaled.length) '0' ++ scaled
  let whole := padded.length - places
  if places = 0 then padded else padded.take whole ++ '.' :: padded.drop whole

end FeedbackBoard
