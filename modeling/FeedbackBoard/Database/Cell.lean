import FeedbackBoard.Database.StoredReal
import FeedbackBoard.Text.CodePoints

/-!
# Cells

The values that database expressions have: nothing, integers of 64 bits, reals
and texts.  Integers and reals are compared exactly, so both zeros are equal and
a large integer is never confused with the real next to it.

Main definitions:

- `Cell`: the values.
- `Cell.compare`: their order.
- `Cell.text?`: a cell cast to a text.
- `Cell.ofNumeral`: the number that a numeral means.
-/

namespace FeedbackBoard

/-- A database value; a real whose rank is no finite number's is infinite. -/
inductive Cell
  | null
  | integer (n : Int)
  | real (negative : Bool) (rank : Nat)
  | text (codes : CodePoints)
deriving DecidableEq, Repr

namespace Cell

/-! ## Order -/

/-- A number counted in units of `2 ^ (-1074)`; infinity counts as the first power of two past all numbers. -/
def units : Cell → Int
  | integer n => n * Binary64.one
  | real negative rank =>
    if negative then -(Binary64.units rank : Int) else Binary64.units rank
  | _ => 0

/-- The place of a cell among cells of other types. -/
def typeRank : Cell → Nat
  | null => 0
  | integer _ => 1
  | real _ _ => 1
  | text _ => 2

/-- The order of cells: nothing, then numbers, then texts. -/
def compare : Cell → Cell → Ordering
  | text s, text t => Ord.compare s t
  | a, b => (Ord.compare a.typeRank b.typeRank).then (Ord.compare a.units b.units)

/-! ## Text -/

/-- The text of an integer. -/
def integerDigits (n : Int) : List Char :=
  (if n < 0 then ['-'] else []) ++ decimalDigits n.natAbs

/-- The cell as a text, in which halves of pairs may stand alone. -/
def text? : Cell → Option CodePoints
  | null => none
  | integer n => some (.ofChars (integerDigits n))
  | real negative rank => some (.ofString (StoredReal.text negative rank))
  | text codes => some codes

/-! ## Numerals -/

/-- The bounds of stored integers. -/
def fitsInteger (n : Int) : Bool :=
  decide (-0x8000000000000000 ≤ n) && decide (n < 0x8000000000000000)

/-- The cell of a numeral; an integer that does not fit becomes a real. -/
def ofNumeral (n : Json.Numeral) : Cell :=
  let magnitude := Json.naturalOfDigits n.whole
  let integer : Int := if n.negative then -(magnitude : Int) else magnitude
  if n.fraction.isNone && n.exponent.isNone && fitsInteger integer then .integer integer
  else
    let exponent : Int :=
      match n.exponent with
      | none => 0
      | some part =>
        let power := StoredReal.exponentOfDigits part.digits
        if part.mark.contains '-' then -(power : Int) else power
    .real n.negative (StoredReal.ofDigits n.whole (n.fraction.getD []) exponent)

end Cell

end FeedbackBoard
