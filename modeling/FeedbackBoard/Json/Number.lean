import FeedbackBoard.Binary64.Decimal

/-!
# JSON numbers

A number is spelled by a numeral.  A numeral without point and exponent that
fits in 64 bits, signed or unsigned, is an integer; every other numeral is a
binary64 number, read in one pass: up to 64 bits of leading digits are kept, the
digits after them are dropped, and one multiplication or division by a power of
ten follows.  The reading is therefore not always the nearest number.

Main definitions:

- `Json.Numeral`: a spelling.
- `Json.Number`: an integer of 64 bits or a binary64 number.
- `Json.Numeral.value?`: what a spelling means, unless it is too large.
- `Json.Number.text`: the spelling that is written.
-/

namespace FeedbackBoard.Json

/-! ## Spellings -/

/-- The exponent of a numeral. -/
structure ExponentPart where
  /-- The letter and the sign, as written. -/
  mark : List Char
  digits : List Char
deriving DecidableEq, Repr

/-- The spelling of a number. -/
structure Numeral where
  negative : Bool
  /-- The digits before the point. -/
  whole : List Char
  /-- The digits after the point, if there is a point. -/
  fraction : Option (List Char)
  exponent : Option ExponentPart
deriving DecidableEq, Repr

/-- The characters of the numeral. -/
def Numeral.chars (n : Numeral) : List Char :=
  (if n.negative then ['-'] else []) ++ n.whole ++
    (match n.fraction with
      | some digits => '.' :: digits
      | none => []) ++
    (match n.exponent with
      | some part => part.mark ++ part.digits
      | none => [])

/-! ## Values -/

/-- An integer that fits in 64 bits, signed or unsigned, or a binary64 number. -/
inductive Number
  | integer (n : Int) (lower : -0x8000000000000000 ≤ n) (upper : n < 0x10000000000000000)
  | double (x : Binary64)
deriving DecidableEq

instance : Inhabited Number := ⟨.double default⟩

/-- The integer as a number, if it fits. -/
def Number.ofInt? (n : Int) : Option Number :=
  if h : -0x8000000000000000 ≤ n ∧ n < 0x10000000000000000 then some (.integer n h.1 h.2) else none

/-- The value of a decimal digit. -/
def digitValue (c : Char) : Nat :=
  c.toNat - '0'.toNat

/-- The natural number that decimal digits spell. -/
def naturalOfDigits (digits : List Char) : Nat :=
  digits.foldl (fun n c => n * 10 + digitValue c) 0

/--
Appends digits to a significand as long as it fits in 64 bits; the digits that
no longer fit are left over.
-/
def absorbDigits (significand : Nat) : List Char → Nat × List Char
  | [] => (significand, [])
  | c :: rest =>
    let next := significand * 10 + digitValue c
    if next < 0x10000000000000000 then absorbDigits next rest else (significand, c :: rest)

/-- The largest power of ten that a single step scales by. -/
def largestPower : Nat := 308

/--
The magnitude divided by a power of ten, in steps of at most `10 ^ 308`.  No
magnitude below `2 ^ 64` outlives two full steps.
-/
def scaleDown : Nat → Nat → Nat → Nat
  | 0, rank, _ => rank
  | steps + 1, rank, power =>
    if power ≤ largestPower then
      Binary64.quotientRank rank (Binary64.powerOfTenRank power)
    else
      scaleDown steps (Binary64.quotientRank rank (Binary64.powerOfTenRank largestPower))
        (power - largestPower)

/-- The magnitude of `significand * 10 ^ exponent`, unless it is too large. -/
def scaledRank? (significand : Nat) (exponent : Int) : Option Nat :=
  let rank := Binary64.naturalRank significand
  if exponent < 0 then
    some (scaleDown 3 rank exponent.natAbs)
  else if exponent.toNat ≤ largestPower then
    let product := Binary64.productRank rank (Binary64.powerOfTenRank exponent.toNat)
    if product < Binary64.infinityRank then some product else none
  else if rank = 0 then some 0
  else none

/-- The greatest exponent that is taken into account digit by digit. -/
def greatestExponent : Nat := 2147483647

/-- The binary64 number of a numeral, unless it is too large. -/
def Numeral.double? (n : Numeral) : Option Binary64 :=
  let (leading, dropped) := absorbDigits 0 n.whole
  let fraction := n.fraction.getD []
  let (significand, ignored) := absorbDigits leading fraction
  let point : Int := (dropped.length : Int) - ((fraction.length : Int) - ignored.length)
  let rank? :=
    match n.exponent with
    | none => scaledRank? significand point
    | some part =>
      let power := naturalOfDigits part.digits
      let below := part.mark.contains '-'
      if greatestExponent < power then
        if significand ≠ 0 ∧ !below then none else some 0
      else scaledRank? significand (if below then point - power else point + power)
  rank?.bind (Binary64.ofRank? n.negative)

/-- What the numeral means, unless it is too large. -/
def Numeral.value? (n : Numeral) : Option Number :=
  let asDouble := n.double?.map Number.double
  if n.fraction.isNone && n.exponent.isNone then
    let magnitude := naturalOfDigits n.whole
    if n.negative && magnitude == 0 then asDouble
    else
      match Number.ofInt? (if n.negative then -(magnitude : Int) else magnitude) with
      | some number => some number
      | none => asDouble
  else asDouble

/-! ## Written numbers -/

/-- Binary64 numbers are written plainly from `0.00001` to below `10 ^ 16`. -/
def doubleLayout : Layout where
  lowestPlain := -5
  highestPlain := 15
  pointBeforeExponent := false
  exponentDigits := 1

/-- The text of a binary64 number: the fewest digits that lie nearest to it. -/
def doubleText (x : Binary64) : List Char :=
  (if x.negative then ['-'] else []) ++ doubleLayout.write (Binary64.shortest x.rank)

/-- The text of an integer. -/
def integerText (n : Int) : List Char :=
  (if n < 0 then ['-'] else []) ++ decimalDigits n.natAbs

/-- The text of a number. -/
def Number.text : Number → List Char
  | .integer n _ _ => integerText n
  | .double x => doubleText x

/-- The number as a binary64 number; integers are rounded. -/
def Number.toDouble : Number → Binary64
  | .integer n _ _ => Binary64.ofInt n
  | .double x => x

end FeedbackBoard.Json
