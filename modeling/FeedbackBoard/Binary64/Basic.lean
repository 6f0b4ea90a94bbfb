/-!
# Binary64 numbers

A finite binary64 number is a sign and a *rank*: the numbers with a positive
sign are counted upward from zero, so rank `0` is zero, rank `1` the smallest
positive number, and the rank is also what the format stores in its low 63
bits.  Every magnitude is a whole number of *units* of `2 ^ (-1074)`, hence all
arithmetic below is exact natural-number arithmetic followed by one rounding.

Main definitions:

- `Binary64.units`: the magnitude of a rank, counted in units.
- `Binary64.nearestRank`: the rank nearest to a ratio of units, ties to even.
- `Binary64.sumRank`, `Binary64.productRank`, `Binary64.quotientRank`: exact
  result, then one rounding.
- `Binary64.totalOrder`: the order in which minus zero lies below plus zero.
-/

namespace FeedbackBoard

/-- A power of two. -/
def powerOfTwo (n : Nat) : Nat := Nat.pow 2 n

/-- A power of ten. -/
def powerOfTen (n : Nat) : Nat := Nat.pow 10 n

/-- How many numbers lie in a binade: `2 ^ 52`. -/
def Binary64.binadeSize : Nat := 0x10000000000000

/-- The first rank past the finite numbers, below which 2047 binades lie. -/
def Binary64.infinityRank : Nat := 2047 * 0x10000000000000

/-- A finite binary64 number. -/
structure Binary64 where
  /-- Whether the sign is minus; zero has both signs. -/
  negative : Bool
  /-- How many numbers of the format lie between zero and the magnitude. -/
  rank : Nat
  rank_lt : rank < Binary64.infinityRank
deriving DecidableEq

namespace Binary64

instance : Inhabited Binary64 := ⟨⟨false, 0, by decide⟩⟩

/-! ## Magnitudes as whole numbers -/

/-- One, counted in units. -/
def one : Nat := powerOfTwo 1074

/-- The magnitude of the number with this rank, in units. -/
def units (rank : Nat) : Nat :=
  if rank < binadeSize then rank
  else (binadeSize + rank % binadeSize) * powerOfTwo (rank / binadeSize - 1)

/-- The whole number nearest to `num / den`, a half going to the even neighbour. -/
def roundHalfEven (num den : Nat) : Nat :=
  let quotient := num / den
  let remainder := num % den
  if 2 * remainder < den then quotient
  else if den < 2 * remainder then quotient + 1
  else quotient + quotient % 2

/--
The rank of the number nearest to `num / den` units, a half going to the even
neighbour.  The exponent is not bounded here: a result at or past
`infinityRank` has overflowed.
-/
def nearestRank (num den : Nat) : Nat :=
  let shift := (num / den).log2 - 52
  shift * binadeSize + roundHalfEven num (den * powerOfTwo shift)

/-! ## Arithmetic on ranks -/

/-- The rank nearest to the ratio `num / den`. -/
def ratioRank (num den : Nat) : Nat :=
  nearestRank (num * one) den

/-- The rank nearest to a natural number. -/
def naturalRank (n : Nat) : Nat :=
  ratioRank n 1

/-- The rank nearest to the exact sum. -/
def sumRank (a b : Nat) : Nat :=
  nearestRank (units a + units b) 1

/-- The rank nearest to the exact product. -/
def productRank (a b : Nat) : Nat :=
  nearestRank (units a * units b) one

/-- The rank nearest to the exact quotient. -/
def quotientRank (a b : Nat) : Nat :=
  nearestRank (units a * one) (units b)

/-- The rank nearest to a power of ten. -/
def powerOfTenRank (n : Nat) : Nat :=
  naturalRank (powerOfTen n)

/-! ## Numbers -/

/-- The number with this sign and rank, unless the rank has overflowed. -/
def ofRank? (negative : Bool) (rank : Nat) : Option Binary64 :=
  if h : rank < infinityRank then some ⟨negative, rank, h⟩ else none

/-- The number with this sign and rank; an overflowed rank gives the largest finite number. -/
def ofRank (negative : Bool) (rank : Nat) : Binary64 :=
  if h : rank < infinityRank then ⟨negative, rank, h⟩
  else ⟨negative, infinityRank - 1, by decide⟩

/-- The number nearest to an integer; integers of 64 bits never overflow. -/
def ofInt (n : Int) : Binary64 :=
  ofRank (decide (n < 0)) (naturalRank n.natAbs)

/-- The 64 bits of the number, as a natural number. -/
def bits (x : Binary64) : Nat :=
  if x.negative then 0x8000000000000000 + x.rank else x.rank

/-- The total order of the format: by value, and minus zero below plus zero. -/
def totalOrder (x y : Binary64) : Ordering :=
  match x.negative, y.negative with
  | true, false => .lt
  | false, true => .gt
  | false, false => compare x.rank y.rank
  | true, true => compare y.rank x.rank

/-! ## Small laws -/

@[simp]
theorem ofRank?_rank (x : Binary64) : ofRank? x.negative x.rank = some x := by
  simp [ofRank?, x.rank_lt]

@[simp]
theorem ofRank_rank (x : Binary64) : ofRank x.negative x.rank = x := by
  simp [ofRank, x.rank_lt]

theorem totalOrder_self (x : Binary64) : totalOrder x x = .eq := by
  cases h : x.negative <;> simp [totalOrder, h]

end Binary64

end FeedbackBoard
