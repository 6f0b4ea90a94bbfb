import FeedbackBoard.Reviews.Score
import Mathlib.Data.Rat.Floor
import Mathlib.Tactic.FieldSimp
import Mathlib.Tactic.Linarith
import Mathlib.Tactic.Ring

/-!
# Exact scores

The formula of a score is one expression over an arithmetic.  Scores are computed
with it in binary64 arithmetic; in rational arithmetic it gives the exact score,
which differs from one half by the surplus of positive votes, weighted by how many
votes there are.

Main definitions:

- `ScoreArithmetic`, `ScoreArithmetic.confidence`: the formula over an arithmetic.
- `exactScore`: the score in rational arithmetic.
- `roundHalfAway`, `roundedScore`: rounding to whole numbers and to four places.

Main results:

- `confidenceRank_eq`: scores are computed with this formula.
- `exactScore_add`: the exact score as a deviation from one half.
- `roundHalfAway_mono`: rounding keeps the order.
-/

namespace FeedbackBoard

/-! ## The formula -/

/-- The operations that scores are made of. -/
structure ScoreArithmetic (α : Type) where
  natural : Nat → α
  half : α
  sum : α → α → α
  product : α → α → α
  quotient : α → α → α

namespace ScoreArithmetic

variable {α : Type} (arithmetic : ScoreArithmetic α)

/-- The share of positive votes, smoothed toward one half. -/
def smoothed (positive total : Nat) : α :=
  arithmetic.quotient (arithmetic.sum (arithmetic.natural positive) arithmetic.half)
    (arithmetic.sum (arithmetic.natural total) (arithmetic.natural 1))

/-- The score of `positive` votes out of `total`. -/
def confidence (positive total : Nat) : α :=
  let votes := arithmetic.natural total
  let prior := arithmetic.natural priorWeight
  let all := arithmetic.sum votes prior
  arithmetic.sum
    (arithmetic.product (arithmetic.quotient votes all) (arithmetic.smoothed positive total))
    (arithmetic.product (arithmetic.quotient prior all) arithmetic.half)

/-- Every operation is rounded once. -/
def binary64 : ScoreArithmetic Nat where
  natural := Binary64.naturalRank
  half := Binary64.ratioRank 1 2
  sum := Binary64.sumRank
  product := Binary64.productRank
  quotient := Binary64.quotientRank

/-- Every operation is exact. -/
def rational : ScoreArithmetic ℚ where
  natural n := n
  half := 1 / 2
  sum x y := x + y
  product x y := x * y
  quotient x y := x / y

end ScoreArithmetic

/-- Scores are computed with the formula in binary64 arithmetic. -/
theorem confidenceRank_eq (positive total : Nat) :
    confidenceRank positive total = ScoreArithmetic.binary64.confidence positive total := by
  simp only [confidenceRank, smoothedRank, neutralRank, ScoreArithmetic.confidence,
    ScoreArithmetic.smoothed, ScoreArithmetic.binary64]

/-- The score of `positive` votes out of `total`, without any rounding. -/
def exactScore (positive total : Nat) : ℚ :=
  ScoreArithmetic.rational.confidence positive total

theorem exactScore_eq (positive total : Nat) :
    exactScore positive total =
      total / (total + 10) * ((positive + 1 / 2) / (total + 1)) + 10 / (total + 10) * (1 / 2) := by
  simp only [exactScore, ScoreArithmetic.confidence, ScoreArithmetic.smoothed,
    ScoreArithmetic.rational, priorWeight, Nat.cast_one, Nat.cast_ofNat]

/-- A score differs from one half by the surplus of positive votes, weighted by their number. -/
theorem exactScore_add (positive negative : Nat) :
    exactScore positive (positive + negative) =
      1 / 2 + ((positive : ℚ) + negative) * (positive - negative) /
        (2 * ((positive + negative + 1) * (positive + negative + 10))) := by
  have hone : (positive : ℚ) + negative + 1 ≠ 0 := by positivity
  have hten : (positive : ℚ) + negative + 10 ≠ 0 := by positivity
  rw [exactScore_eq, Nat.cast_add]
  field_simp
  ring

/-! ## Rounding -/

/-- The nearest whole number, a half going away from zero. -/
def roundHalfAway (x : ℚ) : ℤ :=
  if x < 0 then -⌊1 / 2 - x⌋ else ⌊x + 1 / 2⌋

theorem roundHalfAway_of_nonneg {x : ℚ} (h : 0 ≤ x) : roundHalfAway x = ⌊x + 1 / 2⌋ :=
  if_neg (not_lt.mpr h)

/-- Rounding a ratio is one division. -/
theorem roundHalfAway_div (a : Nat) {b : Nat} (hb : 0 < b) :
    roundHalfAway ((a : ℚ) / b) = ((2 * a + b) / (2 * b) : Nat) := by
  have hpos : (0 : ℚ) < b := Nat.cast_pos.mpr hb
  have hsum : (a : ℚ) / b + 1 / 2 = (2 * a + b : Nat) / (2 * b : Nat) := by
    push_cast
    field_simp
  rw [roundHalfAway_of_nonneg (div_nonneg (Nat.cast_nonneg a) hpos.le), hsum,
    Rat.floor_natCast_div_natCast, ← Int.natCast_ediv]

/-- A number changes by at most one half when it is rounded. -/
theorem abs_roundHalfAway_sub_le {x : ℚ} (h : 0 ≤ x) : |(roundHalfAway x : ℚ) - x| ≤ 1 / 2 := by
  rw [roundHalfAway_of_nonneg h, abs_le]
  have hle := Int.floor_le (x + 1 / 2)
  have hlt := Int.lt_floor_add_one (x + 1 / 2)
  constructor <;> linarith

/-- Numbers round to the same one if no half-way point lies between them. -/
theorem roundHalfAway_eq_of_abs_sub_le {x y d : ℚ} (hx : 0 ≤ x) (hy : 0 ≤ y) (hxy : |x - y| ≤ d)
    (hfar : ∀ m : ℤ, d < |m + 1 / 2 - y|) : roundHalfAway x = roundHalfAway y := by
  rw [roundHalfAway_of_nonneg hx, roundHalfAway_of_nonneg hy, Int.floor_eq_iff]
  have hle := Int.floor_le (y + 1 / 2)
  have hlt := Int.lt_floor_add_one (y + 1 / 2)
  have hbelow := hfar (⌊y + 1 / 2⌋ - 1)
  have habove := hfar ⌊y + 1 / 2⌋
  push_cast at hbelow
  rw [abs_of_nonpos (by linarith)] at hbelow
  rw [abs_of_nonneg (by linarith)] at habove
  obtain ⟨hlower, hupper⟩ := abs_le.mp hxy
  constructor <;> linarith

/-- Rounding keeps the order. -/
theorem roundHalfAway_mono {x y : ℚ} (h : x ≤ y) : roundHalfAway x ≤ roundHalfAway y := by
  rw [roundHalfAway, roundHalfAway]
  split_ifs with hx hy hy
  · exact Int.neg_le_neg (Int.floor_mono (by linarith))
  · -- A half on either side of zero keeps the two results apart.
    have hbelow : (0 : ℤ) ≤ ⌊1 / 2 - x⌋ := Int.floor_nonneg.mpr (by linarith)
    have habove : (0 : ℤ) ≤ ⌊y + 1 / 2⌋ := Int.floor_nonneg.mpr (by linarith)
    omega
  · exact absurd (h.trans_lt hy) hx
  · exact Int.floor_mono (by linarith)

/-- The score with four places, a half going away from zero. -/
def roundedScore (x : ℚ) : ℚ :=
  roundHalfAway (x * scoreSteps) / scoreSteps

/-- Rounding to four places keeps the order. -/
theorem roundedScore_mono {x y : ℚ} (h : x ≤ y) : roundedScore x ≤ roundedScore y := by
  have hsteps : (0 : ℚ) ≤ scoreSteps := Nat.cast_nonneg _
  have hround : roundHalfAway (x * scoreSteps) ≤ roundHalfAway (y * scoreSteps) :=
    roundHalfAway_mono (mul_le_mul_of_nonneg_right h hsteps)
  exact div_le_div_of_nonneg_right (Int.cast_le.mpr hround) hsteps

end FeedbackBoard
