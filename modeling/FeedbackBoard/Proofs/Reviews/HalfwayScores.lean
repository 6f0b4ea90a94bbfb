import FeedbackBoard.Proofs.Reviews.ScoreAccuracy
import Mathlib.Algebra.Order.Ring.Int
import Mathlib.RingTheory.Coprime.Lemmas
import Mathlib.RingTheory.Int.Basic
import Mathlib.Tactic.LinearCombination

/-!
# Scores half-way between two steps

An exact score of `n` votes, counted in steps, lies half-way between two whole numbers
only if `(n + 1) * (n + 10)` divides `100000` times the surplus of positive votes.  The
surplus is at most `n`, so few totals are possible, and they are found by trying.

Main definitions:

- `IsHalfway`: a rational half-way between two whole numbers.
- `halfwayVotes`: the votes with such a score, as their positive ones and their total.

Main results:

- `exactSteps_add`: the exact score in steps.
- `mem_halfwayVotes`: these are all votes with a score half-way between two steps.
-/

namespace FeedbackBoard

/-- The rational lies half-way between two whole numbers. -/
def IsHalfway (x : ℚ) : Prop :=
  ∃ m : ℤ, x = m + 1 / 2

/-- The score in steps, as a deviation from five thousand. -/
theorem exactSteps_add (positive negative : Nat) :
    exactSteps positive (positive + negative) =
      5000 + 5000 * (((positive : ℚ) + negative) * (positive - negative)) /
        ((positive + negative + 1) * (positive + negative + 10)) := by
  rw [exactSteps, exactScore_add, scoreSteps, Nat.cast_ofNat]
  field_simp
  ring

/-! ## Divisibility -/

section Divisibility

variable {n d t : ℤ}

/-- The equation of a score half-way between two steps, over the votes and their surplus. -/
theorem exists_halfway_equation {p q : Nat} (h : IsHalfway (exactSteps p (p + q))) :
    ∃ t : ℤ, 10000 * (((p : ℤ) + q) * (p - q)) =
      (2 * t + 1) * (((p : ℤ) + q + 1) * (p + q + 10)) := by
  obtain ⟨m, hm⟩ := h
  have hweight : ((p : ℚ) + q + 1) * (p + q + 10) ≠ 0 := by positivity
  refine ⟨m - 5000, ?_⟩
  rw [exactSteps_add, ← eq_sub_iff_add_eq', div_eq_iff hweight] at hm
  apply Int.cast_injective (α := ℚ)
  push_cast
  linear_combination 2 * hm

theorem weight_dvd (h : 10000 * (n * d) = (2 * t + 1) * ((n + 1) * (n + 10))) :
    (n + 1) * (n + 10) ∣ 100000 * d :=
  ⟨10000 * d - (n + 11) * (2 * t + 1), by linear_combination -(n + 11) * h⟩

/-- With an odd number of votes the equation fixes the number up to a multiple of 32. -/
theorem emod_of_odd (hn : Odd n) (hd : Odd d)
    (h : 10000 * (n * d) = (2 * t + 1) * ((n + 1) * (n + 10))) : n % 32 = 15 := by
  have hodd : Odd ((2 * t + 1) * (n + 10)) :=
    (odd_two_mul_add_one t).mul (hn.add_even (by decide))
  have hcoprime : IsCoprime (2 ^ 4 : ℤ) ((2 * t + 1) * (n + 10)) :=
    (Int.isCoprime_two_left.mpr hodd).pow_left
  obtain ⟨c, hc⟩ : (2 ^ 4 : ℤ) ∣ n + 1 := by
    refine hcoprime.dvd_of_dvd_mul_left ⟨625 * (n * d), ?_⟩
    linear_combination -h
  have hrest : 625 * (n * d) = (2 * t + 1) * (n + 10) * c := by
    apply mul_left_cancel₀ (by norm_num : (16 : ℤ) ≠ 0)
    linear_combination h + (2 * t + 1) * (n + 10) * hc
  have hproduct : Odd ((2 * t + 1) * (n + 10) * c) :=
    hrest ▸ (by decide : Odd (625 : ℤ)).mul (hn.mul hd)
  obtain ⟨e, rfl⟩ := (Int.odd_mul.mp hproduct).2
  omega

/-- With an even number of votes the equation fixes the number up to a multiple of 64. -/
theorem emod_of_even (hn : Even n) (hd : Even d)
    (h : 10000 * (n * d) = (2 * t + 1) * ((n + 1) * (n + 10))) : n % 64 = 54 := by
  have hodd : Odd ((2 * t + 1) * (n + 1)) :=
    (odd_two_mul_add_one t).mul hn.add_one
  have hcoprime : IsCoprime (2 ^ 6 : ℤ) ((2 * t + 1) * (n + 1)) :=
    (Int.isCoprime_two_left.mpr hodd).pow_left
  obtain ⟨a, ha⟩ := hn
  obtain ⟨b, hb⟩ := hd
  obtain ⟨c, hc⟩ : (2 ^ 6 : ℤ) ∣ n + 10 := by
    refine hcoprime.dvd_of_dvd_mul_left ⟨625 * (a * b), ?_⟩
    rw [ha, hb] at h
    rw [ha]
    linear_combination -h
  omega

end Divisibility

/-! ## Few totals -/

/-- What the totals with a score half-way between two steps fulfil. -/
def admitsHalfway (total : Nat) : Bool :=
  (total + 1) * (total + 10) ≤ Nat.gcd ((total + 1) * (total + 10)) 100000 * total

/-- The totals with a score half-way between two steps. -/
def halfwayTotals : List Nat :=
  [15, 54, 374, 1615, 5615]

theorem mem_halfwayTotals_of_odd :
    ∀ m ∈ List.range 3125, admitsHalfway (32 * m + 15) → 32 * m + 15 ∈ halfwayTotals := by
  decide +kernel

theorem mem_halfwayTotals_of_even :
    ∀ m ∈ List.range 1563, admitsHalfway (64 * m + 54) → 64 * m + 54 ∈ halfwayTotals := by
  decide +kernel

section Totals

variable {p q : Nat}

/-- The surplus of positive votes is no greater than their number, and not zero. -/
theorem admitsHalfway_of_isHalfway (h : IsHalfway (exactSteps p (p + q))) :
    admitsHalfway (p + q) = true := by
  obtain ⟨t, ht⟩ := exists_halfway_equation h
  have hsurplus : ((p : ℤ) - q).natAbs ≤ p + q := by omega
  have hne : (p : ℤ) - q ≠ 0 := by
    intro hzero
    have hweight : ((p : ℤ) + q + 1) * (p + q + 10) ≠ 0 := by positivity
    rw [hzero, mul_zero, mul_zero, eq_comm, mul_eq_zero] at ht
    rcases ht with hodd | hnone
    · omega
    · exact hweight hnone
  have hdvd : (p + q + 1) * (p + q + 10) ∣ 100000 * ((p : ℤ) - q).natAbs := by
    have hint := Int.natAbs_dvd_natAbs.mpr (weight_dvd ht)
    rw [Int.natAbs_mul, Int.natAbs_mul] at hint
    exact hint
  have hgcd : (p + q + 1) * (p + q + 10) ∣
      Nat.gcd ((p + q + 1) * (p + q + 10)) 100000 * ((p : ℤ) - q).natAbs := by
    rw [← Nat.gcd_mul_right]
    exact Nat.dvd_gcd (Nat.dvd_mul_right _ _) hdvd
  have hpos : 0 < Nat.gcd ((p + q + 1) * (p + q + 10)) 100000 * ((p : ℤ) - q).natAbs :=
    Nat.mul_pos (Nat.gcd_pos_of_pos_right _ (by decide)) (Int.natAbs_pos.mpr hne)
  rw [admitsHalfway, decide_eq_true_iff]
  exact (Nat.le_of_dvd hpos hgcd).trans (Nat.mul_le_mul_left _ hsurplus)

theorem lt_of_admitsHalfway {total : Nat} (h : admitsHalfway total = true) : total < 100000 := by
  rw [admitsHalfway, decide_eq_true_iff] at h
  have hgcd : Nat.gcd ((total + 1) * (total + 10)) 100000 ≤ 100000 :=
    Nat.gcd_le_right _ (by decide)
  have hle := h.trans (Nat.mul_le_mul_right total hgcd)
  by_contra hlarge
  nlinarith

/-- Few totals have a score half-way between two steps. -/
theorem mem_halfwayTotals (h : IsHalfway (exactSteps p (p + q))) : p + q ∈ halfwayTotals := by
  have hadmits := admitsHalfway_of_isHalfway h
  have hlt := lt_of_admitsHalfway hadmits
  obtain ⟨t, ht⟩ := exists_halfway_equation h
  rcases Int.even_or_odd ((p : ℤ) + q) with heven | hodd
  · have hsurplus : Even ((p : ℤ) - q) := by
      rwa [Int.even_sub, ← Int.even_add]
    have hmod := emod_of_even heven hsurplus ht
    have htotal : p + q = 64 * ((p + q) / 64) + 54 := by omega
    rw [htotal] at hadmits ⊢
    exact mem_halfwayTotals_of_even _ (List.mem_range.mpr (by omega)) hadmits
  · have hsurplus : Odd ((p : ℤ) - q) := by
      rwa [Int.odd_sub, ← Int.odd_add]
    have hmod := emod_of_odd hodd hsurplus ht
    have htotal : p + q = 32 * ((p + q) / 32) + 15 := by omega
    rw [htotal] at hadmits ⊢
    exact mem_halfwayTotals_of_odd _ (List.mem_range.mpr (by omega)) hadmits

end Totals

/-! ## Few votes -/

/-- What the weights of a score have in common as a denominator. -/
def stepsDenominator (total : Nat) : Nat :=
  (total + 1) * (total + 10)

/-- The score in steps, over its denominator. -/
def stepsNumerator (positive total : Nat) : Nat :=
  5000 * (total * (2 * positive + 1) + 10 * (total + 1))

theorem stepsDenominator_pos (total : Nat) : 0 < stepsDenominator total :=
  Nat.mul_pos (Nat.succ_pos _) (Nat.succ_pos _)

theorem exactSteps_eq_div (positive total : Nat) :
    exactSteps positive total = stepsNumerator positive total / stepsDenominator total := by
  rw [exactSteps, exactScore_eq, scoreSteps, stepsNumerator, stepsDenominator]
  push_cast
  field_simp
  ring

/-- The exact score, rounded to a whole number of steps. -/
def roundedSteps (positive total : Nat) : Nat :=
  (2 * stepsNumerator positive total + stepsDenominator total) / (2 * stepsDenominator total)

theorem roundHalfAway_exactSteps (positive total : Nat) :
    roundHalfAway (exactSteps positive total) = roundedSteps positive total := by
  rw [exactSteps_eq_div, roundHalfAway_div _ (stepsDenominator_pos total), roundedSteps]

/-- What remains of a score half-way between two steps. -/
theorem mod_of_isHalfway {positive total : Nat} (h : IsHalfway (exactSteps positive total)) :
    2 * stepsNumerator positive total % (2 * stepsDenominator total) = stepsDenominator total := by
  obtain ⟨m, hm⟩ := h
  have hpos := stepsDenominator_pos total
  have hcast : (0 : ℚ) < stepsDenominator total := Nat.cast_pos.mpr hpos
  rw [exactSteps_eq_div, div_eq_iff hcast.ne'] at hm
  have hint : (2 * stepsNumerator positive total : ℤ) =
      stepsDenominator total + 2 * stepsDenominator total * m := by
    apply Int.cast_injective (α := ℚ)
    push_cast
    linear_combination 2 * hm
  zify
  rw [hint, Int.add_mul_emod_self_left]
  exact Int.emod_eq_of_lt (by positivity) (by omega)

/-- The votes with a score half-way between two steps: the positive ones, and all. -/
def halfwayVotes : List (Nat × Nat) :=
  (List.range 16).map (·, 15) ++ [16, 38].map (·, 54) ++
    [25, 61, 97, 133, 169, 205, 241, 277, 313, 349].map (·, 374) ++
    [151, 1464].map (·, 1615) ++ [1228, 4387].map (·, 5615)

/-- The votes are tried in rows of one hundred. -/
theorem mem_halfwayVotes_of_mod : ∀ total ∈ halfwayTotals,
    ∀ row ∈ List.range (total / 100 + 1), ∀ place ∈ List.range 100,
      100 * row + place ≤ total →
      2 * stepsNumerator (100 * row + place) total % (2 * stepsDenominator total) =
        stepsDenominator total →
      (100 * row + place, total) ∈ halfwayVotes := by
  decide +kernel

/-- These are all votes with a score half-way between two steps. -/
theorem mem_halfwayVotes {positive total : Nat} (hpositive : positive ≤ total)
    (h : IsHalfway (exactSteps positive total)) : (positive, total) ∈ halfwayVotes := by
  have hmod := mod_of_isHalfway h
  obtain ⟨negative, rfl⟩ := Nat.exists_eq_add_of_le hpositive
  have htotal := mem_halfwayTotals h
  have hplace : 100 * (positive / 100) + positive % 100 = positive := Nat.div_add_mod _ _
  have hrow : positive / 100 < (positive + negative) / 100 + 1 :=
    Nat.lt_succ_of_le (Nat.div_le_div_right hpositive)
  have hfound := mem_halfwayVotes_of_mod _ htotal (positive / 100) (List.mem_range.mpr hrow)
    (positive % 100) (List.mem_range.mpr (by omega))
  rw [hplace] at hfound
  exact hfound hpositive hmod

end FeedbackBoard
