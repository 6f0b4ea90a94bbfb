import FeedbackBoard.Proofs.Binary64.Accuracy
import FeedbackBoard.Proofs.Reviews.Fairness

/-!
# Accuracy of scores

The computed score differs from the exact one by at most six roundings.  The score in
steps of one ten thousandth, which is then rounded to a whole number, has one rounding
more, so it is off by at most one part in `2 ^ 50`.

Main definitions:

- `scaledRank`, `exactSteps`: the score in steps, as computed and without any rounding.

Main results:

- `near_confidenceRank`: the computed score is near the exact one.
- `abs_scaledRank_sub_le`: by how much the score in steps is off.
-/

namespace FeedbackBoard

open Binary64

/-! ## Exact numbers -/

theorem value_naturalRank {n : Nat} (h : n ≤ 2 ^ 53) : value (naturalRank n) = n := by
  rw [value, units_naturalRank h, Nat.cast_mul, mul_div_cancel_right₀ _ one_cast_pos.ne']

theorem near_naturalRank {n : Nat} (h : n ≤ 2 ^ 53) : Near 0 (value (naturalRank n)) n := by
  rw [value_naturalRank h]
  exact Near.refl _

theorem near_priorWeight : Near 0 (value (naturalRank priorWeight)) 10 := by
  have hprior := near_naturalRank (n := priorWeight) (by decide)
  rwa [priorWeight, Nat.cast_ofNat] at hprior

theorem near_half : Near 0 (value (ratioRank 1 2)) (1 / 2) := by
  have hunits : units (ratioRank 1 2) * 2 = one := by decide +kernel
  have hcast : (units (ratioRank 1 2) : ℚ) * (2 : Nat) = (one : ℚ) := by
    rw [← Nat.cast_mul, hunits]
  have hvalue : value (ratioRank 1 2) = 1 / 2 := by
    rw [value, div_eq_div_iff one_cast_pos.ne' two_ne_zero, one_mul, ← hcast, Nat.cast_ofNat]
  rw [hvalue]
  exact Near.refl _

/-- Sums of natural numbers are exact. -/
theorem sumRank_naturalRank {m n : Nat} (h : m + n ≤ 2 ^ 53) :
    sumRank (naturalRank m) (naturalRank n) = naturalRank (m + n) := by
  rw [sumRank, units_naturalRank (by omega), units_naturalRank (by omega), ← Nat.add_mul,
    naturalRank, ratioRank]

/-! ## The parts of a score -/

section Parts

variable {positive total : Nat}

theorem le_smoothed (htotal : total < 2 ^ 53) :
    (1 : ℚ) / 2 ^ 54 ≤ (positive + 1 / 2) / (total + 1) := by
  have hsize : (total : ℚ) + 1 ≤ 2 ^ 53 := by exact_mod_cast htotal
  have hnonneg : (0 : ℚ) ≤ positive := Nat.cast_nonneg _
  rw [div_le_div_iff₀ (by positivity) (by positivity)]
  linarith

theorem le_voteShare (hvoted : 1 ≤ total) : (1 : ℚ) / 11 ≤ total / (total + 10) := by
  have hone : (1 : ℚ) ≤ total := Nat.one_le_cast.mpr hvoted
  rw [div_le_div_iff₀ (by positivity) (by positivity)]
  linarith

theorem le_priorShare (htotal : total < 2 ^ 53) : (1 : ℚ) / 2 ^ 54 ≤ 10 / (total + 10) := by
  have hsize : (total : ℚ) + 1 ≤ 2 ^ 53 := by exact_mod_cast htotal
  rw [div_le_div_iff₀ (by positivity) (by positivity)]
  linarith

/-- The smoothed share is off by at most two roundings. -/
theorem near_smoothedRank (htotal : total < 2 ^ 53) (hpositive : positive ≤ total) :
    Near 2 (value (smoothedRank positive total)) ((positive + 1 / 2) / (total + 1)) := by
  have hnonneg : (0 : ℚ) ≤ positive := Nat.cast_nonneg _
  have hpos : (0 : ℚ) < total + 1 := by positivity
  have hvotes := near_naturalRank (n := positive) (by omega)
  have hsum := hvotes.sumRank near_half (by decide) (by linarith)
  have hall : Near 0 (value (sumRank (naturalRank total) (naturalRank 1))) (total + 1) := by
    rw [sumRank_naturalRank htotal, ← Nat.cast_add_one]
    exact near_naturalRank htotal
  refine hsum.quotientRank hall (by positivity) hpos (by decide) ?_
  exact le_trans (by norm_num) (le_smoothed htotal)

/-- The sum of votes and prior votes is off by at most one rounding. -/
theorem near_weightSum (htotal : total < 2 ^ 53) :
    Near 1 (value (sumRank (naturalRank total) (naturalRank priorWeight))) (total + 10) := by
  have hnonneg : (0 : ℚ) ≤ total := Nat.cast_nonneg _
  exact (near_naturalRank htotal.le).sumRank near_priorWeight (by decide) (by linarith)

/-- The part that the votes make up is off by at most five roundings. -/
theorem near_voted (hvoted : 1 ≤ total) (htotal : total < 2 ^ 53) (hpositive : positive ≤ total) :
    Near 5 (value (productRank (quotientRank (naturalRank total)
        (sumRank (naturalRank total) (naturalRank priorWeight))) (smoothedRank positive total)))
      (total / (total + 10) * ((positive + 1 / 2) / (total + 1))) := by
  have hall : (0 : ℚ) < total + 10 := by positivity
  have hshare := le_voteShare hvoted
  have hweight := (near_naturalRank htotal.le).quotientRank (near_weightSum htotal)
    (Nat.cast_nonneg total) hall (by decide) (le_trans (by norm_num) hshare)
  refine hweight.productRank (near_smoothedRank htotal hpositive) (by positivity) (by positivity)
    (by decide) ?_
  have hsmoothed : (1 : ℚ) / 2 ^ 54 ≤ (positive + 1 / 2) / (total + 1) := le_smoothed htotal
  have hproduct := mul_le_mul hshare hsmoothed (by positivity) (by positivity)
  exact le_trans (by norm_num) hproduct

theorem le_prior (htotal : total < 2 ^ 53) :
    (1 : ℚ) / 2 ^ 60 ≤ 10 / (total + 10) * (1 / 2) := by
  have hshare := le_priorShare htotal
  linarith

/-- The part that the neutral score makes up is off by at most three roundings. -/
theorem near_prior (htotal : total < 2 ^ 53) :
    Near 3 (value (productRank (quotientRank (naturalRank priorWeight)
        (sumRank (naturalRank total) (naturalRank priorWeight))) neutralRank))
      (10 / (total + 10) * (1 / 2)) := by
  have hall : (0 : ℚ) < total + 10 := by positivity
  have hweight := near_priorWeight.quotientRank (near_weightSum htotal) (by norm_num) hall
    (by decide) (le_trans (by norm_num) (le_priorShare htotal))
  exact hweight.productRank near_half (by positivity) (by norm_num) (by decide) (le_prior htotal)

end Parts

/-! ## The score -/

variable {positive total : Nat}

/-- The prior votes keep a score away from zero. -/
theorem le_exactScore (htotal : total < 2 ^ 53) : 1 / 2 ^ 60 ≤ exactScore positive total := by
  have hvotes : (0 : ℚ) ≤ total / (total + 10) * ((positive + 1 / 2) / (total + 1)) := by
    positivity
  have hprior := le_prior htotal
  rw [exactScore_eq]
  linarith

/-- The score is off by at most six roundings. -/
theorem near_confidenceRank (hvoted : 1 ≤ total) (htotal : total < 2 ^ 53)
    (hpositive : positive ≤ total) :
    Near 6 (value (confidenceRank positive total)) (exactScore positive total) := by
  have hvotes := near_voted hvoted htotal hpositive
  have hprior := (near_prior htotal).mono (by decide : 3 ≤ 5) (by positivity)
  have hlarge : 1 / 2 ^ 60 ≤ exactScore positive total := le_exactScore htotal
  rw [exactScore_eq] at hlarge ⊢
  exact hvotes.sumRank hprior (by decide) hlarge

/-- The score that is rounded to a whole number of steps. -/
def scaledRank (positive total : Nat) : Nat :=
  productRank (confidenceRank positive total) (naturalRank scoreSteps)

/-- The score in steps, without any rounding. -/
def exactSteps (positive total : Nat) : ℚ :=
  exactScore positive total * scoreSteps

theorem exactSteps_pos (hpositive : positive ≤ total) : 0 < exactSteps positive total := by
  obtain ⟨negative, rfl⟩ := Nat.exists_eq_add_of_le hpositive
  exact mul_pos (exactScore_pos positive negative) (Nat.cast_pos.mpr (by decide))

theorem exactSteps_lt (hpositive : positive ≤ total) : exactSteps positive total < 10000 := by
  obtain ⟨negative, rfl⟩ := Nat.exists_eq_add_of_le hpositive
  have hscore := exactScore_lt_one positive negative
  rw [exactSteps, scoreSteps, Nat.cast_ofNat]
  linarith

/-- The score in steps is off by at most one part in `2 ^ 50`. -/
theorem abs_scaledRank_sub_le (hvoted : 1 ≤ total) (htotal : total < 2 ^ 53)
    (hpositive : positive ≤ total) :
    |value (scaledRank positive total) - exactSteps positive total| ≤
      exactSteps positive total / 2 ^ 50 := by
  have hscore := near_confidenceRank hvoted htotal hpositive
  have hsteps := near_naturalRank (n := scoreSteps) (by decide)
  have hlarge : 1 / 2 ^ 60 ≤ exactScore positive total := le_exactScore htotal
  have hnonneg : 0 ≤ exactScore positive total := le_trans (by norm_num) hlarge
  have hmany : (1 : ℚ) ≤ scoreSteps := Nat.one_le_cast.mpr (by decide)
  have hnear := hscore.productRank hsteps hnonneg (Nat.cast_nonneg _) (by decide)
    (hlarge.trans (le_mul_of_one_le_right hnonneg hmany))
  exact hnear.abs_sub_le (exactSteps_pos hpositive).le

end FeedbackBoard
