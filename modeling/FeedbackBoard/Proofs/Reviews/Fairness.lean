import FeedbackBoard.Proofs.Reviews.ExactScore
import Mathlib.Order.Interval.Set.UnorderedInterval
import Mathlib.Order.Monotone.Basic

/-!
# Fair scores

Without rounding the formula of the score treats votes fairly: a positive vote
raises a score and a negative vote lowers it, however many votes there are.
Votes turned around turn the score around at one half, and a score never leaves
the way from one half to the plain share of positive votes.

Main results:

- `exactScore_lt_succ_positive`, `exactScore_succ_negative_lt`: what one more vote does.
- `exactScore_add_swap`: votes turned around.
- `exactScore_fair`: all laws of the formula, and the order after rounding.
-/

namespace FeedbackBoard

variable (p q : Nat)

/-! ## Turning votes around -/

/-- Scores of votes turned around lie opposite to each other. -/
theorem exactScore_add_swap : exactScore p (p + q) + exactScore q (q + p) = 1 := by
  rw [exactScore_add, exactScore_add, add_comm (q : ℚ) p]
  ring

/-! ## One more vote -/

/-- One more positive vote raises a score. -/
theorem exactScore_lt_succ_positive :
    exactScore p (p + q) < exactScore (p + 1) (p + 1 + q) := by
  rw [exactScore_add, exactScore_add, add_lt_add_iff_left, div_lt_div_iff₀ (by positivity)
    (by positivity), ← sub_pos]
  push_cast
  -- The weight of the surplus may fall, but never as much as the surplus grows.
  have hgain : ((p : ℚ) + 1 + q) * (p + 1 - q) * (2 * ((p + q + 1) * (p + q + 10))) -
      (p + q) * (p - q) * (2 * ((p + 1 + q + 1) * (p + 1 + q + 10))) =
        2 * (2 * q * (p + q) ^ 2 + (p + q) * (11 * p + 13 * q) + 31 * p + 11 * q + 10) := by
    ring
  rw [hgain]
  positivity

/-- One more negative vote lowers a score. -/
theorem exactScore_succ_negative_lt :
    exactScore p (p + (q + 1)) < exactScore p (p + q) := by
  have hraise := exactScore_lt_succ_positive q p
  have hbefore := exactScore_add_swap p q
  have hafter := exactScore_add_swap p (q + 1)
  linarith

theorem strictMono_exactScore : StrictMono fun p => exactScore p (p + q) :=
  strictMono_nat_of_lt_succ fun p => exactScore_lt_succ_positive p q

theorem strictAnti_exactScore : StrictAnti fun q => exactScore p (p + q) :=
  strictAnti_nat_of_succ_lt fun q => exactScore_succ_negative_lt p q

/-- No fewer positive votes and no more negative votes give no lower score. -/
theorem exactScore_le {p q p' q' : Nat} (hp : p' ≤ p) (hq : q ≤ q') :
    exactScore p' (p' + q') ≤ exactScore p (p + q) :=
  ((strictMono_exactScore q').monotone hp).trans ((strictAnti_exactScore p).antitone hq)

/-- The score is greater unless the votes are the same. -/
theorem exactScore_lt {p q p' q' : Nat} (hp : p' ≤ p) (hq : q ≤ q')
    (hne : ¬ (p = p' ∧ q = q')) : exactScore p' (p' + q') < exactScore p (p + q) := by
  rcases Nat.lt_or_eq_of_le hp with hlt | rfl
  · exact (strictMono_exactScore q' hlt).trans_le (exactScore_le (Nat.le_refl p) hq)
  · exact strictAnti_exactScore p' (Nat.lt_of_le_of_ne hq fun heq => hne ⟨rfl, heq⟩)

/-! ## Bounds -/

theorem exactScore_pos : 0 < exactScore p (p + q) := by
  rw [exactScore_eq]
  positivity

theorem exactScore_lt_one : exactScore p (p + q) < 1 := by
  have hswap := exactScore_add_swap p q
  have hpos := exactScore_pos q p
  linarith

/-- A score lies between one half and the share of positive votes. -/
theorem exactScore_mem_uIcc (h : 1 ≤ p + q) :
    exactScore p (p + q) ∈ Set.uIcc (1 / 2 : ℚ) (p / (p + q)) := by
  have hvotes : (0 : ℚ) < p + q := by exact_mod_cast h
  -- The score goes only a part of the way from one half to the share.
  have hpart : exactScore p (p + q) = 1 / 2 + (p + q) ^ 2 / ((p + q + 1) * (p + q + 10)) *
      ((p : ℚ) / (p + q) - 1 / 2) := by
    rw [exactScore_add]
    field_simp
    ring
  have hnonneg : (0 : ℚ) ≤ (p + q) ^ 2 / ((p + q + 1) * (p + q + 10)) := by positivity
  have hle : ((p : ℚ) + q) ^ 2 / ((p + q + 1) * (p + q + 10)) ≤ 1 := by
    rw [div_le_one (by positivity)]
    nlinarith
  rw [hpart, Set.mem_uIcc]
  rcases le_total (1 / 2 : ℚ) (p / (p + q)) with hmany | hfew
  · left
    constructor
    · nlinarith
    · nlinarith
  · right
    constructor
    · nlinarith
    · nlinarith

/-! ## All laws -/

/--
The score is computed with one formula, and in exact arithmetic the formula is fair: no
fewer positive and no more negative votes give no lower score, and a greater one unless
the votes are the same; scores lie between zero and one, and those of votes turned
around add up to one; a score lies between one half and the share of positive votes.
After rounding to four places no fewer positive and no more negative votes still give
no lower score.
-/
theorem exactScore_fair (p q : Nat) :
    confidenceRank p (p + q) = ScoreArithmetic.binary64.confidence p (p + q) ∧
      exactScore p (p + q) = ScoreArithmetic.rational.confidence p (p + q) ∧
      (∀ p' q', p' ≤ p → q ≤ q' →
        exactScore p' (p' + q') ≤ exactScore p (p + q) ∧
          (¬ (p = p' ∧ q = q') → exactScore p' (p' + q') < exactScore p (p + q)) ∧
          roundedScore (exactScore p' (p' + q')) ≤ roundedScore (exactScore p (p + q))) ∧
      0 < exactScore p (p + q) ∧ exactScore p (p + q) < 1 ∧
      exactScore p (p + q) + exactScore q (q + p) = 1 ∧
      (1 ≤ p + q → exactScore p (p + q) ∈ Set.uIcc (1 / 2 : ℚ) (p / (p + q))) := by
  refine ⟨confidenceRank_eq p (p + q), rfl, fun p' q' hp hq => ?_, exactScore_pos p q,
    exactScore_lt_one p q, exactScore_add_swap p q, exactScore_mem_uIcc p q⟩
  exact ⟨exactScore_le hp hq, exactScore_lt hp hq, roundedScore_mono (exactScore_le hp hq)⟩

/-- One vote more for a model with fourteen positive votes and one negative vote. -/
theorem exactScore_fair_one_more :
    14 ≤ 15 ∧ 1 ≤ 1 ∧ ¬ (15 = 14 ∧ 1 = 1) ∧ 1 ≤ 15 + 1 ∧
      exactScore 14 (14 + 1) < exactScore 15 (15 + 1) ∧
      roundedScore (exactScore 14 (14 + 1)) ≤ roundedScore (exactScore 15 (15 + 1)) ∧
      exactScore 15 (15 + 1) ∈ Set.uIcc (1 / 2 : ℚ) ((15 : Nat) / ((15 : Nat) + (1 : Nat))) := by
  obtain ⟨-, -, hmore, -, -, -, hbetween⟩ := exactScore_fair 15 1
  have hvotes := hmore 14 1 (by decide) (by decide)
  exact ⟨by decide, by decide, by decide, by decide, hvotes.2.1 (by decide), hvotes.2.2,
    hbetween (by decide)⟩

end FeedbackBoard
