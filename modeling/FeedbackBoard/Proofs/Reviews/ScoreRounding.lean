import FeedbackBoard.Proofs.Reviews.HalfwayScores
import FeedbackBoard.Proofs.Reviews.Ranking

/-!
# Rounded scores

A score on the leaderboard has four places: it is the number nearest to a whole number
of steps of one ten thousandth.  This number of steps comes from the computed score, so
it can only be wrong where the exact score is within the computed one's error of a
half-way point.  Up to 335000 votes an exact score is either half-way between two steps
or farther away than the error, and the scores half-way between two steps are looked at
one by one.

Main definitions:

- `computedSteps`: the number of steps on the leaderboard.
- `misroundedVotes`: the votes whose score is rounded down from a half-way point.

Main results:

- `isNearest_stepsRank`: a number of steps gives the number nearest to it.
- `leaderboard_score_isNearest`: how the scores of a leaderboard are rounded.
-/

namespace FeedbackBoard

open Binary64

/-! ## Whole numbers of steps -/

/-- The rank of a score of so many steps. -/
def stepsRank (steps : Nat) : Nat :=
  quotientRank (naturalRank steps) (naturalRank scoreSteps)

section Steps

variable {k : Nat}

theorem stepsRank_eq (h : k ≤ scoreSteps) :
    stepsRank k = nearestRank (k * one * one) (scoreSteps * one) := by
  have hsteps : scoreSteps ≤ 2 ^ 53 := by decide
  rw [stepsRank, quotientRank, units_naturalRank (h.trans hsteps), units_naturalRank hsteps]

/-- A score has at most the greatest number of steps, so it is at most one. -/
theorem steps_mul_le (h : k ≤ scoreSteps) : k * one * one ≤ one * (scoreSteps * one) := by
  rw [← Nat.mul_assoc, Nat.mul_comm one scoreSteps]
  exact Nat.mul_le_mul_right one (Nat.mul_le_mul_right one h)

theorem stepsRank_lt_infinityRank (h : k ≤ scoreSteps) : stepsRank k < infinityRank := by
  have hden : 0 < scoreSteps * one := Nat.mul_pos (by decide) Binary64.one_pos
  have hle : k * one * one ≤ units (naturalRank 1) * (scoreSteps * one) := by
    rw [units_naturalRank (by decide), Nat.one_mul]
    exact steps_mul_le h
  calc stepsRank k = nearestRank (k * one * one) (scoreSteps * one) := stepsRank_eq h
    _ ≤ nearestRank (units (naturalRank 1) * (scoreSteps * one)) (scoreSteps * one) :=
      nearestRank_mono hle
    _ = naturalRank 1 := nearestRank_units _ hden
    _ < infinityRank := by decide +kernel

theorem powerOfTwo_dvd_powerOfTwo {m n : Nat} (h : m ≤ n) : powerOfTwo m ∣ powerOfTwo n :=
  Nat.pow_dvd_pow 2 h

/-- The distances between the numbers up to one divide one, and many times. -/
theorem sixteen_mul_dvd_one {shift : Nat} (h : shift ≤ 1022) : 16 * powerOfTwo shift ∣ one := by
  have hpow : 16 * powerOfTwo shift = powerOfTwo (4 + shift) := by
    rw [powerOfTwo_eq, powerOfTwo_eq, Nat.pow_add]
  rw [hpow, one]
  exact powerOfTwo_dvd_powerOfTwo (by omega)

theorem shiftOf_steps_le (h : k ≤ scoreSteps) :
    shiftOf (k * one * one) (scoreSteps * one) ≤ 1022 := by
  have hden : 0 < scoreSteps * one := Nat.mul_pos (by decide) Binary64.one_pos
  refine (shiftOf_mono (steps_mul_le h)).trans ?_
  rw [shiftOf, Nat.mul_div_cancel _ hden, one, powerOfTwo_eq, Nat.log2_two_pow]

/-- No number of steps lies in the middle between two numbers of a fine grid. -/
theorem two_mul_abs_sub_ne {m step unit : Nat} (hstep : 0 < step) (hunit : 0 < unit)
    (hdvd : 16 * step ∣ unit) :
    2 * |((m * step : Nat) : ℚ) - (k * unit * unit : Nat) / (scoreSteps * unit : Nat)| ≠ step := by
  intro h
  obtain ⟨c, rfl⟩ := hdvd
  have hpos : (0 : ℚ) < step := Nat.cast_pos.mpr hstep
  have hc : (c : ℚ) ≠ 0 := by
    rintro hzero
    rw [Nat.cast_eq_zero.mp hzero, Nat.mul_zero] at hunit
    exact absurd hunit (Nat.lt_irrefl 0)
  have hdifference : ((m * step : Nat) : ℚ) -
      (k * (16 * step * c) * (16 * step * c) : Nat) / (scoreSteps * (16 * step * c) : Nat) =
        step / 10000 * ((10000 * m - 16 * (k * c) : ℤ) : ℚ) := by
    rw [scoreSteps]
    push_cast
    field_simp
  rw [hdifference, abs_mul, abs_of_pos (by positivity)] at h
  have hmiddle : |(10000 * m - 16 * (k * c) : ℤ)| = 5000 := by
    apply Int.cast_injective (α := ℚ)
    rw [Int.cast_abs]
    apply mul_left_cancel₀ hpos.ne'
    push_cast at h ⊢
    linear_combination 5000 * h
  rcases eq_or_eq_neg_of_abs_eq hmiddle with habove | hbelow <;> omega

/-- The number with this rank is the one nearest to so many steps. -/
theorem isNearest_stepsRank (h : k ≤ scoreSteps) :
    (ofRank false (stepsRank k)).IsNearest (k / scoreSteps) := by
  have hden : 0 < scoreSteps * one := Nat.mul_pos (by decide) Binary64.one_pos
  have hexact : ((k * one * one : Nat) : ℚ) / ((scoreSteps * one : Nat) * one) =
      k / scoreSteps := by
    have hone := one_cast_pos.ne'
    rw [Nat.cast_mul, Nat.cast_mul, Nat.cast_mul, mul_div_mul_right _ _ hone,
      mul_div_mul_right _ _ hone]
  have hfinite := stepsRank_lt_infinityRank h
  rw [stepsRank_eq h] at hfinite ⊢
  rw [← hexact]
  refine isNearest_ofRank hden hfinite ?_
  rw [units_nearestRank]
  exact two_mul_abs_sub_ne (powerOfTwo_pos _) Binary64.one_pos 
    (sixteen_mul_dvd_one (shiftOf_steps_le h))

theorem near_stepsRank (hpos : 1 ≤ k) (h : k ≤ scoreSteps) :
    Near 1 (value (stepsRank k)) (k / scoreSteps) := by
  have hsteps : scoreSteps ≤ 2 ^ 53 := by decide
  have hmany : (0 : ℚ) < scoreSteps := Nat.cast_pos.mpr (by decide)
  refine (near_naturalRank (h.trans hsteps)).quotientRank (near_naturalRank hsteps)
    (Nat.cast_nonneg k) hmany (by decide) ?_
  have hone : (1 : ℚ) ≤ k := Nat.one_le_cast.mpr hpos
  calc (1 : ℚ) / 2 ^ 60 ≤ 1 / scoreSteps := by
        rw [scoreSteps]
        norm_num
    _ ≤ k / scoreSteps := div_le_div_of_nonneg_right hone hmany.le

/-- Scores of different numbers of steps are nearest to different numbers. -/
theorem isNearest_stepsRank_iff {l : Nat} (hk : 1 ≤ k) (hk' : k ≤ scoreSteps) (hl : 1 ≤ l)
    (hl' : l ≤ scoreSteps) : (ofRank false (stepsRank k)).IsNearest (l / scoreSteps) ↔ k = l := by
  constructor
  · intro h
    have hsame := h.toRat_eq (isNearest_stepsRank hl')
    rw [toRat_ofRank (stepsRank_lt_infinityRank hk'),
      toRat_ofRank (stepsRank_lt_infinityRank hl')] at hsame
    have hbound : ∀ m : Nat, 1 ≤ m → m ≤ scoreSteps →
        |value (stepsRank m) - m / scoreSteps| ≤ 1 / 2 ^ 50 := by
      intro m hm hm'
      have hnonneg : (0 : ℚ) ≤ m / scoreSteps :=
        div_nonneg (Nat.cast_nonneg _) (Nat.cast_nonneg _)
      have hle : (m : ℚ) / scoreSteps ≤ 1 :=
        div_le_one_of_le₀ (Nat.cast_le.mpr hm') (Nat.cast_nonneg _)
      have hnear := (near_stepsRank hm hm').mono (by decide : 1 ≤ 7) hnonneg
      exact (hnear.abs_sub_le hnonneg).trans (div_le_div_of_nonneg_right hle (by positivity))
    obtain ⟨hklow, hkhigh⟩ := abs_le.mp (hbound k hk hk')
    obtain ⟨hllow, hlhigh⟩ := abs_le.mp (hbound l hl hl')
    rw [scoreSteps, Nat.cast_ofNat] at hklow hkhigh hllow hlhigh
    have hbelow : (k : ℚ) < l + 1 := by linarith
    have habove : (l : ℚ) < k + 1 := by linarith
    have hbelow' : k < l + 1 := by exact_mod_cast hbelow
    have habove' : l < k + 1 := by exact_mod_cast habove
    omega
  · rintro rfl
    exact isNearest_stepsRank hk'

end Steps

/-! ## The computed number of steps -/

theorem nearestWhole_eq (rank : Nat) : (nearestWhole rank : ℤ) = roundHalfAway (value rank) := by
  rw [value, roundHalfAway_div _ Binary64.one_pos, nearestWhole]

/-- The number of steps on the leaderboard. -/
def computedSteps (positive total : Nat) : Nat :=
  nearestWhole (scaledRank positive total)

/-- The score on the leaderboard has the computed number of steps. -/
theorem roundedRank_confidenceRank (positive total : Nat) :
    roundedRank (confidenceRank positive total) = stepsRank (computedSteps positive total) := by
  rw [roundedRank, stepsRank, computedSteps, scaledRank]

section Computed

variable {positive total : Nat}

/-- The computed number of steps is off by hardly more than one half. -/
theorem abs_computedSteps_sub_le (hvoted : 1 ≤ total) (htotal : total < 2 ^ 53)
    (hpositive : positive ≤ total) :
    |(computedSteps positive total : ℚ) - exactSteps positive total| ≤
      1 / 2 + exactSteps positive total / 2 ^ 50 := by
  have hscaled := abs_scaledRank_sub_le hvoted htotal hpositive
  have hround := abs_roundHalfAway_sub_le (value_nonneg (scaledRank positive total))
  rw [← nearestWhole_eq, Int.cast_natCast] at hround
  exact (abs_sub_le _ _ _).trans (add_le_add hround hscaled)

theorem computedSteps_le (hvoted : 1 ≤ total) (htotal : total < 2 ^ 53)
    (hpositive : positive ≤ total) : computedSteps positive total ≤ scoreSteps := by
  have hsteps := (abs_le.mp (abs_computedSteps_sub_le hvoted htotal hpositive)).2
  have hexact := exactSteps_lt hpositive
  have hlt : (computedSteps positive total : ℚ) < scoreSteps + 1 := by
    rw [scoreSteps, Nat.cast_ofNat]
    linarith
  have hlt' : computedSteps positive total < scoreSteps + 1 := by exact_mod_cast hlt
  omega

/-- The number of steps is right if no half-way point is near the exact one. -/
theorem computedSteps_eq (hvoted : 1 ≤ total) (htotal : total < 2 ^ 53)
    (hpositive : positive ≤ total)
    (hfar : ∀ m : ℤ, exactSteps positive total / 2 ^ 50 < |m + 1 / 2 - exactSteps positive total|) :
    (computedSteps positive total : ℤ) = roundHalfAway (exactSteps positive total) := by
  rw [computedSteps, nearestWhole_eq]
  exact roundHalfAway_eq_of_abs_sub_le (value_nonneg _) (exactSteps_pos hpositive).le
    (abs_scaledRank_sub_le hvoted htotal hpositive) hfar

theorem two_dvd_stepsDenominator (total : Nat) : 2 ∣ stepsDenominator total := by
  rw [stepsDenominator]
  rcases Nat.even_or_odd total with heven | hodd
  · exact (heven.add (by decide : Even 10)).two_dvd.mul_left _
  · exact hodd.add_one.two_dvd.mul_right _

/-- Times the denominator, the distance from a half-way point is a whole number. -/
theorem exists_sub_exactSteps_mul_eq (positive total : Nat) (m : ℤ) :
    ∃ distance : ℤ,
      (m + 1 / 2 - exactSteps positive total) * stepsDenominator total = distance := by
  have hdenom : (stepsDenominator total : ℚ) ≠ 0 :=
    Nat.cast_ne_zero.mpr (stepsDenominator_pos total).ne'
  obtain ⟨b, hb⟩ := two_dvd_stepsDenominator total
  have hhalf : (stepsDenominator total : ℚ) = 2 * b := by
    rw [hb, Nat.cast_mul, Nat.cast_ofNat]
  refine ⟨(2 * m + 1) * b - stepsNumerator positive total, ?_⟩
  rw [exactSteps_eq_div, sub_mul, div_mul_cancel₀ _ hdenom, hhalf]
  push_cast
  ring

/-- A score that is not half-way is at least one part of its denominator away from there. -/
theorem one_le_abs_sub_exactSteps_mul (h : ¬ IsHalfway (exactSteps positive total)) (m : ℤ) :
    1 ≤ |m + 1 / 2 - exactSteps positive total| * stepsDenominator total := by
  have hpos : (0 : ℚ) < stepsDenominator total := Nat.cast_pos.mpr (stepsDenominator_pos total)
  obtain ⟨distance, hdistance⟩ := exists_sub_exactSteps_mul_eq positive total m
  have hne : distance ≠ 0 := by
    rintro rfl
    rw [Int.cast_zero, mul_eq_zero, or_iff_left hpos.ne'] at hdistance
    exact h ⟨m, (sub_eq_zero.mp hdistance).symm⟩
  rw [← abs_of_pos hpos, ← abs_mul, hdistance, ← Int.cast_abs]
  exact_mod_cast Int.one_le_abs hne

/-- Up to this many votes, a score is either half-way between two steps or far from it. -/
theorem far_of_not_isHalfway (htotal : total ≤ 335000) (hpositive : positive ≤ total)
    (h : ¬ IsHalfway (exactSteps positive total)) (m : ℤ) :
    exactSteps positive total / 2 ^ 50 < |m + 1 / 2 - exactSteps positive total| := by
  have hpos : (0 : ℚ) < stepsDenominator total := Nat.cast_pos.mpr (stepsDenominator_pos total)
  have hsize : (stepsDenominator total : ℚ) ≤ 335001 * 335010 := by
    have hnat : stepsDenominator total ≤ 335001 * 335010 :=
      Nat.mul_le_mul (by omega) (by omega)
    exact_mod_cast hnat
  have hsteps := exactSteps_lt hpositive
  have hnear : exactSteps positive total / 2 ^ 50 * stepsDenominator total < 1 := by
    calc exactSteps positive total / 2 ^ 50 * stepsDenominator total
        ≤ 10000 / 2 ^ 50 * (335001 * 335010) := by
          apply mul_le_mul _ hsize hpos.le (by norm_num)
          exact div_le_div_of_nonneg_right hsteps.le (by norm_num)
      _ < 1 := by norm_num
  exact lt_of_mul_lt_mul_right (hnear.trans_le (one_le_abs_sub_exactSteps_mul h m)) hpos.le

end Computed

/-! ## Scores half-way between two steps -/

/-- The votes whose score lies half-way between two steps and is rounded down. -/
def misroundedVotes : List (Nat × Nat) :=
  [(14, 15), (133, 374), (151, 1615)]

/-- Of the scores half-way between two steps all but three are rounded up. -/
theorem computedSteps_of_mem_halfwayVotes : ∀ votes ∈ halfwayVotes,
    computedSteps votes.1 votes.2 + (if votes ∈ misroundedVotes then 1 else 0) =
      roundedSteps votes.1 votes.2 := by
  decide +kernel

theorem roundedSteps_of_mem_halfwayVotes : ∀ votes ∈ halfwayVotes,
    2 ≤ roundedSteps votes.1 votes.2 ∧ roundedSteps votes.1 votes.2 ≤ scoreSteps := by
  decide +kernel

theorem mem_halfwayVotes_of_mem_misroundedVotes : ∀ votes ∈ misroundedVotes,
    votes ∈ halfwayVotes := by
  decide

section Rounded

variable {positive total : Nat}

theorem roundedScore_exactScore (positive total : Nat) :
    roundedScore (exactScore positive total) = roundedSteps positive total / scoreSteps := by
  rw [roundedScore, ← exactSteps, roundHalfAway_exactSteps, Int.cast_natCast]

/-- The computed score is right if no half-way point is near the exact one. -/
theorem isNearest_of_far (hvoted : 1 ≤ total) (htotal : total < 2 ^ 53)
    (hpositive : positive ≤ total)
    (hfar : ∀ m : ℤ, exactSteps positive total / 2 ^ 50 < |m + 1 / 2 - exactSteps positive total|) :
    (ofRank false (stepsRank (computedSteps positive total))).IsNearest
      (roundedScore (exactScore positive total)) := by
  have hsame := computedSteps_eq hvoted htotal hpositive hfar
  rw [roundHalfAway_exactSteps, Nat.cast_inj] at hsame
  rw [roundedScore_exactScore, ← hsame]
  exact isNearest_stepsRank (computedSteps_le hvoted htotal hpositive)

/-- Up to 335000 votes the computed score is right but for three pairs of votes. -/
theorem isNearest_iff_not_mem_misroundedVotes (hvoted : 1 ≤ total) (htotal : total ≤ 335000)
    (hpositive : positive ≤ total) :
    (ofRank false (stepsRank (computedSteps positive total))).IsNearest
      (roundedScore (exactScore positive total)) ↔ (positive, total) ∉ misroundedVotes := by
  have hsize : total < 2 ^ 53 := Nat.lt_of_le_of_lt htotal (by decide)
  by_cases hmisrounded : (positive, total) ∈ misroundedVotes
  · -- One step less has another nearest number.
    have hmem := mem_halfwayVotes_of_mem_misroundedVotes _ hmisrounded
    have hcomputed : computedSteps positive total + 1 = roundedSteps positive total := by
      have hsteps := computedSteps_of_mem_halfwayVotes _ hmem
      rwa [if_pos hmisrounded] at hsteps
    obtain ⟨hleast, hmost⟩ := roundedSteps_of_mem_halfwayVotes _ hmem
    dsimp only at hleast hmost
    rw [roundedScore_exactScore, isNearest_stepsRank_iff (by omega)
      (computedSteps_le hvoted hsize hpositive) (by omega) hmost]
    constructor
    · intro heq
      omega
    · exact fun hnot => absurd hmisrounded hnot
  · refine iff_of_true ?_ hmisrounded
    by_cases hhalf : IsHalfway (exactSteps positive total)
    · have hcomputed := computedSteps_of_mem_halfwayVotes _ (mem_halfwayVotes hpositive hhalf)
      rw [if_neg hmisrounded, Nat.add_zero] at hcomputed
      rw [roundedScore_exactScore, ← hcomputed]
      exact isNearest_stepsRank (computedSteps_le hvoted hsize hpositive)
    · exact isNearest_of_far hvoted hsize hpositive (far_of_not_isHalfway htotal hpositive hhalf)

end Rounded

/-! ## Lines of the leaderboard -/

section Lines

variable {payloads : List Feedback.Payload} {line : Standing}

theorem Standing.positive_le_total (hline : line ∈ leaderboard payloads) :
    line.positive ≤ line.total := by
  rw [(fields_of_mem_leaderboard hline).2.2.1]
  exact Nat.le_add_right _ _

/-- A line shows at least one vote. -/
theorem Standing.one_le_total (hline : line ∈ leaderboard payloads) : 1 ≤ line.total := by
  obtain ⟨hpositive, hnegative, htotal, -⟩ := fields_of_mem_leaderboard hline
  obtain ⟨-, rating, hvoted⟩ := (mem_leaderboard_iff payloads line).mp hline
  rw [htotal, hpositive, hnegative]
  have hcount := List.count_pos_iff.mpr hvoted
  cases rating with
  | positive => exact Nat.le_add_right_of_le hcount
  | negative => exact Nat.le_add_left_of_le hcount

/-- A line shows no more votes than there are usable payloads. -/
theorem Standing.total_le (hline : line ∈ leaderboard payloads) :
    line.total ≤ payloads.countP fun payload => decide payload.IsUsable := by
  rw [← (isLeaderboard_leaderboard payloads).sum]
  exact List.single_le_sum (fun _ _ => Nat.zero_le _) _ (List.mem_map_of_mem hline)

/-- The score of a line has the computed number of steps. -/
theorem Standing.score_eq (hline : line ∈ leaderboard payloads) :
    line.score = ofRank false (stepsRank (computedSteps line.positive line.total)) := by
  rw [(fields_of_mem_leaderboard hline).2.2.2, roundedRank_confidenceRank]

/--
The score of a line is the number nearest to a whole number of steps that is hardly more
than one half away from the exact score.  If no half-way point is within one part in
`2 ^ 50` of the exact score, this is the exact score rounded to four places, a half going
away from zero.  Up to 335000 votes it is this one always, but for the three pairs of
votes that `misroundedVotes` lists.
-/
theorem leaderboard_score_isNearest
    (hcount : (payloads.countP fun payload => decide payload.IsUsable) < 2 ^ 53)
    (hline : line ∈ leaderboard payloads) :
    (∃ steps : Nat, line.score.IsNearest (steps / scoreSteps) ∧
      |(steps : ℚ) - exactSteps line.positive line.total| ≤
        1 / 2 + exactSteps line.positive line.total / 2 ^ 50) ∧
    ((∀ m : ℤ, exactSteps line.positive line.total / 2 ^ 50 <
        |m + 1 / 2 - exactSteps line.positive line.total|) →
      line.score.IsNearest (roundedScore (exactScore line.positive line.total))) ∧
    (line.total ≤ 335000 →
      (line.score.IsNearest (roundedScore (exactScore line.positive line.total)) ↔
        (line.positive, line.total) ∉ misroundedVotes)) := by
  have hvoted := Standing.one_le_total hline
  have htotal := (Standing.total_le hline).trans_lt hcount
  have hpositive := Standing.positive_le_total hline
  rw [Standing.score_eq hline]
  refine ⟨⟨computedSteps line.positive line.total, ?_, ?_⟩,
    isNearest_of_far hvoted htotal hpositive,
    fun hfew => isNearest_iff_not_mem_misroundedVotes hvoted hfew hpositive⟩
  · exact isNearest_stepsRank (computedSteps_le hvoted htotal hpositive)
  · exact abs_computedSteps_sub_le hvoted htotal hpositive

end Lines

/-- A payload that rates the model `m`. -/
def ratingOf (rating : String) : Feedback.Payload where
  id := "1"
  data := some (.object [("model_id", .string "m"), ("rating", .string rating)])

theorem ofVotes_mem_leaderboard_single :
    Standing.ofVotes "m" ⟨1, 0⟩ ∈ leaderboard [ratingOf "1"] := by
  rw [mem_leaderboard_iff]
  exact ⟨congrArg (Standing.ofVotes "m") (by decide +kernel), .positive, by decide +kernel⟩

theorem ofVotes_mem_leaderboard_fifteen : Standing.ofVotes "m" ⟨14, 1⟩ ∈
    leaderboard (List.replicate 14 (ratingOf "1") ++ [ratingOf "-1"]) := by
  rw [mem_leaderboard_iff]
  exact ⟨congrArg (Standing.ofVotes "m") (by decide +kernel), .positive, by decide +kernel⟩

/--
The score of one positive vote is right; that of fourteen positive votes and a negative
one, which is exactly `0.74375`, is not rounded to `0.7438`.
-/
theorem leaderboard_score_isNearest_fifteen :
    (Standing.ofVotes "m" ⟨1, 0⟩).score.IsNearest (5227 / 10000) ∧
      exactScore 14 15 = 74375 / 100000 ∧ roundedScore (exactScore 14 15) = 7438 / 10000 ∧
      ¬ (Standing.ofVotes "m" ⟨14, 1⟩).score.IsNearest (7438 / 10000) := by
  have hsingle : roundedScore (exactScore 1 1) = 5227 / 10000 := by
    have hsteps : roundedSteps 1 1 = 5227 := by decide
    rw [roundedScore_exactScore, hsteps, scoreSteps, Nat.cast_ofNat, Nat.cast_ofNat]
  have hfifteen : roundedScore (exactScore 14 15) = 7438 / 10000 := by
    have hsteps : roundedSteps 14 15 = 7438 := by decide
    rw [roundedScore_exactScore, hsteps, scoreSteps, Nat.cast_ofNat, Nat.cast_ofNat]
  refine ⟨?_, by rw [exactScore_eq]; norm_num, hfifteen, ?_⟩
  · obtain ⟨-, hfar, -⟩ :=
      leaderboard_score_isNearest (by decide +kernel) ofVotes_mem_leaderboard_single
    rw [← hsingle]
    refine hfar (far_of_not_isHalfway (by decide) (by decide) fun hhalf => ?_)
    exact absurd (mod_of_isHalfway hhalf) (by decide)
  · obtain ⟨-, -, hfew⟩ :=
      leaderboard_score_isNearest (by decide +kernel) ofVotes_mem_leaderboard_fifteen
    rw [← hfifteen]
    intro hnearest
    exact (hfew (by decide)).mp hnearest (by decide)

end FeedbackBoard
