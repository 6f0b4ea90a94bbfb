import FeedbackBoard.Proofs.Binary64.Rounding
import Mathlib.Algebra.Order.Ring.Abs
import Mathlib.Data.Rat.Cast.Order
import Mathlib.Tactic.FieldSimp
import Mathlib.Tactic.Linarith
import Mathlib.Tactic.Positivity

/-!
# The nearest number

What rounding gives is nearer to the exact ratio than every other number of the
format, unless the ratio lies just between two of them, and it is off by at most one
part in `2 ^ 53`, unless the ratio is tiny.  Both follow from the grid of numbers
with one shift, on which the significand is rounded to a whole number.

Main definitions:

- `Binary64.value`, `Binary64.toRat`: ranks and numbers as rationals.
- `Binary64.IsNearest`: a number is nearer to a rational than all others.

Main results:

- `Binary64.units_nearestRank`: the rounded number, on its grid.
- `Binary64.isNearest_ofRank`: when the rounded number is the nearest one.
- `Binary64.abs_value_sub_le`: how far the rounded number is off.
-/

namespace FeedbackBoard.Binary64

theorem one_pos : 0 < one := powerOfTwo_pos 1074

/-- The magnitude of a rank. -/
def value (rank : Nat) : ℚ :=
  units rank / one

/-- The number as a rational. -/
def toRat (x : Binary64) : ℚ :=
  if x.negative then -value x.rank else value x.rank

/-- The number is nearer to a rational than all numbers with another value. -/
def IsNearest (x : Binary64) (q : ℚ) : Prop :=
  ∀ y : Binary64, y.toRat ≠ x.toRat → |x.toRat - q| < |y.toRat - q|

theorem value_nonneg (rank : Nat) : 0 ≤ value rank :=
  div_nonneg (Nat.cast_nonneg _) (Nat.cast_nonneg _)

theorem one_cast_pos : (0 : ℚ) < one := Nat.cast_pos.mpr one_pos

/-! ## Whole numbers -/

/-- Rounding to whole numbers is off by at most one half. -/
theorem two_mul_roundHalfEven (a : Nat) {den : Nat} (hden : 0 < den) :
    2 * (roundHalfEven a den * den) ≤ 2 * a + den ∧
      2 * a ≤ 2 * (roundHalfEven a den * den) + den := by
  have hdivision := Nat.div_add_mod a den
  have hremainder := Nat.mod_lt a hden
  simp only [roundHalfEven]
  rw [Nat.mul_comm] at hdivision
  generalize a / den = quotient at hdivision ⊢
  generalize a % den = remainder at hdivision hremainder ⊢
  have hnext : (quotient + 1) * den = quotient * den + den := Nat.succ_mul _ _
  split
  · omega
  · split
    · omega
    · rcases Nat.mod_two_eq_zero_or_one quotient with heven | hodd
      · rw [heven, Nat.add_zero]
        omega
      · rw [hodd]
        omega

/-! ## The grid of a shift -/

/-- A significand with its leading bit, or in the lowest binade, gives its multiple of the grid. -/
theorem units_significand {exponent significand : Nat} (hhigh : significand ≤ 2 * binadeSize)
    (hlow : exponent = 0 ∨ binadeSize ≤ significand) :
    units (exponent * binadeSize + significand) = significand * powerOfTwo exponent := by
  rcases Nat.lt_or_eq_of_le hhigh with hlt | rfl
  · rcases Nat.lt_or_ge significand binadeSize with hsmall | hlarge
    · have hexponent : exponent = 0 := hlow.resolve_right (Nat.not_le.mpr hsmall)
      rw [hexponent, Nat.zero_mul, Nat.zero_add, units, if_pos hsmall]
      exact (Nat.mul_one _).symm
    · exact units_mul_add hlarge hlt
  · -- The significand has grown by one bit and belongs to the next binade.
    have hnext : exponent * binadeSize + 2 * binadeSize =
        (exponent + 1) * binadeSize + binadeSize := by ring
    rw [hnext, units_mul_add (Nat.le_refl _) (by decide), powerOfTwo_eq, powerOfTwo_eq,
      Nat.pow_succ]
    ring

variable {num den : Nat}

/-- The rounded number lies on the grid of its shift. -/
theorem units_nearestRank (num den : Nat) :
    units (nearestRank num den) =
      roundHalfEven num (den * powerOfTwo (shiftOf num den)) * powerOfTwo (shiftOf num den) := by
  rw [nearestRank_eq]
  refine units_significand (roundHalfEven_shift_le num den) ?_
  rcases Nat.eq_zero_or_pos (shiftOf num den) with hzero | hpos
  · exact Or.inl hzero
  · exact Or.inr (binadeSize_le_roundHalfEven hpos)

/-- A ratio with a shift has a significand with its leading bit. -/
theorem binadeSize_mul_le (hden : 0 < den) (hnormal : binadeSize * den ≤ num) :
    binadeSize * (den * powerOfTwo (shiftOf num den)) ≤ num := by
  have hwhole : binadeSize ≤ num / den := (Nat.le_div_iff_mul_le hden).mpr hnormal
  have hne : num / den ≠ 0 := Nat.ne_of_gt (Nat.lt_of_lt_of_le (by decide) hwhole)
  have hlog : 52 ≤ (num / den).log2 := (Nat.le_log2 hne).mpr hwhole
  have hself : 2 ^ (num / den).log2 ≤ num / den := Nat.log2_self_le hne
  have hsum : (num / den).log2 = 52 + shiftOf num den := by
    rw [shiftOf]
    omega
  rw [hsum, Nat.pow_add, Nat.le_div_iff_mul_le hden] at hself
  calc binadeSize * (den * powerOfTwo (shiftOf num den))
      = 2 ^ 52 * 2 ^ shiftOf num den * den := by
        rw [binadeSize_eq, powerOfTwo_eq]
        ring
    _ ≤ num := hself

theorem binadeSize_mul_le_of_shiftOf (hden : 0 < den) (hshift : 0 < shiftOf num den) :
    binadeSize * den ≤ num := by
  rw [← Nat.le_div_iff_mul_le hden]
  have hne : num / den ≠ 0 := by
    intro hzero
    rw [shiftOf, hzero] at hshift
    simp at hshift
  rw [binadeSize_eq, ← Nat.le_log2 hne]
  rw [shiftOf] at hshift
  omega

/-- A number lies on the grid of a shift, or below all significands with their leading bit. -/
theorem exists_multiple_or_lt (rank shift : Nat) :
    (∃ k, units rank = k * powerOfTwo shift) ∨
      (0 < shift ∧ units rank < binadeSize * powerOfTwo shift) := by
  obtain ⟨exponent, significand, -, hunits, hbound, -⟩ := exists_units_eq rank
  rcases Nat.lt_or_ge exponent shift with hlt | hge
  · right
    refine ⟨Nat.zero_lt_of_lt hlt, ?_⟩
    obtain ⟨d, rfl⟩ := Nat.exists_eq_add_of_lt hlt
    calc units rank = significand * powerOfTwo exponent := hunits
      _ < 2 * binadeSize * powerOfTwo exponent :=
          Nat.mul_lt_mul_of_pos_right hbound (powerOfTwo_pos _)
      _ ≤ 2 * binadeSize * powerOfTwo exponent * 2 ^ d :=
          Nat.le_mul_of_pos_right _ (Nat.pow_pos (by decide))
      _ = binadeSize * powerOfTwo (exponent + d + 1) := by
          rw [powerOfTwo_eq, powerOfTwo_eq, Nat.pow_succ, Nat.pow_add]
          ring
  · left
    obtain ⟨d, rfl⟩ := Nat.exists_eq_add_of_le hge
    refine ⟨significand * 2 ^ d, ?_⟩
    rw [hunits, powerOfTwo_eq, powerOfTwo_eq, Nat.pow_add]
    ring

/-! ## How far off -/

/-- The rounded number is off by at most half a step of its grid. -/
theorem two_mul_abs_units_sub_le (num : Nat) (hden : 0 < den) :
    2 * |(units (nearestRank num den) : ℚ) - num / den| ≤ powerOfTwo (shiftOf num den) := by
  have hpos : (0 : ℚ) < den := Nat.cast_pos.mpr hden
  have hgrid := Nat.mul_pos hden (powerOfTwo_pos (shiftOf num den))
  obtain ⟨habove, hbelow⟩ := two_mul_roundHalfEven num hgrid
  rw [units_nearestRank]
  generalize roundHalfEven num (den * powerOfTwo (shiftOf num den)) = significand at *
  generalize powerOfTwo (shiftOf num den) = step at *
  have habove : (2 * (significand * (den * step)) : ℚ) ≤ 2 * num + den * step := by
    exact_mod_cast habove
  have hbelow : (2 * num : ℚ) ≤ 2 * (significand * (den * step)) + den * step := by
    exact_mod_cast hbelow
  have hexact : (num : ℚ) = num / den * den := (div_mul_cancel₀ _ hpos.ne').symm
  rw [hexact] at habove hbelow
  generalize (num : ℚ) / den = exact at *
  have hup : 2 * ((significand : ℚ) * step - exact) ≤ step := by nlinarith
  have hdown : 2 * (exact - (significand : ℚ) * step) ≤ step := by nlinarith
  rw [Nat.cast_mul, ← abs_two, ← abs_mul, abs_le]
  constructor <;> linarith

/-- A ratio that is not tiny is rounded by at most one part in `2 ^ 53`. -/
theorem abs_units_sub_le (hden : 0 < den) (hnormal : binadeSize * den ≤ num) :
    |(units (nearestRank num den) : ℚ) - num / den| ≤ num / den / 2 ^ 53 := by
  have hpos : (0 : ℚ) < den := Nat.cast_pos.mpr hden
  have hhalf := two_mul_abs_units_sub_le num hden
  have hleading : (binadeSize * (den * powerOfTwo (shiftOf num den)) : ℚ) ≤ num := by
    exact_mod_cast binadeSize_mul_le hden hnormal
  rw [binadeSize_eq] at hleading
  push_cast at hleading
  rw [le_div_iff₀ (by positivity), le_div_iff₀ hpos]
  nlinarith

/-- The same for values: rounding a value that is not tiny is off by one part in `2 ^ 53`. -/
theorem abs_value_sub_le (hden : 0 < den) (hnormal : binadeSize * den ≤ num) :
    |value (nearestRank num den) - num / (den * one)| ≤ num / (den * one) / 2 ^ 53 := by
  have hpos := one_cast_pos
  have hexact : (num : ℚ) / (den * one) = num / den / one := by rw [div_div]
  rw [value, hexact, ← sub_div, abs_div, abs_of_pos hpos, div_right_comm]
  exact div_le_div_of_nonneg_right (abs_units_sub_le hden hnormal) hpos.le

/-! ## Nearer than all others -/

/--
The rounded number is nearer to the ratio than every number of another magnitude, if
the ratio does not lie in the middle of a step.
-/
theorem abs_units_sub_lt (hden : 0 < den)
    (hmiddle : 2 * |(units (nearestRank num den) : ℚ) - num / den| ≠
      powerOfTwo (shiftOf num den)) {rank : Nat}
    (hne : units rank ≠ units (nearestRank num den)) :
    |(units (nearestRank num den) : ℚ) - num / den| < |(units rank : ℚ) - num / den| := by
  have hhalf := lt_of_le_of_ne (two_mul_abs_units_sub_le num hden) hmiddle
  -- Of the multiples of the grid the rounded one is less than half a step away.
  have hgrid : ∀ k : Nat, k * powerOfTwo (shiftOf num den) ≠ units (nearestRank num den) →
      |(units (nearestRank num den) : ℚ) - num / den| <
        |((k * powerOfTwo (shiftOf num den) : Nat) : ℚ) - num / den| := by
    intro k hk
    rw [units_nearestRank] at hhalf hk ⊢
    generalize roundHalfEven num (den * powerOfTwo (shiftOf num den)) = significand at *
    generalize hstep : powerOfTwo (shiftOf num den) = step at *
    have hapart : (step : ℚ) ≤ |((k * step : Nat) : ℚ) - (significand * step : Nat)| := by
      have hint : (step : ℤ) ≤ |((k * step : Nat) : ℤ) - (significand * step : Nat)| := by
        rcases Nat.lt_trichotomy k significand with hlt | rfl | hgt
        · have hle : (k + 1) * step ≤ significand * step := Nat.mul_le_mul_right _ hlt
          rw [Nat.succ_mul] at hle
          rw [abs_sub_comm]
          exact le_trans (by omega) (le_abs_self _)
        · exact absurd rfl hk
        · have hle : (significand + 1) * step ≤ k * step := Nat.mul_le_mul_right _ hgt
          rw [Nat.succ_mul] at hle
          exact le_trans (by omega) (le_abs_self _)
      exact_mod_cast hint
    have htriangle :=
      abs_sub_le ((k * step : Nat) : ℚ) (num / den) ((significand * step : Nat) : ℚ)
    rw [abs_sub_comm (num / den : ℚ)] at htriangle
    linarith
  rcases exists_multiple_or_lt rank (shiftOf num den) with ⟨k, hk⟩ | ⟨hshift, hlt⟩
  · rw [hk] at hne ⊢
    exact hgrid k hne
  · -- Numbers below the grid's least significand are farther away than this one.
    have hpos : (0 : ℚ) < den := Nat.cast_pos.mpr hden
    have hleast : ((binadeSize * powerOfTwo (shiftOf num den) : Nat) : ℚ) ≤ num / den := by
      have hleading := binadeSize_mul_le hden (binadeSize_mul_le_of_shiftOf hden hshift)
      rw [le_div_iff₀ hpos]
      have hcast : (binadeSize * (den * powerOfTwo (shiftOf num den)) : ℚ) ≤ num := by
        exact_mod_cast hleading
      push_cast
      linarith
    have hbelow : (units rank : ℚ) < (binadeSize * powerOfTwo (shiftOf num den) : Nat) := by
      exact_mod_cast hlt
    have hfar : |((binadeSize * powerOfTwo (shiftOf num den) : Nat) : ℚ) - num / den| <
        |(units rank : ℚ) - num / den| := by
      rw [abs_of_nonpos (by linarith), abs_of_nonpos (by linarith)]
      linarith
    by_cases hsame : binadeSize * powerOfTwo (shiftOf num den) = units (nearestRank num den)
    · rwa [hsame] at hfar
    · exact (hgrid binadeSize hsame).trans hfar

theorem toRat_ofRank {rank : Nat} (hfinite : rank < infinityRank) :
    (ofRank false rank).toRat = value rank := by
  rw [ofRank, dif_pos hfinite]
  rfl

/-- The numbers nearest to a rational have one value. -/
theorem IsNearest.toRat_eq {x y : Binary64} {q : ℚ} (hx : x.IsNearest q) (hy : y.IsNearest q) :
    x.toRat = y.toRat := by
  by_contra hne
  exact (hx y (Ne.symm hne)).asymm (hy x hne)

/-- Numbers on the other side of zero do not matter. -/
theorem isNearest_of_magnitude {rank : Nat} (hfinite : rank < infinityRank) {q : ℚ} (hq : 0 ≤ q)
    (hzero : q = 0 → value rank = 0)
    (h : ∀ r, value r ≠ value rank → |value rank - q| < |value r - q|) :
    (ofRank false rank).IsNearest q := by
  have hself := toRat_ofRank hfinite
  intro y hy
  rw [hself] at hy ⊢
  have hrank := value_nonneg rank
  have hvalue := value_nonneg y.rank
  cases hsign : y.negative with
  | false =>
      rw [toRat, hsign] at hy ⊢
      exact h y.rank hy
  | true =>
      rw [toRat, hsign, if_pos rfl] at hy ⊢
      have hopposite : |-value y.rank - q| = value y.rank + q := by
        rw [abs_of_nonpos (by linarith)]
        ring
      rw [hopposite]
      by_cases hsame : value y.rank = value rank
      · -- The opposite of the number is as far away only if both are zero.
        have hpos : 0 < value rank := by
          refine lt_of_le_of_ne hrank fun heq => hy ?_
          rw [hsame, ← heq, neg_zero]
        have hqpos : 0 < q := lt_of_le_of_ne hq fun heq => hpos.ne' (hzero heq.symm)
        rw [hsame, abs_lt]
        constructor <;> linarith
      · refine (h y.rank hsame).trans_le ?_
        rw [abs_le]
        constructor <;> linarith

/-- Outside the middle of a step, the number of the rounded rank is the nearest one. -/
theorem isNearest_ofRank (hden : 0 < den) (hfinite : nearestRank num den < infinityRank)
    (hmiddle : 2 * |(units (nearestRank num den) : ℚ) - num / den| ≠
      powerOfTwo (shiftOf num den)) :
    (ofRank false (nearestRank num den)).IsNearest (num / (den * one)) := by
  have hone := one_cast_pos
  have hdenom : (0 : ℚ) < den * one := mul_pos (Nat.cast_pos.mpr hden) hone
  have hexact : (num : ℚ) / (den * one) = num / den / one := by rw [div_div]
  refine isNearest_of_magnitude hfinite (div_nonneg (Nat.cast_nonneg _) hdenom.le) ?_ ?_
  · intro hzero
    have hnum : num = 0 := by
      rcases div_eq_zero_iff.mp hzero with hnum | hden
      · exact_mod_cast hnum
      · exact absurd hden hdenom.ne'
    have hround := nearestRank_units 0 hden
    rw [show units 0 = 0 from rfl, Nat.zero_mul] at hround
    rw [hnum, hround, value, show units 0 = 0 from rfl, Nat.cast_zero, zero_div]
  · intro r hne
    have hunits : units r ≠ units (nearestRank num den) := by
      intro heq
      rw [value, value, heq] at hne
      exact hne rfl
    rw [hexact, value, value, ← sub_div, ← sub_div, abs_div, abs_div]
    exact div_lt_div_of_pos_right (abs_units_sub_lt hden hmiddle hunits) (abs_pos.mpr hone.ne')

end FeedbackBoard.Binary64
