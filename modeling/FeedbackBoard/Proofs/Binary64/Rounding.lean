import FeedbackBoard.Binary64.Basic
import Mathlib.Tactic.Ring

/-!
# Rounding

Rounding to the nearest number keeps the order, and a ratio that is a number is
rounded to itself.  Both together bound every rounded result by the numbers on
either side of the exact one.

Main results:

- `Binary64.nearestRank_mono`: rounding keeps the order.
- `Binary64.nearestRank_units`: numbers are rounded to themselves.
- `Binary64.units_le_units_iff`: ranks are ordered like magnitudes.
- `Binary64.units_naturalRank`: natural numbers up to `2 ^ 53` are numbers.
- `Binary64.quotientRank_le`: dividing by one or more does not increase.
-/

namespace FeedbackBoard.Binary64

theorem powerOfTwo_eq (n : Nat) : powerOfTwo n = 2 ^ n := rfl

theorem powerOfTwo_pos (n : Nat) : 0 < powerOfTwo n := Nat.pow_pos (by decide)

theorem binadeSize_eq : binadeSize = 2 ^ 52 := rfl

/-! ## Whole numbers -/

variable {a b den : Nat}

/-- Rounding gives the whole part or the next whole number. -/
theorem roundHalfEven_bounds (a den : Nat) :
    a / den ≤ roundHalfEven a den ∧ roundHalfEven a den ≤ a / den + 1 := by
  simp only [roundHalfEven]
  split
  · omega
  · split <;> omega

/-- Rounding to whole numbers keeps the order. -/
theorem roundHalfEven_mono (h : a ≤ b) : roundHalfEven a den ≤ roundHalfEven b den := by
  rcases Nat.lt_or_ge (a / den) (b / den) with hlt | hge
  · exact (roundHalfEven_bounds a den).2.trans (Nat.le_trans hlt (roundHalfEven_bounds b den).1)
  · -- The whole parts are equal, so the remainders decide.
    have hquotient : a / den = b / den := Nat.le_antisymm (Nat.div_le_div_right h) hge
    have ha := Nat.div_add_mod a den
    have hb := Nat.div_add_mod b den
    rw [hquotient] at ha
    have hremainder : a % den ≤ b % den := by omega
    simp only [roundHalfEven, hquotient]
    generalize b / den = quotient
    split
    · split
      · exact Nat.le_refl _
      · split <;> omega
    · split
      · rw [if_neg (by omega), if_pos (by omega)]
      · rw [if_neg (by omega)]
        split <;> omega

/-- Whole numbers are rounded to themselves. -/
theorem roundHalfEven_mul (m : Nat) (hden : 0 < den) : roundHalfEven (m * den) den = m := by
  simp only [roundHalfEven, Nat.mul_div_cancel m hden, Nat.mul_mod_left]
  rw [if_pos (by omega)]

/-! ## Numbers -/

/-- How far the significand is shifted. -/
def shiftOf (num den : Nat) : Nat :=
  (num / den).log2 - 52

theorem nearestRank_eq (num den : Nat) :
    nearestRank num den =
      shiftOf num den * binadeSize + roundHalfEven num (den * powerOfTwo (shiftOf num den)) :=
  rfl

/-- A significand has at most 53 bits. -/
theorem roundHalfEven_shift_le (a den : Nat) :
    roundHalfEven a (den * powerOfTwo (shiftOf a den)) ≤ 2 * binadeSize := by
  have hwhole : a / den < 2 ^ (shiftOf a den + 53) := by
    rcases Nat.eq_zero_or_pos (a / den) with hzero | hpos
    · rw [hzero]
      exact Nat.pow_pos (by decide)
    · rw [← Nat.log2_lt (by omega), shiftOf]
      omega
  have hbound : a / (den * powerOfTwo (shiftOf a den)) < 2 ^ 53 := by
    rw [← Nat.div_div_eq_div_mul, Nat.div_lt_iff_lt_mul (powerOfTwo_pos _), powerOfTwo_eq,
      ← Nat.pow_add, Nat.add_comm]
    exact hwhole
  have hround := (roundHalfEven_bounds a (den * powerOfTwo (shiftOf a den))).2
  rw [binadeSize_eq]
  omega

/-- A shifted significand has its leading bit. -/
theorem binadeSize_le_roundHalfEven (hshift : 0 < shiftOf a den) :
    binadeSize ≤ roundHalfEven a (den * powerOfTwo (shiftOf a den)) := by
  have hlog : shiftOf a den + 52 = (a / den).log2 := by
    rw [shiftOf] at hshift ⊢
    omega
  have hpos : a / den ≠ 0 := by
    intro hzero
    rw [hzero] at hlog
    simp at hlog
  have hwhole : 2 ^ (shiftOf a den + 52) ≤ a / den := by
    rw [hlog]
    exact Nat.log2_self_le hpos
  refine Nat.le_trans ?_ (roundHalfEven_bounds a _).1
  rw [← Nat.div_div_eq_div_mul, Nat.le_div_iff_mul_le (powerOfTwo_pos _), powerOfTwo_eq,
    binadeSize_eq, ← Nat.pow_add, Nat.add_comm]
  exact hwhole

theorem shiftOf_mono (h : a ≤ b) : shiftOf a den ≤ shiftOf b den := by
  have hquotient : a / den ≤ b / den := Nat.div_le_div_right h
  have hlog : (a / den).log2 ≤ (b / den).log2 := by
    rcases Nat.eq_zero_or_pos (a / den) with hzero | hpos
    · rw [hzero]
      exact Nat.zero_le _
    · rw [Nat.le_log2 (by omega)]
      exact (Nat.log2_self_le (by omega)).trans hquotient
  rw [shiftOf, shiftOf]
  omega

/-- Rounding keeps the order. -/
theorem nearestRank_mono (h : a ≤ b) : nearestRank a den ≤ nearestRank b den := by
  rw [nearestRank_eq, nearestRank_eq]
  rcases Nat.lt_or_ge (shiftOf a den) (shiftOf b den) with hlt | hge
  · -- The result of the smaller shift ends where the next binade begins.
    have hsmall := roundHalfEven_shift_le a den
    have hlarge : binadeSize ≤ roundHalfEven b (den * powerOfTwo (shiftOf b den)) :=
      binadeSize_le_roundHalfEven (by omega)
    calc shiftOf a den * binadeSize + roundHalfEven a (den * powerOfTwo (shiftOf a den))
        ≤ shiftOf a den * binadeSize + 2 * binadeSize := by omega
      _ = (shiftOf a den + 1) * binadeSize + binadeSize := by ring
      _ ≤ shiftOf b den * binadeSize + roundHalfEven b (den * powerOfTwo (shiftOf b den)) :=
          Nat.add_le_add (Nat.mul_le_mul_right _ hlt) hlarge
  · rw [Nat.le_antisymm (shiftOf_mono h) hge]
    exact Nat.add_le_add_left (roundHalfEven_mono h) _

/-- The magnitude of a rank is a significand of at most 53 bits and a power of two. -/
theorem exists_units_eq (rank : Nat) : ∃ exponent significand,
    rank = exponent * binadeSize + significand ∧
      units rank = significand * powerOfTwo exponent ∧ significand < 2 * binadeSize ∧
      (exponent = 0 ∨ binadeSize ≤ significand) := by
  have hpos : 0 < binadeSize := by decide
  rw [units]
  split
  next h => exact ⟨0, rank, by omega, (Nat.mul_one rank).symm, by omega, Or.inl rfl⟩
  next h =>
    have hmod := Nat.mod_lt rank hpos
    have hdiv := Nat.div_add_mod rank binadeSize
    have hbinade : 0 < rank / binadeSize := Nat.div_pos (Nat.le_of_not_lt h) hpos
    refine ⟨rank / binadeSize - 1, binadeSize + rank % binadeSize, ?_, rfl, by omega,
      Or.inr (Nat.le_add_right _ _)⟩
    obtain ⟨k, hk⟩ := Nat.exists_eq_succ_of_ne_zero (Nat.ne_of_gt hbinade)
    rw [hk] at hdiv ⊢
    rw [Nat.succ_sub_one]
    calc rank = binadeSize * (k + 1) + rank % binadeSize := hdiv.symm
      _ = k * binadeSize + (binadeSize + rank % binadeSize) := by ring

/-- Numbers are rounded to themselves. -/
theorem nearestRank_units (rank : Nat) (hden : 0 < den) :
    nearestRank (units rank * den) den = rank := by
  obtain ⟨exponent, significand, hrank, hunits, hbound, hleading⟩ := exists_units_eq rank
  have hshift : shiftOf (units rank * den) den = exponent := by
    rw [shiftOf, Nat.mul_div_cancel _ hden, hunits, powerOfTwo_eq]
    rcases hleading with rfl | hleading
    · rcases Nat.eq_zero_or_pos significand with rfl | hpos
      · simp
      · have hlog : (significand * 2 ^ 0).log2 < 53 := by
          rw [Nat.pow_zero, Nat.mul_one, Nat.log2_lt (by omega)]
          rw [binadeSize_eq] at hbound
          omega
        omega
    · have hlog : (significand * 2 ^ exponent).log2 = 52 + exponent := by
        have hpow : 0 < 2 ^ exponent := Nat.pow_pos (by decide)
        have hpos : 0 < significand := Nat.lt_of_lt_of_le (by decide) hleading
        rw [Nat.log2_eq_iff (Nat.ne_of_gt (Nat.mul_pos hpos hpow))]
        constructor
        · rw [Nat.pow_add]
          exact Nat.mul_le_mul_right _ hleading
        · rw [show 52 + exponent + 1 = 53 + exponent by omega, Nat.pow_add]
          exact Nat.mul_lt_mul_of_pos_right hbound hpow
      rw [hlog]
      omega
  rw [nearestRank_eq, hshift, hunits, Nat.mul_assoc, Nat.mul_comm (powerOfTwo exponent) den,
    roundHalfEven_mul significand (Nat.mul_pos hden (powerOfTwo_pos exponent)), hrank]

/-- Ranks are ordered like magnitudes. -/
theorem units_le_units_iff {r s : Nat} : units r ≤ units s ↔ r ≤ s := by
  have hmono : ∀ {r s : Nat}, units r ≤ units s → r ≤ s := by
    intro r s h
    have hround : nearestRank (units r) 1 ≤ nearestRank (units s) 1 := nearestRank_mono h
    have hr := nearestRank_units r Nat.one_pos
    have hs := nearestRank_units s Nat.one_pos
    rw [Nat.mul_one] at hr hs
    rwa [hr, hs] at hround
  constructor
  · exact hmono
  · intro h
    by_contra hlt
    have hback := hmono (Nat.le_of_lt (Nat.lt_of_not_le hlt))
    have heq : r = s := Nat.le_antisymm h hback
    rw [heq] at hlt
    exact hlt (Nat.le_refl _)

/-! ## Natural numbers -/

/-- The magnitude of a significand with its leading bit, in a binade. -/
theorem units_mul_add {exponent significand : Nat} (hlow : binadeSize ≤ significand)
    (hhigh : significand < 2 * binadeSize) :
    units (exponent * binadeSize + significand) = significand * powerOfTwo exponent := by
  have hrank : exponent * binadeSize + significand =
      (significand - binadeSize) + (exponent + 1) * binadeSize := by
    rw [Nat.succ_mul]
    omega
  have hsmall : significand - binadeSize < binadeSize := by omega
  have hdiv : (exponent * binadeSize + significand) / binadeSize = exponent + 1 := by
    rw [hrank, Nat.add_mul_div_right _ _ (by decide), Nat.div_eq_of_lt hsmall, Nat.zero_add]
  have hmod : (exponent * binadeSize + significand) % binadeSize = significand - binadeSize := by
    rw [hrank, Nat.add_mul_mod_self_right, Nat.mod_eq_of_lt hsmall]
  rw [units, if_neg (by omega), hdiv, hmod, Nat.add_sub_cancel, Nat.add_sub_cancel' hlow]

/-- Natural numbers of at most 53 bits, and the next one, are numbers of the format. -/
theorem units_naturalRank {n : Nat} (h : n ≤ 2 ^ 53) : units (naturalRank n) = n * one := by
  have hexists : ∃ rank, units rank = n * one := by
    rcases Nat.eq_zero_or_pos n with rfl | hpos
    · exact ⟨0, by rw [Nat.zero_mul]; rfl⟩
    · rcases Nat.lt_or_eq_of_le h with hlt | rfl
      · have hlog : n.log2 ≤ 52 := Nat.le_of_lt_succ ((Nat.log2_lt (by omega)).mpr hlt)
        have hself : 2 ^ n.log2 ≤ n := Nat.log2_self_le (by omega)
        have hnext : n < 2 ^ (n.log2 + 1) := Nat.lt_log2_self
        have hpow : 2 ^ n.log2 * 2 ^ (52 - n.log2) = 2 ^ 52 := by
          rw [← Nat.pow_add, Nat.add_sub_cancel' hlog]
        refine ⟨(1022 + n.log2) * binadeSize + n * 2 ^ (52 - n.log2), ?_⟩
        rw [units_mul_add, powerOfTwo_eq, Nat.mul_assoc, ← Nat.pow_add, one, powerOfTwo_eq]
        · congr 2
          omega
        · rw [binadeSize_eq, ← hpow]
          exact Nat.mul_le_mul_right _ hself
        · rw [binadeSize_eq, ← hpow, ← Nat.mul_assoc, ← Nat.pow_succ']
          exact Nat.mul_lt_mul_of_pos_right hnext (Nat.pow_pos (by decide))
      · have hdouble : ∀ k, binadeSize * powerOfTwo (k + 1) = 2 ^ 53 * powerOfTwo k := by
          intro k
          rw [powerOfTwo_eq, powerOfTwo_eq, binadeSize_eq, Nat.pow_succ 2 k]
          ring
        refine ⟨(1074 + 1) * binadeSize + binadeSize, ?_⟩
        rw [units_mul_add (Nat.le_refl _) (by decide), hdouble, one]
  obtain ⟨rank, hrank⟩ := hexists
  have hround := nearestRank_units rank Nat.one_pos
  rw [Nat.mul_one, hrank] at hround
  rw [naturalRank, ratioRank, hround, hrank]

/-! ## Arithmetic -/

theorem naturalRank_mono {m n : Nat} (h : m ≤ n) : naturalRank m ≤ naturalRank n :=
  nearestRank_mono (Nat.mul_le_mul_right one h)

theorem productRank_mono {r s : Nat} (h : r ≤ s) (t : Nat) : productRank r t ≤ productRank s t :=
  nearestRank_mono (Nat.mul_le_mul_right _ (units_le_units_iff.mpr h))

/-- Multiplying by one or more does not decrease. -/
theorem le_productRank {r s : Nat} (h : one ≤ units s) : r ≤ productRank r s := by
  calc r = nearestRank (units r * one) one := (nearestRank_units r (powerOfTwo_pos 1074)).symm
    _ ≤ productRank r s := nearestRank_mono (Nat.mul_le_mul_left _ h)

/-- Dividing by one or more does not increase. -/
theorem quotientRank_le {r s : Nat} (h : one ≤ units s) : quotientRank r s ≤ r := by
  have hpos : 0 < units s := Nat.lt_of_lt_of_le (powerOfTwo_pos 1074) h
  calc quotientRank r s ≤ nearestRank (units r * units s) (units s) :=
        nearestRank_mono (Nat.mul_le_mul_left _ h)
    _ = r := nearestRank_units r hpos

end FeedbackBoard.Binary64
