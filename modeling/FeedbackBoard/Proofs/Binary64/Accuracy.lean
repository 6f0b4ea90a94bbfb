import FeedbackBoard.Proofs.Binary64.Nearest
import Mathlib.Algebra.Order.Field.Basic
import Mathlib.Tactic.GCongr
import Mathlib.Tactic.NormNum

/-!
# Accuracy of computed numbers

A computed number is near an exact one if it differs by no more than so many
roundings, each of at most one part in `2 ^ 53`.  Sums, products and quotients of
near numbers are near, and every operation of the format adds one rounding; so the
accuracy of a formula is counted along its operations.

Main definitions:

- `Near`: a number differs from another one by at most so many roundings.

Main results:

- `Near.sumRank`, `Near.productRank`, `Near.quotientRank`: one operation more.
- `Near.abs_sub_le`: what at most seven roundings amount to.
-/

namespace FeedbackBoard

/-- What one rounding keeps of a number at least. -/
def keptByRounding : ℚ := 1 - 1 / 2 ^ 53

theorem keptByRounding_pos : 0 < keptByRounding := by
  norm_num [keptByRounding]

theorem keptByRounding_le_one : keptByRounding ≤ 1 := by
  norm_num [keptByRounding]

/-- The first number differs from the second one by at most so many roundings. -/
structure Near (roundings : Nat) (x y : ℚ) : Prop where
  lower : y * keptByRounding ^ roundings ≤ x
  upper : x * keptByRounding ^ roundings ≤ y

namespace Near

variable {j k : Nat} {x y z x' y' : ℚ}

/-! ## Exact operations -/

theorem refl (x : ℚ) : Near 0 x x := by
  constructor <;> rw [pow_zero, mul_one]

theorem nonneg (h : Near k x y) (hy : 0 ≤ y) : 0 ≤ x :=
  le_trans (mul_nonneg hy (pow_pos keptByRounding_pos k).le) h.lower

/-- A number that is near is near by more roundings. -/
theorem mono (h : Near j x y) (hjk : j ≤ k) (hy : 0 ≤ y) : Near k x y := by
  have hpow : keptByRounding ^ k ≤ keptByRounding ^ j :=
    pow_le_pow_of_le_one keptByRounding_pos.le keptByRounding_le_one hjk
  exact ⟨(mul_le_mul_of_nonneg_left hpow hy).trans h.lower,
    (mul_le_mul_of_nonneg_left hpow (h.nonneg hy)).trans h.upper⟩

/-- Roundings one after the other add up. -/
theorem trans (hxy : Near j x y) (hyz : Near k y z) : Near (j + k) x z := by
  have hj := (pow_pos keptByRounding_pos j).le
  have hk := (pow_pos keptByRounding_pos k).le
  constructor
  · calc z * keptByRounding ^ (j + k)
        = z * keptByRounding ^ k * keptByRounding ^ j := by rw [pow_add]; ring
      _ ≤ y * keptByRounding ^ j := mul_le_mul_of_nonneg_right hyz.lower hj
      _ ≤ x := hxy.lower
  · calc x * keptByRounding ^ (j + k)
        = x * keptByRounding ^ j * keptByRounding ^ k := by rw [pow_add]; ring
      _ ≤ y * keptByRounding ^ k := mul_le_mul_of_nonneg_right hxy.upper hk
      _ ≤ z := hyz.upper

/-- Sums of near numbers are near. -/
theorem add (h : Near k x y) (h' : Near k x' y') : Near k (x + x') (y + y') := by
  constructor
  · rw [add_mul]
    exact add_le_add h.lower h'.lower
  · rw [add_mul]
    exact add_le_add h.upper h'.upper

/-- In a product the roundings of both factors count. -/
theorem mul (h : Near j x y) (h' : Near k x' y') (hy : 0 ≤ y) (hy' : 0 ≤ y') :
    Near (j + k) (x * x') (y * y') := by
  have hk := (pow_pos keptByRounding_pos k).le
  have hx := h.nonneg hy
  have hx' := h'.nonneg hy'
  constructor
  · calc y * y' * keptByRounding ^ (j + k)
        = y * keptByRounding ^ j * (y' * keptByRounding ^ k) := by rw [pow_add]; ring
      _ ≤ x * x' := mul_le_mul h.lower h'.lower (mul_nonneg hy' hk) hx
  · calc x * x' * keptByRounding ^ (j + k)
        = x * keptByRounding ^ j * (x' * keptByRounding ^ k) := by rw [pow_add]; ring
      _ ≤ y * y' := mul_le_mul h.upper h'.upper (mul_nonneg hx' hk) hy

/-- A near number of a positive one is positive. -/
theorem pos (h : Near k x y) (hy : 0 < y) : 0 < x :=
  lt_of_lt_of_le (mul_pos hy (pow_pos keptByRounding_pos k)) h.lower

/-- The inverse of a near number is near. -/
theorem inv (h : Near k x y) (hy : 0 < y) : Near k x⁻¹ y⁻¹ := by
  have hx := h.pos hy
  constructor
  · rw [inv_mul_le_iff₀ hy, ← div_eq_mul_inv, le_div_iff₀ hx, mul_comm]
    exact h.upper
  · rw [inv_mul_le_iff₀ hx, ← div_eq_mul_inv, le_div_iff₀ hy, mul_comm]
    exact h.lower

/-- In a quotient the roundings of both sides count. -/
theorem div (h : Near j x y) (h' : Near k x' y') (hy : 0 ≤ y) (hy' : 0 < y') :
    Near (j + k) (x / x') (y / y') := by
  rw [div_eq_mul_inv, div_eq_mul_inv]
  exact h.mul (h'.inv hy') hy (inv_nonneg.mpr hy'.le)

/-! ## What roundings amount to -/

/-- Seven roundings change a number by at most one part in `2 ^ 50`. -/
theorem abs_sub_le (h : Near 7 x y) (hy : 0 ≤ y) : |x - y| ≤ y / 2 ^ 50 := by
  have hlower : 1 - 1 / 2 ^ 50 ≤ keptByRounding ^ 7 := by norm_num [keptByRounding]
  have hupper : 1 ≤ (1 + 1 / 2 ^ 50) * keptByRounding ^ 7 := by norm_num [keptByRounding]
  have hbelow : y * (1 - 1 / 2 ^ 50) ≤ x := (mul_le_mul_of_nonneg_left hlower hy).trans h.lower
  have habove : x ≤ (1 + 1 / 2 ^ 50) * y :=
    calc x ≤ x * ((1 + 1 / 2 ^ 50) * keptByRounding ^ 7) :=
          le_mul_of_one_le_right (h.nonneg hy) hupper
      _ = (1 + 1 / 2 ^ 50) * (x * keptByRounding ^ 7) := by ring
      _ ≤ (1 + 1 / 2 ^ 50) * y := mul_le_mul_of_nonneg_left h.upper (by positivity)
  rw [abs_le]
  constructor <;> linarith

/-! ## Operations of the format -/

section Operations

open Binary64

/-- A number that is off by one part in `2 ^ 53` is near by one rounding. -/
theorem of_abs_sub_le (h : |x - y| ≤ y / 2 ^ 53) : Near 1 x y := by
  obtain ⟨hbelow, habove⟩ := abs_le.mp h
  have hy : 0 ≤ y := by
    have hpart := (abs_nonneg _).trans h
    linarith
  constructor
  · rw [pow_one, keptByRounding]
    linarith
  · rw [pow_one, keptByRounding]
    linarith

/-- The least number with a full significand. -/
def leastNormal : ℚ :=
  binadeSize / one

/-- A rounded value that is not tiny is near the exact one. -/
theorem nearestRank {num den : Nat} (hden : 0 < den)
    (hnormal : leastNormal ≤ num / (den * one)) :
    Near 1 (value (nearestRank num den)) (num / (den * one)) := by
  refine of_abs_sub_le (abs_value_sub_le hden ?_)
  have hone := one_cast_pos
  have hpos : (0 : ℚ) < den := Nat.cast_pos.mpr hden
  rw [leastNormal, ← div_div, div_le_div_iff_of_pos_right hone, le_div_iff₀ hpos] at hnormal
  exact_mod_cast hnormal

/-- Numbers near one that is not small are not tiny. -/
theorem leastNormal_le (h : Near k x y) (hk : k ≤ 7) (hy : 1 / 2 ^ 60 ≤ y) : leastNormal ≤ x := by
  have hkept : 1 / 2 ≤ keptByRounding ^ 7 := by norm_num [keptByRounding]
  have hpos : (0 : ℚ) ≤ y := le_trans (by positivity) hy
  have hleast : leastNormal ≤ 1 / 2 ^ 61 := by
    have hnat : binadeSize * 2 ^ 61 ≤ one := by decide +kernel
    have hcast : (binadeSize : ℚ) * ((2 ^ 61 : Nat) : ℚ) ≤ (one : ℚ) := by
      rw [← Nat.cast_mul, Nat.cast_le]
      exact hnat
    rw [leastNormal, div_le_iff₀ one_cast_pos]
    rw [Nat.cast_pow, Nat.cast_ofNat] at hcast
    linarith only [hcast]
  calc leastNormal ≤ 1 / 2 ^ 60 * (1 / 2) := hleast.trans (by norm_num)
    _ ≤ y * keptByRounding ^ 7 := mul_le_mul hy hkept (by norm_num) hpos
    _ ≤ x := (h.mono hk hpos).lower

variable {a b : Nat}

/-- A sum has one rounding more than what is added. -/
theorem sumRank (ha : Near k (value a) x) (hb : Near k (value b) y) (hk : k ≤ 7)
    (hlarge : 1 / 2 ^ 60 ≤ x + y) : Near (1 + k) (value (sumRank a b)) (x + y) := by
  have hsum := ha.add hb
  have hexact : ((units a + units b : Nat) : ℚ) / ((1 : Nat) * one) = value a + value b := by
    rw [value, value, Nat.cast_one, one_mul, Nat.cast_add, add_div]
  refine Near.trans ?_ hsum
  rw [← hexact]
  refine Near.nearestRank Nat.one_pos ?_
  rw [hexact]
  exact hsum.leastNormal_le hk hlarge

/-- A product has one rounding more than both factors. -/
theorem productRank (ha : Near j (value a) x) (hb : Near k (value b) y) (hx : 0 ≤ x) (hy : 0 ≤ y)
    (hjk : j + k ≤ 7) (hlarge : 1 / 2 ^ 60 ≤ x * y) :
    Near (1 + (j + k)) (value (productRank a b)) (x * y) := by
  have hproduct := ha.mul hb hx hy
  have hexact : ((units a * units b : Nat) : ℚ) / (one * one) = value a * value b := by
    rw [value, value, Nat.cast_mul, mul_div_mul_comm]
  refine Near.trans ?_ hproduct
  rw [← hexact]
  refine Near.nearestRank Binary64.one_pos ?_
  rw [hexact]
  exact hproduct.leastNormal_le hjk hlarge

/-- A quotient has one rounding more than both sides. -/
theorem quotientRank (ha : Near j (value a) x) (hb : Near k (value b) y) (hx : 0 ≤ x) (hy : 0 < y)
    (hjk : j + k ≤ 7) (hlarge : 1 / 2 ^ 60 ≤ x / y) :
    Near (1 + (j + k)) (value (quotientRank a b)) (x / y) := by
  have hquotient := ha.div hb hx hy
  have hone := one_cast_pos
  have hden : 0 < units b := by
    have hvalue := hb.pos hy
    rw [value, div_pos_iff_of_pos_right hone] at hvalue
    exact_mod_cast hvalue
  have hexact : ((units a * one : Nat) : ℚ) / (units b * one) = value a / value b := by
    rw [value, value, Nat.cast_mul, mul_div_mul_right _ _ hone.ne',
      div_div_div_cancel_right₀ hone.ne']
  refine Near.trans ?_ hquotient
  rw [← hexact]
  refine Near.nearestRank hden ?_
  rw [hexact]
  exact hquotient.leastNormal_le hjk hlarge

end Operations

end Near

end FeedbackBoard
