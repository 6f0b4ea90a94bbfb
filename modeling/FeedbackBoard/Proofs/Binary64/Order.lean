import FeedbackBoard.Binary64.Basic
import FeedbackBoard.Proofs.Order.Sorted

/-!
# The total order of binary64 numbers

The order of the format puts all numbers on one line, minus zero just below plus
zero.  Written as places on that line, it is the order of the integers.

Main results:

- `totalOrder_eq_compare`: the order compares places.
- `bits_injective`: numbers are known by their bits.
- the instances that make it a lawful comparison.
-/

namespace FeedbackBoard.Binary64

/-- The place of a number on the line; minus zero lies one place below plus zero. -/
def place (x : Binary64) : Int :=
  if x.negative then -(x.rank : Int) - 1 else x.rank

/-- Numbers have a place of their own. -/
theorem place_injective {x y : Binary64} (h : x.place = y.place) : x = y := by
  obtain ⟨xneg, xrank, hx⟩ := x
  obtain ⟨yneg, yrank, hy⟩ := y
  cases xneg <;> cases yneg <;> simp only [place, if_true, Bool.false_eq_true, if_false] at h
  · have hrank : xrank = yrank := by omega
    subst hrank
    rfl
  · omega
  · omega
  · have hrank : xrank = yrank := by omega
    subst hrank
    rfl

/-- Numbers have bits of their own. -/
theorem bits_injective {x y : Binary64} (h : x.bits = y.bits) : x = y := by
  obtain ⟨xneg, xrank, hx⟩ := x
  obtain ⟨yneg, yrank, hy⟩ := y
  -- Ranks end before the bit of the sign.
  rw [infinityRank] at hx hy
  cases xneg <;> cases yneg <;> simp only [bits, if_true, Bool.false_eq_true, if_false] at h
  · subst h
    rfl
  · omega
  · omega
  · have hrank : xrank = yrank := by omega
    subst hrank
    rfl

/-- The order of the format is the order of the places. -/
theorem totalOrder_eq_compare (x y : Binary64) : totalOrder x y = compare x.place y.place := by
  cases hx : x.negative <;> cases hy : y.negative <;>
    simp only [totalOrder, place, hx, hy, if_true, Bool.false_eq_true, if_false]
  · rcases Nat.lt_trichotomy x.rank y.rank with hlt | heq | hgt
    · rw [Nat.compare_eq_lt.mpr hlt, Int.compare_eq_lt.mpr (by omega)]
    · rw [Nat.compare_eq_eq.mpr heq, Int.compare_eq_eq.mpr (by omega)]
    · rw [Nat.compare_eq_gt.mpr hgt, Int.compare_eq_gt.mpr (by omega)]
  · rw [Int.compare_eq_gt.mpr (by omega)]
  · rw [Int.compare_eq_lt.mpr (by omega)]
  · rcases Nat.lt_trichotomy y.rank x.rank with hlt | heq | hgt
    · rw [Nat.compare_eq_lt.mpr hlt, Int.compare_eq_lt.mpr (by omega)]
    · rw [Nat.compare_eq_eq.mpr heq, Int.compare_eq_eq.mpr (by omega)]
    · rw [Nat.compare_eq_gt.mpr hgt, Int.compare_eq_gt.mpr (by omega)]

instance : Std.TransCmp totalOrder := by
  have h : totalOrder = fun x y => compare x.place y.place := by
    funext x y
    exact totalOrder_eq_compare x y
  rw [h]
  exact transCmp_on place compare

instance : Std.LawfulEqCmp totalOrder where
  compare_self := by
    intro x
    exact totalOrder_self x
  eq_of_compare := by
    intro x y h
    rw [totalOrder_eq_compare] at h
    exact place_injective (Std.LawfulEqCmp.eq_of_compare h)

end FeedbackBoard.Binary64
