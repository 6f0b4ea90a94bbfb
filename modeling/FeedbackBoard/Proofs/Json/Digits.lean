import FeedbackBoard.Json.Number
import Mathlib.Algebra.Ring.Nat

/-!
# Decimal digits

Natural numbers and integers are written with decimal digits and read back from
them.

Main results:

- `head_decimalDigits`: a positive number has no leading zero.
- `naturalOfDigits_decimalDigits`: the digits of a number spell the number.
- `naturalOfDigits_append`, `naturalOfDigits_lt`: the number that digits spell.
- `integerText_injective`: two integers have different texts.
-/

namespace FeedbackBoard

theorem decimalDigits_ne_nil (n : Nat) : decimalDigits n ≠ [] :=
  Nat.toDigits_ne_nil

/-- The digits of a number are digits. -/
theorem isDigit_of_mem_decimalDigits {n : Nat} {c : Char} (h : c ∈ decimalDigits n) :
    c.isDigit = true :=
  Nat.isDigit_of_mem_toDigits (by decide) (by decide) h

/-- A positive number has no leading zero. -/
theorem head_decimalDigits {n : Nat} (hn : 0 < n) : (decimalDigits n).head? ≠ some '0' := by
  rw [decimalDigits]
  induction n using Nat.strongRecOn with
  | ind n ih =>
      by_cases hsmall : n < 10
      · rw [Nat.toDigits_of_lt_base hsmall]
        have hdigit : ∀ d < 10, 0 < d → [d.digitChar].head? ≠ some '0' := by decide
        exact hdigit n hsmall hn
      · have hrest := ih (n / 10) (by omega) (by omega)
        rw [Nat.toDigits_of_base_le (by decide) (by omega), List.head?_append]
        cases hdigits : Nat.toDigits 10 (n / 10) with
        | nil => exact absurd hdigits Nat.toDigits_ne_nil
        | cons c rest =>
            rw [hdigits] at hrest
            exact hrest

namespace Json

/-- Reading digits from left to right is what the library does. -/
theorem naturalOfDigits_eq (digits : List Char) :
    naturalOfDigits digits = Nat.ofDigitChars 10 digits 0 := by
  rw [naturalOfDigits, Nat.ofDigitChars_eq_foldl]
  congr 1
  funext n c
  rw [digitValue, Nat.mul_comm]

/-- The digits of a number spell the number. -/
theorem naturalOfDigits_decimalDigits (n : Nat) : naturalOfDigits (decimalDigits n) = n := by
  rw [naturalOfDigits_eq]
  exact Nat.ofDigitChars_ten_toDigits

/-- Digits that follow are less significant. -/
theorem naturalOfDigits_append (s t : List Char) :
    naturalOfDigits (s ++ t) = naturalOfDigits s * 10 ^ t.length + naturalOfDigits t := by
  rw [naturalOfDigits_eq, naturalOfDigits_eq, naturalOfDigits_eq, Nat.ofDigitChars_append,
    Nat.ofDigitChars_eq_ofDigitChars_zero, Nat.mul_comm]

theorem naturalOfDigits_cons (c : Char) (t : List Char) :
    naturalOfDigits (c :: t) = digitValue c * 10 ^ t.length + naturalOfDigits t := by
  rw [← List.singleton_append, naturalOfDigits_append]
  simp [naturalOfDigits]

theorem naturalOfDigits_replicate_zero (n : Nat) :
    naturalOfDigits (List.replicate n '0') = 0 := by
  rw [naturalOfDigits_eq, Nat.ofDigitChars_replicate_zero, Nat.mul_zero]

/-- The value of a digit is less than ten. -/
theorem digitValue_lt {c : Char} (h : c.isDigit = true) : digitValue c < 10 := by
  simp only [Char.isDigit, Bool.and_eq_true, decide_eq_true_iff] at h
  have hlow : '0'.val.toNat ≤ c.val.toNat := h.1
  have hhigh : c.val.toNat ≤ '9'.val.toNat := h.2
  have hzero : '0'.val.toNat = 48 := rfl
  have hnine : '9'.val.toNat = 57 := rfl
  rw [digitValue, Char.toNat, Char.toNat]
  omega

/-- Digits spell less than the power of ten of their number. -/
theorem naturalOfDigits_lt {digits : List Char} (h : ∀ c ∈ digits, c.isDigit = true) :
    naturalOfDigits digits < 10 ^ digits.length := by
  induction digits with
  | nil => decide
  | cons c digits ih =>
      have hc := digitValue_lt (h c List.mem_cons_self)
      have hrest := ih fun d hd => h d (List.mem_cons_of_mem c hd)
      have hmul : digitValue c * 10 ^ digits.length ≤ 9 * 10 ^ digits.length :=
        Nat.mul_le_mul_right _ (by omega)
      rw [naturalOfDigits_cons, List.length_cons, Nat.pow_succ]
      omega

theorem decimalDigits_injective {m n : Nat} (h : decimalDigits m = decimalDigits n) : m = n := by
  rw [← naturalOfDigits_decimalDigits m, h, naturalOfDigits_decimalDigits]

/-- Two integers have different texts. -/
theorem integerText_injective {m n : Int} (h : integerText m = integerText n) : m = n := by
  -- A minus sign is no digit, so the signs agree.
  have hsign : ∀ k l : Nat, decimalDigits k ≠ '-' :: decimalDigits l := by
    intro k l heq
    have hmem : '-' ∈ decimalDigits k := by
      rw [heq]
      exact List.mem_cons_self
    exact absurd (isDigit_of_mem_decimalDigits hmem) (by decide)
  unfold integerText at h
  split_ifs at h with hm hn hn
  · have habs := decimalDigits_injective (List.append_cancel_left h)
    omega
  · exact absurd h.symm (hsign _ _)
  · exact absurd h (hsign _ _)
  · have habs := decimalDigits_injective (List.append_cancel_left h)
    omega

end Json

end FeedbackBoard
