import FeedbackBoard.Proofs.Json.Scalars
import Mathlib.Data.List.TakeWhile

/-!
# Texts of numbers

Every number is written as a numeral.  For integers this is plain; a binary64
number goes through the shortest decimal, which must not begin with a zero.

Main definitions:

- `Decimal.scaled`: the decimal of a significand and a power of ten.
- `Decimal.IsProper`: decimals that are written as numerals.
- `Number.numeral`: the numeral of a number.

Main results:

- `Binary64.shortest_eq_scaled`: the shortest decimal lies in the rounding interval.
- `Number.chars_numeral`, `Number.wellFormed_numeral`: the text of a number is its
  numeral, and the grammar allows it.
-/

namespace FeedbackBoard

/-! ## Decimals -/

/-- Trimming takes trailing zeros away. -/
theorem exists_trimmedDigits (n : Nat) :
    ∃ zeros, decimalDigits n = trimmedDigits n ++ List.replicate zeros '0' := by
  obtain ⟨zeros, hzeros⟩ : ∃ zeros, (decimalDigits n).reverse.takeWhile (· == '0') =
      List.replicate zeros '0' := by
    refine ⟨_, List.eq_replicate_of_mem ?_⟩
    intro c hc
    have hzero := List.mem_takeWhile_imp (p := (· == '0')) hc
    exact beq_iff_eq.mp hzero
  have hsplit : decimalDigits n = ((decimalDigits n).reverse.dropWhile (· == '0')).reverse ++
      List.replicate zeros '0' := by
    have happend := List.takeWhile_append_dropWhile (p := (· == '0')) (l := (decimalDigits n).reverse)
    rw [hzeros] at happend
    rw [← List.reverse_replicate, ← List.reverse_append, happend, List.reverse_reverse]
  rw [trimmedDigits]
  split
  next hempty =>
    -- Nothing but zeros: one of them stays.
    rw [List.isEmpty_iff] at hempty
    rw [hempty, List.nil_append] at hsplit
    refine ⟨zeros - 1, ?_⟩
    have hpos : zeros ≠ 0 := by
      rintro rfl
      exact decimalDigits_ne_nil n hsplit
    obtain ⟨k, rfl⟩ := Nat.exists_eq_succ_of_ne_zero hpos
    exact hsplit
  next => exact ⟨zeros, hsplit⟩

theorem trimmedDigits_ne_nil (n : Nat) : trimmedDigits n ≠ [] := by
  rw [trimmedDigits]
  split
  next => exact List.cons_ne_nil _ _
  next hempty => simpa using hempty

theorem isDigit_of_mem_trimmedDigits {n : Nat} {c : Char} (h : c ∈ trimmedDigits n) :
    c.isDigit = true := by
  obtain ⟨zeros, hzeros⟩ := exists_trimmedDigits n
  apply isDigit_of_mem_decimalDigits (n := n)
  rw [hzeros]
  exact List.mem_append_left _ h

theorem head_trimmedDigits {n : Nat} (hn : 0 < n) : (trimmedDigits n).head? ≠ some '0' := by
  obtain ⟨zeros, hzeros⟩ := exists_trimmedDigits n
  have hhead := head_decimalDigits hn
  rw [hzeros, List.head?_append] at hhead
  cases htrimmed : trimmedDigits n with
  | nil => exact absurd htrimmed (trimmedDigits_ne_nil n)
  | cons c rest =>
      rw [htrimmed] at hhead
      exact hhead

namespace Decimal

/-- Decimals that are written as numerals: the first digit is no zero, or it is the only one. -/
structure IsProper (d : Decimal) : Prop where
  digits : ∀ c ∈ d.digits, c.isDigit = true
  nonempty : d.digits ≠ []
  leading : d.digits.head? ≠ some '0' ∨ d = ⟨['0'], 0⟩

/-- The decimal `significand * 10 ^ step`. -/
def scaled (significand : Nat) (step : Int) : Decimal where
  digits := trimmedDigits significand
  exponent := step + (((decimalDigits significand).length : Int) - 1)

theorem isProper_scaled {significand : Nat} {step : Int} (h : significand = 0 → step = 0) :
    (scaled significand step).IsProper where
  digits _ hc := isDigit_of_mem_trimmedDigits hc
  nonempty := trimmedDigits_ne_nil significand
  leading := by
    by_cases hzero : significand = 0
    · rw [h hzero, hzero]
      exact Or.inr rfl
    · exact Or.inl (head_trimmedDigits (Nat.pos_of_ne_zero hzero))

end Decimal

/-! ## The shortest decimal -/

namespace Binary64

theorem units_pos {rank : Nat} (h : 0 < rank) : 0 < units rank := by
  rw [units]
  split
  · exact h
  · exact Nat.mul_pos (Nat.add_pos_left (by decide) _) (Nat.pow_pos (by decide))

/-- A point passes the test of an interval, with its ends or without them, only if it lies in it. -/
theorem bounds_of_inside {rank lower point upper : Nat}
    (h : (if rank % 2 = 0 then decide (lower ≤ point) && decide (point ≤ upper)
      else decide (lower < point) && decide (point < upper)) = true) :
    lower ≤ point ∧ point ≤ upper := by
  split at h <;> simp only [Bool.and_eq_true, decide_eq_true_iff] at h
  · exact h
  · exact ⟨Nat.le_of_lt h.1, Nat.le_of_lt h.2⟩

theorem scale_pos (step : Int) : 0 < if 0 ≤ step then 1 else powerOfTen (-step).toNat := by
  split
  · decide
  · exact Nat.pow_pos (by decide)

/-- A candidate is a positive point of its grid, and no point past the middle to the next number. -/
theorem candidate?_spec {rank count significand : Nat} {top step : Int} (hrank : 0 < rank)
    (h : candidate? rank top count = some (significand, step)) :
    0 < significand ∧
      significand * (if 0 ≤ step then powerOfTen step.toNat * one * 2 else one * 2) ≤
        (units rank + units (rank + 1)) * if 0 ≤ step then 1 else powerOfTen (-step).toNat := by
  unfold candidate? at h
  simp only at h
  generalize hstep : top - ((count - 1 : Nat) : Int) = step' at h
  have hlower : 0 < (units (rank - 1) + units rank) *
      if 0 ≤ step' then 1 else powerOfTen (-step').toNat :=
    Nat.mul_pos (Nat.add_pos_right _ (units_pos hrank)) (scale_pos step')
  generalize hgrid : (if 0 ≤ step' then powerOfTen step'.toNat * one * 2 else one * 2) = grid at h
  generalize hscale : (if 0 ≤ step' then 1 else powerOfTen (-step').toNat) = scale at h hlower
  generalize (units (rank - 1) + units rank) * scale = lower at h hlower
  generalize hupper : (units rank + units (rank + 1)) * scale = upper at h
  generalize 2 * units rank * scale = value at h
  -- Whichever point is taken, it lies inside the interval.
  have hinside : step' = step ∧ lower ≤ significand * grid ∧ significand * grid ≤ upper := by
    split at h
    · cases h
    · next hbelow _ =>
        cases h
        exact ⟨rfl, bounds_of_inside hbelow⟩
    · next _ habove =>
        cases h
        exact ⟨rfl, bounds_of_inside habove⟩
    · next hbelow habove =>
        split at h
        · cases h
          exact ⟨rfl, bounds_of_inside hbelow⟩
        · split at h
          · cases h
            exact ⟨rfl, bounds_of_inside habove⟩
          · cases h
            refine ⟨rfl, ?_⟩
            split
            · exact bounds_of_inside hbelow
            · exact bounds_of_inside habove
  obtain ⟨rfl, hleast, hgreatest⟩ := hinside
  rw [hgrid, hscale, hupper]
  refine ⟨Nat.pos_of_ne_zero ?_, hgreatest⟩
  rintro rfl
  omega

/-- What is taken is a candidate, or nothing. -/
theorem firstCandidate_spec {rank : Nat} {top : Int} (hrank : 0 < rank) (fuel count : Nat)
    {significand : Nat} {step : Int} (h : firstCandidate rank top fuel count = (significand, step)) :
    (significand = 0 → step = 0) ∧
      significand * (if 0 ≤ step then powerOfTen step.toNat * one * 2 else one * 2) ≤
        (units rank + units (rank + 1)) * if 0 ≤ step then 1 else powerOfTen (-step).toNat := by
  induction fuel generalizing count with
  | zero =>
      cases h
      exact ⟨fun _ => rfl, by rw [Nat.zero_mul]; exact Nat.zero_le _⟩
  | succ fuel ih =>
      rw [firstCandidate] at h
      cases hfound : candidate? rank top count with
      | none =>
          rw [hfound] at h
          exact ih (count + 1) h
      | some found =>
          rw [hfound] at h
          subst h
          obtain ⟨hpos, hbound⟩ := candidate?_spec hrank hfound
          exact ⟨fun hzero => absurd hzero (Nat.ne_of_gt hpos), hbound⟩

/-- The shortest decimal is a point of a grid that lies below the middle to the next number. -/
theorem shortest_eq_scaled (rank : Nat) : ∃ significand step,
    shortest rank = .scaled significand step ∧ (significand = 0 → step = 0) ∧
      significand * (if 0 ≤ step then powerOfTen step.toNat * one * 2 else one * 2) ≤
        (units rank + units (rank + 1)) * if 0 ≤ step then 1 else powerOfTen (-step).toNat := by
  rw [shortest]
  split
  · exact ⟨0, 0, rfl, fun _ => rfl, by rw [Nat.zero_mul]; exact Nat.zero_le _⟩
  · next hrank =>
      simp only
      generalize hfound : firstCandidate rank (leadingExponent (units rank) one) 17 1 = found
      obtain ⟨significand, step⟩ := found
      obtain ⟨hzero, hbound⟩ := firstCandidate_spec (Nat.pos_of_ne_zero hrank) 17 1 hfound
      exact ⟨significand, step, rfl, hzero, hbound⟩

theorem isProper_shortest (rank : Nat) : (shortest rank).IsProper := by
  obtain ⟨significand, step, heq, hzero, _⟩ := shortest_eq_scaled rank
  rw [heq]
  exact Decimal.isProper_scaled hzero

end Binary64

namespace Json

/-! ## Layout -/

/-- The numeral of a decimal. -/
def decimalNumeral (negative : Bool) (d : Decimal) : Numeral :=
  if -5 ≤ d.exponent ∧ d.exponent ≤ 15 then
    if 0 ≤ d.exponent then
      let whole := d.exponent.toNat + 1
      if d.digits.length ≤ whole then
        { negative, whole := d.digits ++ List.replicate (whole - d.digits.length) '0',
          fraction := some ['0'], exponent := none }
      else
        { negative, whole := d.digits.take whole, fraction := some (d.digits.drop whole),
          exponent := none }
    else
      { negative, whole := ['0'],
        fraction := some (List.replicate ((-d.exponent).toNat - 1) '0' ++ d.digits),
        exponent := none }
  else
    { negative, whole := d.digits.take 1,
      fraction := if d.digits.length ≤ 1 then none else some (d.digits.drop 1),
      exponent := some ⟨['e', if d.exponent < 0 then '-' else '+'],
        decimalDigits d.exponent.natAbs⟩ }

theorem doubleLayout_write (d : Decimal) :
    doubleLayout.write d =
      if -5 ≤ d.exponent ∧ d.exponent ≤ 15 then d.plain else doubleLayout.scientific d :=
  rfl

/-- A decimal is written as its numeral. -/
theorem write_eq_chars {d : Decimal} (h : d.digits ≠ []) :
    doubleLayout.write d = (decimalNumeral false d).chars := by
  have hpower : doubleLayout.exponentDigits - (decimalDigits d.exponent.natAbs).length = 0 := by
    have hpos := List.length_pos_iff.mpr (decimalDigits_ne_nil d.exponent.natAbs)
    exact Nat.sub_eq_zero_of_le hpos
  rw [doubleLayout_write, decimalNumeral]
  by_cases hplain : -5 ≤ d.exponent ∧ d.exponent ≤ 15
  · rw [if_pos hplain, if_pos hplain, Decimal.plain]
    by_cases hexponent : 0 ≤ d.exponent
    · rw [if_pos hexponent, if_pos hexponent]
      by_cases hlength : d.digits.length ≤ d.exponent.toNat + 1
      · simp [Numeral.chars, hlength]
      · simp [Numeral.chars, hlength]
    · rw [if_neg hexponent, if_neg hexponent]
      simp [Numeral.chars]
  · rw [if_neg hplain, if_neg hplain, Layout.scientific, hpower]
    obtain ⟨digits, exponent⟩ := d
    cases digits with
    | nil => exact absurd rfl h
    | cons first rest =>
        cases rest with
        | nil => simp [Numeral.chars, doubleLayout]
        | cons second rest => simp [Numeral.chars]

theorem wholeDigitsAllowed_of_head {digits : List Char} (hne : digits ≠ [])
    (hhead : digits.head? ≠ some '0') : wholeDigitsAllowed digits = true := by
  unfold wholeDigitsAllowed
  split
  · exact absurd rfl hne
  · exact absurd rfl hhead
  · rfl

theorem isDigit_of_mem_replicate_zero {n : Nat} {c : Char} (h : c ∈ List.replicate n '0') :
    c.isDigit = true := by
  rw [List.eq_of_mem_replicate h]
  rfl

theorem isDigit_of_mem_zero : ∀ c ∈ ['0'], c.isDigit = true :=
  fun _ hc => isDigit_of_mem_replicate_zero (n := 1) hc

/-! ### Digits on both sides of the point -/

section Parts

variable {d : Decimal} (h : d.IsProper)
include h

/-- All digits and some zeros may stand before the point if the exponent leaves room for them. -/
theorem wholeDigitsAllowed_padded :
    wholeDigitsAllowed
      (d.digits ++ List.replicate (d.exponent.toNat + 1 - d.digits.length) '0') = true := by
  rcases h.leading with hhead | rfl
  · apply wholeDigitsAllowed_of_head
    · simp [h.nonempty]
    · rw [List.head?_append]
      cases hdigits : d.digits with
      | nil => exact absurd hdigits h.nonempty
      | cons c rest =>
          rw [hdigits] at hhead
          exact hhead
  · rfl

/-- Some of the digits may stand before the point. -/
theorem wholeDigitsAllowed_take {n : Nat} (hlength : ¬ d.digits.length ≤ n + 1) :
    wholeDigitsAllowed (d.digits.take (n + 1)) = true := by
  rcases h.leading with hhead | rfl
  · apply wholeDigitsAllowed_of_head
    · simp [h.nonempty]
    · rw [List.head?_take]
      simpa using hhead
  · exact absurd (Nat.le_add_left 1 n) hlength

/-- A single digit may stand before the point. -/
theorem wholeDigitsAllowed_take_one : wholeDigitsAllowed (d.digits.take 1) = true := by
  cases hdigits : d.digits with
  | nil => exact absurd hdigits h.nonempty
  | cons c rest =>
      rw [List.take_succ_cons, List.take_zero]
      unfold wholeDigitsAllowed
      split <;> simp_all

/-- The digits that are left may stand after the point. -/
theorem digits_drop {n : Nat} (hlength : ¬ d.digits.length ≤ n) :
    d.digits.drop n ≠ [] ∧ ∀ c ∈ d.digits.drop n, c.isDigit = true := by
  refine ⟨?_, fun c hc => h.digits c (List.mem_of_mem_drop hc)⟩
  rw [Ne, List.drop_eq_nil_iff]
  exact hlength

/-- Some zeros and all digits may stand after the point. -/
theorem digits_after_zeros (n : Nat) :
    List.replicate n '0' ++ d.digits ≠ [] ∧
      ∀ c ∈ List.replicate n '0' ++ d.digits, c.isDigit = true := by
  refine ⟨by simp [h.nonempty], fun c hc => ?_⟩
  rcases List.mem_append.mp hc with hc | hc
  · exact isDigit_of_mem_replicate_zero hc
  · exact h.digits c hc

/-- The grammar allows the numeral of a proper decimal. -/
theorem wellFormed_decimalNumeral (negative : Bool) :
    (decimalNumeral negative d).WellFormed := by
  rw [decimalNumeral]
  split
  next =>
    split
    next =>
      simp only
      split
      next =>
        refine ⟨?_, wholeDigitsAllowed_padded h, ?_, fun _ hpart => by cases hpart⟩
        · intro c hc
          rcases List.mem_append.mp hc with hc | hc
          · exact h.digits c hc
          · exact isDigit_of_mem_replicate_zero hc
        · intro digits hdigits
          cases hdigits
          exact ⟨List.cons_ne_nil '0' [], isDigit_of_mem_zero⟩
      next hlength =>
        refine ⟨fun c hc => h.digits c (List.mem_of_mem_take hc),
          wholeDigitsAllowed_take h hlength, ?_, fun _ hpart => by cases hpart⟩
        intro digits hdigits
        cases hdigits
        exact digits_drop h hlength
    next =>
      refine ⟨isDigit_of_mem_zero, rfl, ?_, fun _ hpart => by cases hpart⟩
      intro digits hdigits
      cases hdigits
      exact digits_after_zeros h _
  next =>
    refine ⟨fun c hc => h.digits c (List.mem_of_mem_take hc),
      wholeDigitsAllowed_take_one h, ?_, ?_⟩
    · intro digits hdigits
      simp only at hdigits
      split at hdigits
      · cases hdigits
      next hlength =>
        cases hdigits
        exact digits_drop h hlength
    · intro part hpart
      cases hpart
      refine ⟨?_, decimalDigits_ne_nil _, fun c hc => isDigit_of_mem_decimalDigits hc⟩
      split
      · exact Or.inr rfl
      · exact Or.inl rfl

end Parts

/-! ## Numbers -/

/-- The numeral of an integer. -/
def integerNumeral (n : Int) : Numeral where
  negative := decide (n < 0)
  whole := decimalDigits n.natAbs
  fraction := none
  exponent := none

/-- The numeral of a number. -/
def Number.numeral : Number → Numeral
  | .integer n _ _ => integerNumeral n
  | .double x => decimalNumeral x.negative (Binary64.shortest x.rank)

/-- The sign stands before the rest of the numeral. -/
theorem chars_decimalNumeral (negative : Bool) (d : Decimal) :
    (decimalNumeral negative d).chars =
      (if negative then ['-'] else []) ++ (decimalNumeral false d).chars := by
  have hsigned : decimalNumeral negative d = { decimalNumeral false d with negative } := by
    unfold decimalNumeral
    split
    · split
      · simp only
        split <;> rfl
      · rfl
    · rfl
  have hunsigned : (decimalNumeral false d).negative = false := by
    unfold decimalNumeral
    split
    · split
      · simp only
        split <;> rfl
      · rfl
    · rfl
  rw [hsigned, Numeral.chars_eq, Numeral.chars_eq, hunsigned]
  simp

/-- The text of a number is its numeral. -/
theorem Number.chars_numeral (n : Number) : n.numeral.chars = n.text := by
  cases n with
  | integer n lower upper =>
      simp [Number.numeral, Number.text, integerNumeral, integerText, Numeral.chars]
  | double x =>
      rw [Number.numeral, Number.text, doubleText, chars_decimalNumeral,
        write_eq_chars (Binary64.isProper_shortest x.rank).nonempty]

theorem wellFormed_integerNumeral (n : Int) : (integerNumeral n).WellFormed where
  whole _ hc := isDigit_of_mem_decimalDigits hc
  leading := by
    rw [integerNumeral]
    by_cases hzero : n.natAbs = 0
    · rw [hzero]
      rfl
    · exact wholeDigitsAllowed_of_head (decimalDigits_ne_nil _)
        (head_decimalDigits (Nat.pos_of_ne_zero hzero))
  fraction _ hdigits := by cases hdigits
  exponent _ hpart := by cases hpart

/-- The grammar allows the numeral of every number. -/
theorem Number.wellFormed_numeral (n : Number) : n.numeral.WellFormed := by
  cases n with
  | integer n lower upper => exact wellFormed_integerNumeral n
  | double x => exact wellFormed_decimalNumeral (Binary64.isProper_shortest x.rank) x.negative

/-- An integer is its magnitude with its sign. -/
theorem signed_natAbs (n : Int) :
    (if decide (n < 0) = true then -(n.natAbs : Int) else n.natAbs) = n := by
  split
  next h =>
    rw [decide_eq_true_iff] at h
    omega
  next h =>
    rw [decide_eq_true_iff] at h
    omega

/-- An integer is read back. -/
theorem value?_integerNumeral {n : Int} (lower : -0x8000000000000000 ≤ n)
    (upper : n < 0x10000000000000000) :
    (integerNumeral n).value? = some (.integer n lower upper) := by
  have hzero : (decide (n < 0) && n.natAbs == 0) = false := by
    rw [Bool.and_eq_false_iff, decide_eq_false_iff_not, beq_eq_false_iff_ne]
    omega
  have hbounds : -0x8000000000000000 ≤ n ∧ n < 0x10000000000000000 := ⟨lower, upper⟩
  simp only [Numeral.value?, integerNumeral, naturalOfDigits_decimalDigits, hzero, signed_natAbs,
    Number.ofInt?, dif_pos hbounds, Option.isNone_none, Bool.and_true, if_true]
  simp

end Json

end FeedbackBoard
