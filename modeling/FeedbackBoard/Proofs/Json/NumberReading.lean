import FeedbackBoard.Proofs.Binary64.Rounding
import FeedbackBoard.Proofs.Json.NumberText

/-!
# Reading numbers

Every written number is read as some number.  For integers it is the same one.
A binary64 number may come back as one of its neighbours, because reading rounds
up to three times; but it never comes back as too large.  Close to the greatest
number there is little room for that, so the bound is exact: a decimal below the
middle between the two greatest numbers stays finite whatever power of ten it is
scaled by, and the greatest number is looked at by itself.

Main definitions:

- `Number.reread`: what a written number is read as.

Main results:

- `exists_scaledRank?`: scaling a decimal below the bound stays finite.
- `Number.value?_numeral`: every number is read back as some number.
-/

namespace FeedbackBoard

namespace Binary64

/-! ## Powers of ten -/

/-- Natural numbers above zero have ranks of at least one. -/
theorem one_le_units_naturalRank {n : Nat} (h : 0 < n) : one ≤ units (naturalRank n) := by
  calc one = units (naturalRank 1) := by rw [units_naturalRank (by decide), Nat.one_mul]
    _ ≤ units (naturalRank n) := units_le_units_iff.mpr (naturalRank_mono h)

/-- Powers of ten are ordered by their exponents. -/
theorem powerOfTen_mono {m n : Nat} (h : m ≤ n) : powerOfTen m ≤ powerOfTen n :=
  Nat.pow_le_pow_right (by decide) h

theorem powerOfTenRank_mono {m n : Nat} (h : m ≤ n) : powerOfTenRank m ≤ powerOfTenRank n :=
  naturalRank_mono (powerOfTen_mono h)

/-- Twice the middle between the two greatest numbers, in units. -/
def greatestSum : Nat :=
  units (infinityRank - 2) + units (infinityRank - 1)

theorem greatestSum_lt : greatestSum < powerOfTen 309 * (2 * one) := by
  decide +kernel

/-- The greatest significand of 64 bits that stays below the bound with a power of ten. -/
def greatestSignificand (power : Nat) : Nat :=
  min (greatestSum / (2 * one) / powerOfTen power) 0xFFFFFFFFFFFFFFFF

/-- Below the power `10 ^ 288` no significand of 64 bits leaves the bound. -/
theorem greatestSignificand_288 : greatestSignificand 288 = 0xFFFFFFFFFFFFFFFF := by
  decide +kernel

theorem le_greatestSignificand_iff {significand power : Nat} :
    significand ≤ greatestSignificand power ↔
      significand * powerOfTen power * (2 * one) ≤ greatestSum ∧
        significand ≤ 0xFFFFFFFFFFFFFFFF := by
  have hten : 0 < powerOfTen power := Nat.pow_pos (by decide)
  have hone : 0 < 2 * one := Nat.mul_pos (by decide) (powerOfTwo_pos 1074)
  rw [greatestSignificand, Nat.le_min, Nat.le_div_iff_mul_le hten, Nat.le_div_iff_mul_le hone]

theorem mul_powerOfTen_zero_le_greatestSum {significand : Nat}
    (h : significand < 0x10000000000000000) :
    significand * powerOfTen 0 * (2 * one) ≤ greatestSum := by
  have hle : significand ≤ greatestSignificand 288 := by
    rw [greatestSignificand_288]
    omega
  calc significand * powerOfTen 0 * (2 * one)
      ≤ significand * powerOfTen 288 * (2 * one) :=
        Nat.mul_le_mul_right _ (Nat.mul_le_mul_left _ (powerOfTen_mono (Nat.zero_le _)))
    _ ≤ greatestSum := (le_greatestSignificand_iff.mp hle).1

/-- The greatest significands stay finite, and so does what is smaller. -/
theorem productRank_greatestSignificand : ∀ n < 21,
    productRank (naturalRank (greatestSignificand (288 + n))) (powerOfTenRank (288 + n)) <
      infinityRank := by
  decide +kernel

end Binary64

namespace Json

open Binary64

/-! ## Scaling -/

/-- Scaling down does not increase. -/
theorem scaleDown_le (steps rank power : Nat) : scaleDown steps rank power ≤ rank := by
  have hpower : ∀ n, one ≤ units (powerOfTenRank n) := fun n =>
    one_le_units_naturalRank (Nat.pow_pos (by decide))
  induction steps generalizing rank power with
  | zero => exact Nat.le_refl _
  | succ steps ih =>
      rw [scaleDown]
      split
      · exact quotientRank_le (hpower _)
      · exact (ih _ _).trans (quotientRank_le (hpower _))

/-- Scaling up stays finite below the bound. -/
theorem productRank_lt_infinityRank {significand power : Nat}
    (hsignificand : significand < 0x10000000000000000) (hpower : power ≤ largestPower)
    (hbound : significand * powerOfTen power * (2 * one) ≤ greatestSum) :
    productRank (naturalRank significand) (powerOfTenRank power) < infinityRank := by
  rcases Nat.lt_or_ge power 288 with hsmall | hlarge
  · have hcheck := productRank_greatestSignificand 0 (by decide)
    rw [Nat.add_zero, greatestSignificand_288] at hcheck
    calc productRank (naturalRank significand) (powerOfTenRank power)
        ≤ productRank (naturalRank 0xFFFFFFFFFFFFFFFF) (powerOfTenRank power) :=
          productRank_mono (naturalRank_mono (by omega)) _
      _ = productRank (powerOfTenRank power) (naturalRank 0xFFFFFFFFFFFFFFFF) := by
          rw [productRank, productRank, Nat.mul_comm]
      _ ≤ productRank (powerOfTenRank 288) (naturalRank 0xFFFFFFFFFFFFFFFF) :=
          productRank_mono (powerOfTenRank_mono (Nat.le_of_lt hsmall)) _
      _ = productRank (naturalRank 0xFFFFFFFFFFFFFFFF) (powerOfTenRank 288) := by
          rw [productRank, productRank, Nat.mul_comm]
      _ < infinityRank := hcheck
  · have hsplit : power = 288 + (power - 288) := by omega
    have hcheck := productRank_greatestSignificand (power - 288) (by
      rw [largestPower] at hpower
      omega)
    rw [← hsplit] at hcheck
    have hle : significand ≤ greatestSignificand power :=
      le_greatestSignificand_iff.mpr ⟨hbound, by omega⟩
    exact Nat.lt_of_le_of_lt (productRank_mono (naturalRank_mono hle) _) hcheck

theorem naturalRank_lt_infinityRank {n : Nat} (h : n < 0x10000000000000000) :
    naturalRank n < infinityRank :=
  calc naturalRank n ≤ productRank (naturalRank n) (powerOfTenRank 0) :=
        le_productRank (one_le_units_naturalRank (Nat.pow_pos (by decide)))
    _ < infinityRank :=
        productRank_lt_infinityRank h (Nat.zero_le _) (mul_powerOfTen_zero_le_greatestSum h)

/-- Scaling a significand of 64 bits stays finite if the decimal lies below the bound. -/
theorem exists_scaledRank? {significand : Nat} {exponent : Int}
    (hsignificand : significand < 0x10000000000000000) (hexponent : exponent ≤ 308)
    (hbound : 0 < exponent →
      significand * powerOfTen exponent.toNat * (2 * one) ≤ greatestSum) :
    ∃ rank < infinityRank, scaledRank? significand exponent = some rank := by
  rw [scaledRank?]
  split
  · exact ⟨_, Nat.lt_of_le_of_lt (scaleDown_le _ _ _) (naturalRank_lt_infinityRank hsignificand), rfl⟩
  · next hpos =>
      have hpower : exponent.toNat ≤ largestPower := by
        rw [largestPower]
        omega
      have hbelow : significand * powerOfTen exponent.toNat * (2 * one) ≤ greatestSum := by
        rcases Int.lt_or_eq_of_le (Int.not_lt.mp hpos) with hlt | rfl
        · exact hbound hlt
        · rw [Int.toNat_zero]
          exact mul_powerOfTen_zero_le_greatestSum hsignificand
      have hfinite := productRank_lt_infinityRank hsignificand hpower hbelow
      simp only [if_pos hpower, if_pos hfinite]
      exact ⟨_, hfinite, rfl⟩

/-! ## Digits -/

/-- Absorbed digits spell no more than all digits, and fit in 64 bits. -/
theorem absorbDigits_spec {digits left : List Char} {start significand : Nat}
    (hstart : start < 0x10000000000000000)
    (h : absorbDigits start digits = (significand, left)) :
    significand < 0x10000000000000000 ∧ left.length ≤ digits.length ∧
      significand * 10 ^ left.length ≤ start * 10 ^ digits.length + naturalOfDigits digits := by
  induction digits generalizing start with
  | nil =>
      cases h
      exact ⟨hstart, Nat.le_refl _, Nat.le_add_right _ _⟩
  | cons c digits ih =>
      simp only [absorbDigits] at h
      split at h
      next hnext =>
        obtain ⟨hbound, hlength, hvalue⟩ := ih hnext h
        refine ⟨hbound, Nat.le_succ_of_le hlength, ?_⟩
        rw [naturalOfDigits_cons, List.length_cons, Nat.pow_succ, ← Nat.add_assoc]
        rw [Nat.add_mul] at hvalue
        calc significand * 10 ^ left.length
            ≤ start * 10 * 10 ^ digits.length + digitValue c * 10 ^ digits.length +
                naturalOfDigits digits := hvalue
          _ = start * (10 ^ digits.length * 10) + digitValue c * 10 ^ digits.length +
                naturalOfDigits digits := by ring
      next =>
        cases h
        exact ⟨hstart, Nat.le_refl _, Nat.le_add_right _ _⟩

/-- Digits that fit in 64 bits are absorbed. -/
theorem absorbDigits_eq {digits : List Char} {start : Nat}
    (h : start * 10 ^ digits.length + naturalOfDigits digits < 0x10000000000000000) :
    absorbDigits start digits = (start * 10 ^ digits.length + naturalOfDigits digits, []) := by
  induction digits generalizing start with
  | nil => simp [absorbDigits, naturalOfDigits]
  | cons c digits ih =>
      have hvalue : start * 10 ^ (c :: digits).length + naturalOfDigits (c :: digits) =
          (start * 10 + digitValue c) * 10 ^ digits.length + naturalOfDigits digits := by
        rw [naturalOfDigits_cons, List.length_cons, Nat.pow_succ]
        ring
      rw [hvalue] at h ⊢
      have hnext : start * 10 + digitValue c < 0x10000000000000000 := by
        have hpow : 1 ≤ 10 ^ digits.length := Nat.pow_pos (by decide)
        have hmul := Nat.mul_le_mul_left (start * 10 + digitValue c) hpow
        omega
      simp only [absorbDigits, if_pos hnext]
      exact ih h

/-! ## Numerals -/

/-- The digits of the fraction, those that are ignored included, only shift the exponent. -/
theorem shifted_le {significand ignored fraction power scale value limit : Nat}
    (hshift : scale + fraction = ignored + power) (hvalue : significand * 10 ^ ignored ≤ value)
    (hbound : value * powerOfTen power * (2 * one) ≤ limit * 10 ^ fraction) :
    significand * powerOfTen scale * (2 * one) ≤ limit := by
  have hten : 0 < 10 ^ fraction := Nat.pow_pos (by decide)
  apply Nat.le_of_mul_le_mul_right _ hten
  calc significand * powerOfTen scale * (2 * one) * 10 ^ fraction
      = significand * (10 ^ (scale + fraction)) * (2 * one) := by
        rw [Nat.pow_add, powerOfTen]
        simp only [Nat.pow_eq]
        ring
    _ = significand * 10 ^ ignored * powerOfTen power * (2 * one) := by
        rw [hshift, Nat.pow_add, powerOfTen]
        simp only [Nat.pow_eq]
        ring
    _ ≤ value * powerOfTen power * (2 * one) :=
        Nat.mul_le_mul_right _ (Nat.mul_le_mul_right _ hvalue)
    _ ≤ limit * 10 ^ fraction := hbound

/-- A numeral without a positive exponent, or below the bound, is read as some number. -/
theorem exists_double? {n : Numeral} (hwhole : naturalOfDigits n.whole < 0x10000000000000000)
    (hexponent : ∀ part, n.exponent = some part → '-' ∈ part.mark ∨
      naturalOfDigits part.digits ≤ 308 ∧
        naturalOfDigits (n.whole ++ n.fraction.getD []) * powerOfTen (naturalOfDigits part.digits) *
          (2 * one) ≤ greatestSum * 10 ^ (n.fraction.getD []).length) :
    ∃ x, n.double? = some x := by
  have hof : ∀ {rank? : Option Nat}, (∃ rank < infinityRank, rank? = some rank) →
      ∃ x, rank?.bind (Binary64.ofRank? n.negative) = some x := by
    rintro _ ⟨rank, hrank, rfl⟩
    exact ⟨⟨n.negative, rank, hrank⟩, by simp [Binary64.ofRank?, hrank]⟩
  have hleading : absorbDigits 0 n.whole = (naturalOfDigits n.whole, []) := by
    have habsorb : absorbDigits 0 n.whole =
        (0 * 10 ^ n.whole.length + naturalOfDigits n.whole, []) := absorbDigits_eq (by omega)
    rwa [Nat.zero_mul, Nat.zero_add] at habsorb
  rw [Numeral.double?]
  simp only [hleading]
  generalize hfraction : n.fraction.getD [] = fraction at hexponent ⊢
  generalize habsorb : absorbDigits (naturalOfDigits n.whole) fraction = absorbed
  obtain ⟨significand, ignored⟩ := absorbed
  obtain ⟨hsignificand, hlength, hvalue⟩ := absorbDigits_spec hwhole habsorb
  rw [← naturalOfDigits_append] at hvalue
  simp only [List.length_nil, Int.natCast_zero]
  apply hof
  cases hpart : n.exponent with
  | none =>
      simp only
      exact exists_scaledRank? hsignificand (by omega) (by omega)
  | some part =>
      simp only
      generalize hpower : naturalOfDigits part.digits = power at *
      by_cases hbelow : '-' ∈ part.mark
      · have hcontains : part.mark.contains '-' = true := by simpa using hbelow
        simp only [hcontains, Bool.not_true, Bool.false_eq_true, and_false, if_false, if_true]
        split
        · exact ⟨0, by decide, rfl⟩
        · exact exists_scaledRank? hsignificand (by omega) (by omega)
      · obtain ⟨hsmall, hbound⟩ := (hexponent part hpart).resolve_left hbelow
        rw [hpower] at hsmall hbound
        have hcontains : part.mark.contains '-' = false := by simpa using hbelow
        have hnot : ¬ greatestExponent < power := by
          rw [greatestExponent]
          omega
        simp only [hcontains, if_neg hnot, Bool.false_eq_true, if_false]
        apply exists_scaledRank? hsignificand (by omega)
        intro hpos
        exact shifted_le (by omega) hvalue hbound

/-! ## Shortest decimals -/

/-- The digits before the point spell no more than what fits in 64 bits. -/
theorem naturalOfDigits_whole_lt {d : Decimal} (h : d.IsProper) (negative : Bool) :
    naturalOfDigits (decimalNumeral negative d).whole < 0x10000000000000000 := by
  have hwellFormed := wellFormed_decimalNumeral h negative
  have hlength : (decimalNumeral negative d).whole.length ≤ 16 := by
    rw [decimalNumeral]
    split
    · split
      · simp only
        split
        · simp only [List.length_append, List.length_replicate]
          omega
        · simp only [List.length_take]
          omega
      · simp
    · simp only [List.length_take]
      omega
  calc naturalOfDigits (decimalNumeral negative d).whole
      < 10 ^ (decimalNumeral negative d).whole.length := naturalOfDigits_lt hwellFormed.whole
    _ ≤ 10 ^ 16 := Nat.pow_le_pow_right (by decide) hlength
    _ < 0x10000000000000000 := by decide

/-- Digits without a leading zero spell at least the power of ten of the first of them. -/
theorem pow_le_naturalOfDigits {digits : List Char} (h : ∀ c ∈ digits, c.isDigit = true)
    (hhead : digits.head? ≠ some '0') (hne : digits ≠ []) :
    10 ^ (digits.length - 1) ≤ naturalOfDigits digits := by
  match digits, hne with
  | c :: digits, _ =>
      have hzero : c ≠ '0' := fun heq => hhead (by rw [heq, List.head?_cons])
      have hdigit := h c List.mem_cons_self
      have hpos : 1 ≤ digitValue c := by
        simp only [Char.isDigit, Bool.and_eq_true, decide_eq_true_iff] at hdigit
        have hlow : '0'.val.toNat ≤ c.val.toNat := hdigit.1
        have hval : c.val.toNat ≠ '0'.val.toNat := fun heq =>
          hzero (Char.ext (UInt32.toNat_inj.mp heq))
        rw [digitValue, Char.toNat, Char.toNat]
        omega
      rw [naturalOfDigits_cons, List.length_cons, Nat.add_sub_cancel]
      calc 10 ^ digits.length = 1 * 10 ^ digits.length := (Nat.one_mul _).symm
        _ ≤ digitValue c * 10 ^ digits.length := Nat.mul_le_mul_right _ hpos
        _ ≤ digitValue c * 10 ^ digits.length + naturalOfDigits digits := Nat.le_add_right _ _

/-- A point of a grid below a limit stays below it when its trailing zeros move to the exponent. -/
theorem scaled_le {value zeros count limit : Nat} {step : Int} (hcount : 0 < count)
    (hexponent : 0 < step + (((count + zeros : Nat) : Int) - 1))
    (hbound : value * 10 ^ zeros *
        (if 0 ≤ step then powerOfTen step.toNat * one * 2 else one * 2) ≤
      limit * if 0 ≤ step then 1 else powerOfTen (-step).toNat) :
    value * powerOfTen (step + (((count + zeros : Nat) : Int) - 1)).toNat * (2 * one) ≤
      limit * 10 ^ (count - 1) := by
  generalize hscale : (step + (((count + zeros : Nat) : Int) - 1)).toNat = scale
  split at hbound
  next hstep =>
    have hshift : scale = zeros + step.toNat + (count - 1) := by omega
    calc value * powerOfTen scale * (2 * one)
        = value * 10 ^ zeros * (10 ^ step.toNat * one * 2) * 10 ^ (count - 1) := by
          rw [powerOfTen, Nat.pow_eq, hshift, Nat.pow_add, Nat.pow_add]
          ring
      _ ≤ limit * 1 * 10 ^ (count - 1) := Nat.mul_le_mul_right _ hbound
      _ = limit * 10 ^ (count - 1) := by rw [Nat.mul_one]
  next hstep =>
    have hshift : scale + (-step).toNat = zeros + (count - 1) := by omega
    have hten : 0 < 10 ^ (-step).toNat := Nat.pow_pos (by decide)
    apply Nat.le_of_mul_le_mul_right _ hten
    calc value * powerOfTen scale * (2 * one) * 10 ^ (-step).toNat
        = value * 10 ^ (scale + (-step).toNat) * (2 * one) := by
          rw [powerOfTen, Nat.pow_eq, Nat.pow_add]
          ring
      _ = value * 10 ^ zeros * (one * 2) * 10 ^ (count - 1) := by
          rw [hshift, Nat.pow_add]
          ring
      _ ≤ limit * 10 ^ (-step).toNat * 10 ^ (count - 1) := Nat.mul_le_mul_right _ hbound
      _ = limit * 10 ^ (count - 1) * 10 ^ (-step).toNat := by ring

/-- A large shortest decimal of a number below the greatest lies below the bound. -/
theorem shortest_le_greatestSum {rank : Nat} (hrank : rank ≤ infinityRank - 2)
    (hexponent : 0 < (shortest rank).exponent) :
    naturalOfDigits (shortest rank).digits * powerOfTen (shortest rank).exponent.toNat *
        (2 * one) ≤ greatestSum * 10 ^ ((shortest rank).digits.length - 1) ∧
      (shortest rank).digits.head? ≠ some '0' := by
  obtain ⟨significand, step, hshortest, hzero, hbound⟩ := shortest_eq_scaled rank
  rw [hshortest] at hexponent ⊢
  have hpos : 0 < significand := by
    apply Nat.pos_of_ne_zero
    rintro rfl
    rw [hzero rfl] at hexponent
    exact absurd hexponent (by decide)
  refine ⟨?_, head_trimmedDigits hpos⟩
  obtain ⟨zeros, hzeros⟩ := exists_trimmedDigits significand
  have hdigits : naturalOfDigits (trimmedDigits significand) * 10 ^ zeros = significand := by
    have hvalue := naturalOfDigits_decimalDigits significand
    rwa [hzeros, naturalOfDigits_append, List.length_replicate, naturalOfDigits_replicate_zero,
      Nat.add_zero] at hvalue
  have hlength := List.length_pos_iff.mpr (trimmedDigits_ne_nil significand)
  have hsum : units rank + units (rank + 1) ≤ greatestSum := by
    apply Nat.add_le_add
    · exact units_le_units_iff.mpr hrank
    · apply units_le_units_iff.mpr
      have hinfinity : 2 ≤ infinityRank := by decide
      omega
  rw [← hdigits] at hbound
  simp only [Decimal.scaled, hzeros, List.length_append, List.length_replicate] at hexponent ⊢
  exact (scaled_le hlength hexponent hbound).trans (Nat.mul_le_mul_right _ hsum)

/-- A power of ten below the bound has an exponent of at most 308. -/
theorem exponent_le_of_bound {d : Decimal} {power : Nat} (h : d.IsProper)
    (hhead : d.digits.head? ≠ some '0')
    (hbound : naturalOfDigits d.digits * powerOfTen power * (2 * one) ≤
      greatestSum * 10 ^ (d.digits.length - 1)) : power ≤ 308 := by
  have hvalue := pow_le_naturalOfDigits h.digits hhead h.nonempty
  have hten : 0 < 10 ^ (d.digits.length - 1) := Nat.pow_pos (by decide)
  have hone : 0 < 2 * one := Nat.mul_pos (by decide) (powerOfTwo_pos 1074)
  have hle : powerOfTen power * (2 * one) ≤ greatestSum := by
    apply Nat.le_of_mul_le_mul_right _ hten
    calc powerOfTen power * (2 * one) * 10 ^ (d.digits.length - 1)
        = 10 ^ (d.digits.length - 1) * powerOfTen power * (2 * one) := by ring
      _ ≤ naturalOfDigits d.digits * powerOfTen power * (2 * one) :=
          Nat.mul_le_mul_right _ (Nat.mul_le_mul_right _ hvalue)
      _ ≤ greatestSum * 10 ^ (d.digits.length - 1) := hbound
  by_contra hpower
  have hpow : powerOfTen 309 ≤ powerOfTen power := powerOfTen_mono (by omega)
  have hlarge : powerOfTen 309 * (2 * one) ≤ greatestSum :=
    (Nat.mul_le_mul_right _ hpow).trans hle
  exact absurd greatestSum_lt (Nat.not_lt.mpr hlarge)

/-- The greatest number is read back. -/
theorem double?_greatest (negative : Bool) :
    (decimalNumeral negative (shortest (infinityRank - 1))).double?.isSome = true := by
  cases negative <;> decide +kernel

/-- The text of every binary64 number is read as some binary64 number. -/
theorem exists_double?_shortest (x : Binary64) :
    ∃ y, (decimalNumeral x.negative (shortest x.rank)).double? = some y := by
  have hproper := isProper_shortest x.rank
  by_cases hgreatest : x.rank = infinityRank - 1
  · rw [hgreatest]
    exact Option.isSome_iff_exists.mp (double?_greatest x.negative)
  · have hrank : x.rank ≤ infinityRank - 2 := by
      have hlt := x.rank_lt
      omega
    apply exists_double? (naturalOfDigits_whole_lt hproper x.negative)
    intro part hpart
    rw [decimalNumeral] at hpart ⊢
    split at hpart
    next hplain =>
      -- Plain notation has no exponent.
      split at hpart
      · simp only at hpart
        split at hpart <;> cases hpart
      · cases hpart
    next hplain =>
      rw [if_neg hplain]
      cases hpart
      by_cases hnegative : (shortest x.rank).exponent < 0
      · left
        simp [hnegative]
      · right
        obtain ⟨hbound, hhead⟩ := shortest_le_greatestSum hrank (by omega)
        have hpower : (shortest x.rank).exponent.natAbs = (shortest x.rank).exponent.toNat := by
          omega
        have hfraction : (if (shortest x.rank).digits.length ≤ 1 then none
            else some ((shortest x.rank).digits.drop 1)).getD [] =
            (shortest x.rank).digits.drop 1 := by
          split
          next hlength => rw [List.drop_eq_nil_of_le hlength]; rfl
          next => rfl
        simp only [naturalOfDigits_decimalDigits, hpower, hfraction, List.take_append_drop,
          List.length_drop]
        exact ⟨exponent_le_of_bound hproper hhead hbound, hbound⟩

/-! ## Numbers -/

/-- What a written number is read as. -/
def Number.reread (n : Number) : Number :=
  n.numeral.value?.getD n

/-- Every number is read back as some number. -/
theorem Number.value?_numeral (n : Number) : n.numeral.value? = some n.reread := by
  have hsome : ∃ m, n.numeral.value? = some m := by
    cases n with
    | integer n lower upper => exact ⟨_, value?_integerNumeral lower upper⟩
    | double x =>
        obtain ⟨y, hy⟩ := exists_double?_shortest x
        refine ⟨.double y, ?_⟩
        have hdouble : ∀ m : Numeral, m.fraction.isSome ∨ m.exponent.isSome →
            m.double? = some y → m.value? = some (.double y) := by
          intro m hm hread
          have hboth : (m.fraction.isNone && m.exponent.isNone) = false := by
            rcases hm with hm | hm <;> obtain ⟨part, hpart⟩ := Option.isSome_iff_exists.mp hm <;>
              simp [hpart]
          simp [Numeral.value?, hboth, hread]
        apply hdouble _ _ hy
        rw [decimalNumeral]
        split
        · left
          split
          · simp only
            split <;> rfl
          · rfl
        · right
          rfl
  obtain ⟨m, hm⟩ := hsome
  rw [reread, hm, Option.getD_some]

end Json

end FeedbackBoard
