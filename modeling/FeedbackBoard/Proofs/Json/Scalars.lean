import FeedbackBoard.Json.Printer
import FeedbackBoard.Json.Reader
import FeedbackBoard.Proofs.Json.Digits

/-!
# Reading scalars

Numerals and strings are read back from where they are written, whatever
follows them.  A numeral must not be followed by something that could go on with
it; a string ends by itself.

Main definitions:

- `EndsNumeral`: what cannot go on with a numeral.
- `Numeral.WellFormed`: the numerals that the grammar allows.

Main results:

- `readNumeral_chars`: a numeral is read back.
- `readString_stringChars`: so is a string.
-/

namespace FeedbackBoard

@[simp]
theorem symbolsOfChars_append (s t : List Char) :
    symbolsOfChars (s ++ t) = symbolsOfChars s ++ symbolsOfChars t :=
  List.map_append

@[simp]
theorem symbolsOfChars_cons (c : Char) (t : List Char) :
    symbolsOfChars (c :: t) = some c :: symbolsOfChars t :=
  rfl

@[simp]
theorem symbolsOfChars_nil : symbolsOfChars [] = [] :=
  rfl

@[simp]
theorem length_symbolsOfChars (t : List Char) : (symbolsOfChars t).length = t.length :=
  List.length_map _

namespace Json

/-! ## Numerals -/

/-- What follows a numeral cannot go on with it. -/
def EndsNumeral (rest : List Symbol) : Prop :=
  ∀ c, rest.head? = some (some c) → c.isDigit = false ∧ c ≠ '.' ∧ c ≠ 'e' ∧ c ≠ 'E'

theorem endsNumeral_nil : EndsNumeral [] := by
  intro c h
  cases h

theorem endsNumeral_cons {c : Char} {rest : List Symbol}
    (h : c.isDigit = false ∧ c ≠ '.' ∧ c ≠ 'e' ∧ c ≠ 'E') : EndsNumeral (some c :: rest) := by
  intro d hd
  cases hd
  exact h

/-- Digits are taken up to the first symbol that is none. -/
theorem takeDigits_append {digits : List Char} {rest : List Symbol}
    (hdigits : ∀ c ∈ digits, c.isDigit = true)
    (hrest : ∀ c, rest.head? = some (some c) → c.isDigit = false) :
    takeDigits (symbolsOfChars digits ++ rest) = (digits, rest) := by
  induction digits with
  | nil =>
      rcases rest with _ | ⟨_ | c, rest⟩
      · rfl
      · rfl
      · have hc : isDigitSymbol (some c) = false := hrest c rfl
        simp [takeDigits, hc]
  | cons c digits ih =>
      have hc : isDigitSymbol (some c) = true := hdigits c List.mem_cons_self
      have ih := ih fun d hd => hdigits d (List.mem_cons_of_mem c hd)
      simp only [takeDigits, Prod.mk.injEq] at ih
      obtain ⟨htaken, hleft⟩ := ih
      rw [symbolsOfChars_cons, List.cons_append, takeDigits, List.takeWhile_cons_of_pos hc,
        List.dropWhile_cons_of_pos hc, hleft]
      refine congrArg (·, rest) ?_
      exact congrArg (c :: ·) htaken

/-- The numerals that the grammar allows. -/
structure Numeral.WellFormed (n : Numeral) : Prop where
  whole : ∀ c ∈ n.whole, c.isDigit = true
  leading : wholeDigitsAllowed n.whole = true
  fraction : ∀ digits, n.fraction = some digits → digits ≠ [] ∧ ∀ c ∈ digits, c.isDigit = true
  exponent : ∀ part, n.exponent = some part →
    (part.mark = ['e', '+'] ∨ part.mark = ['e', '-']) ∧
      part.digits ≠ [] ∧ ∀ c ∈ part.digits, c.isDigit = true

/-- The characters of the fraction, with its point. -/
def fractionChars : Option (List Char) → List Char
  | some digits => '.' :: digits
  | none => []

/-- The characters of the exponent, with its mark. -/
def exponentChars : Option ExponentPart → List Char
  | some part => part.mark ++ part.digits
  | none => []

theorem Numeral.chars_eq (n : Numeral) :
    n.chars = (if n.negative then ['-'] else []) ++
      (n.whole ++ (fractionChars n.fraction ++ exponentChars n.exponent)) := by
  rw [Numeral.chars, List.append_assoc, List.append_assoc]
  rfl

/-- An exponent is read back. -/
theorem readExponent_chars {exponent : Option ExponentPart} {rest : List Symbol}
    (hexponent : ∀ part, exponent = some part →
      (part.mark = ['e', '+'] ∨ part.mark = ['e', '-']) ∧
        part.digits ≠ [] ∧ ∀ c ∈ part.digits, c.isDigit = true)
    (hrest : EndsNumeral rest) :
    readExponent (symbolsOfChars (exponentChars exponent) ++ rest) = some (exponent, rest) := by
  cases exponent with
  | none =>
      rcases rest with _ | ⟨_ | c, rest⟩
      · rfl
      · rfl
      · obtain ⟨_, _, he, hE⟩ := hrest c rfl
        simp only [exponentChars, symbolsOfChars_nil, List.nil_append]
        unfold readExponent
        split <;> simp_all
  | some part =>
      obtain ⟨hmark, hne, hdigits⟩ := hexponent part rfl
      have htake : takeDigits (symbolsOfChars part.digits ++ rest) = (part.digits, rest) :=
        takeDigits_append hdigits fun c hc => (hrest c hc).1
      obtain ⟨mark, digits⟩ := part
      simp only at hmark hne htake
      rcases hmark with rfl | rfl <;>
        simp [exponentChars, readExponent, htake, hne]

/-- A fraction is read back. -/
theorem readFraction_chars {fraction : Option (List Char)} {rest : List Symbol}
    (hfraction : ∀ digits, fraction = some digits →
      digits ≠ [] ∧ ∀ c ∈ digits, c.isDigit = true)
    (hrest : ∀ c, rest.head? = some (some c) → c.isDigit = false ∧ c ≠ '.') :
    readFraction (symbolsOfChars (fractionChars fraction) ++ rest) = some (fraction, rest) := by
  cases fraction with
  | none =>
      rcases rest with _ | ⟨_ | c, rest⟩
      · rfl
      · rfl
      · have hpoint := (hrest c rfl).2
        simp only [fractionChars, symbolsOfChars_nil, List.nil_append]
        unfold readFraction
        split <;> simp_all
  | some digits =>
      obtain ⟨hne, hdigits⟩ := hfraction digits rfl
      have htake : takeDigits (symbolsOfChars digits ++ rest) = (digits, rest) :=
        takeDigits_append hdigits fun c hc => (hrest c hc).1
      simp [fractionChars, readFraction, htake, hne]

/-- An exponent begins with neither a digit nor a point. -/
theorem head_exponentChars {exponent : Option ExponentPart} {rest : List Symbol}
    (hexponent : ∀ part, exponent = some part →
      part.mark = ['e', '+'] ∨ part.mark = ['e', '-'])
    (hrest : EndsNumeral rest) {c : Char}
    (hc : (symbolsOfChars (exponentChars exponent) ++ rest).head? = some (some c)) :
    c.isDigit = false ∧ c ≠ '.' := by
  cases exponent with
  | none => exact ⟨(hrest c hc).1, (hrest c hc).2.1⟩
  | some part =>
      obtain ⟨mark, digits⟩ := part
      have he : c = 'e' := by
        rcases hexponent _ rfl with rfl | rfl <;>
          simpa [exponentChars, eq_comm] using hc
      subst he
      decide

/-- A numeral is read back after its sign. -/
theorem readUnsigned_chars {n : Numeral} (h : n.WellFormed) {rest : List Symbol}
    (hrest : EndsNumeral rest) :
    readUnsigned n.negative (symbolsOfChars
      (n.whole ++ (fractionChars n.fraction ++ exponentChars n.exponent)) ++ rest) =
      some (n, rest) := by
  have hmark : ∀ part, n.exponent = some part →
      part.mark = ['e', '+'] ∨ part.mark = ['e', '-'] := fun part hpart => (h.exponent part hpart).1
  have hexponent := readExponent_chars h.exponent hrest
  have hfraction : readFraction (symbolsOfChars (fractionChars n.fraction) ++
      (symbolsOfChars (exponentChars n.exponent) ++ rest)) =
      some (n.fraction, symbolsOfChars (exponentChars n.exponent) ++ rest) :=
    readFraction_chars h.fraction fun c hc => head_exponentChars hmark hrest hc
  have hwhole : takeDigits (symbolsOfChars n.whole ++ (symbolsOfChars (fractionChars n.fraction) ++
      (symbolsOfChars (exponentChars n.exponent) ++ rest))) =
      (n.whole, symbolsOfChars (fractionChars n.fraction) ++
        (symbolsOfChars (exponentChars n.exponent) ++ rest)) := by
    apply takeDigits_append h.whole
    intro c hc
    cases hfrac : n.fraction with
    | none =>
        rw [hfrac] at hc
        exact (head_exponentChars hmark hrest hc).1
    | some digits =>
        have hpoint : c = '.' := by
          simpa [hfrac, fractionChars, eq_comm] using hc
        subst hpoint
        decide
  simp only [symbolsOfChars_append, List.append_assoc, readUnsigned, hwhole, h.leading, if_true,
    hfraction, hexponent]

/-- A numeral is read back. -/
theorem readNumeral_chars {n : Numeral} (h : n.WellFormed) {rest : List Symbol}
    (hrest : EndsNumeral rest) :
    readNumeral (symbolsOfChars n.chars ++ rest) = some (n, rest) := by
  have hunsigned := readUnsigned_chars h hrest
  rw [Numeral.chars_eq]
  cases hnegative : n.negative with
  | true =>
      rw [hnegative] at hunsigned
      exact hunsigned
  | false =>
      rw [hnegative] at hunsigned
      rw [if_neg (by simp), List.nil_append, readNumeral]
      · exact hunsigned
      · -- The first digit is no minus sign.
        intro rest' hminus
        have hleading := h.leading
        have hdigits := h.whole
        cases hwhole : n.whole with
        | nil =>
            rw [hwhole] at hleading
            cases hleading
        | cons c digits =>
            rw [hwhole] at hminus hdigits
            have hc : c = '-' := by
              simpa using congrArg List.head? hminus
            have hdigit := hdigits c List.mem_cons_self
            rw [hc] at hdigit
            exact absurd hdigit (by decide)

/-- A numeral begins with a minus sign or a digit. -/
theorem Numeral.head_chars {n : Numeral} (h : n.WellFormed) :
    ∃ c tail, n.chars = c :: tail ∧ (c = '-' ∨ c.isDigit = true) := by
  rw [Numeral.chars_eq]
  cases n.negative with
  | true => exact ⟨'-', _, rfl, Or.inl rfl⟩
  | false =>
      have hleading := h.leading
      cases hwhole : n.whole with
      | nil =>
          rw [hwhole] at hleading
          cases hleading
      | cons c digits =>
          refine ⟨c, _, rfl, Or.inr (h.whole c ?_)⟩
          rw [hwhole]
          exact List.mem_cons_self

/-! ## Strings -/

/-- A control character is read back from its escape. -/
theorem controlEscape_spec : ∀ n < 0x20, ∃ a b c d,
    controlEscape (Char.ofNat n) = ['\\', 'u', a, b, c, d] ∧
      hexUnit? (some a) (some b) (some c) (some d) = some n := by
  have h : ∀ n < 0x20, ∃ digits, digits.length = 4 ∧
      controlEscape (Char.ofNat n) = '\\' :: 'u' :: digits ∧
      hexUnit? digits[0]? digits[1]? digits[2]? digits[3]? = some n := by
    intro n hn
    refine ⟨(controlEscape (Char.ofNat n)).drop 2, ?_⟩
    revert n
    decide
  intro n hn
  obtain ⟨digits, hlength, hescape, hunit⟩ := h n hn
  match digits, hlength with
  | [a, b, c, d], _ => exact ⟨a, b, c, d, hescape, hunit⟩

/-- A character is read back inside a string. -/
theorem readString_escapedChar {state : StringState} (hsound : state.sound = true)
    (hhigh : state.high = none) (c : Char) (rest : List Symbol) :
    readString state (symbolsOfChars (escapedChar c) ++ rest) =
      readString ⟨c :: state.chars, true, none⟩ rest := by
  have hput : ∀ c, state.put c = ⟨c :: state.chars, true, none⟩ := by
    intro c
    simp [StringState.put, hsound, hhigh]
  unfold escapedChar
  split
  case h_8 =>
    split
    next hcontrol =>
      obtain ⟨a, b, d, e, hescape, hunit⟩ := controlEscape_spec c.toNat hcontrol
      rw [Char.ofNat_toNat] at hescape
      have hunit' : state.putUnit c.toNat = ⟨c :: state.chars, true, none⟩ := by
        rw [StringState.putUnit, if_neg (by omega), if_neg (by omega), Char.ofNat_toNat, hput]
      simp [hescape, readString, hunit, hunit']
    next hplain =>
      simp only [symbolsOfChars_cons, symbolsOfChars_nil, List.cons_append, List.nil_append]
      rw [readString]
      · simp [hplain, hput]
      all_goals simp_all
  all_goals simp [readString, simpleEscape?, hput]

/-- The characters of a text are read back, up to the closing quotation mark. -/
theorem readString_escaped {state : StringState} (hsound : state.sound = true)
    (hhigh : state.high = none) (chars : List Char) (rest : List Symbol) :
    readString state (symbolsOfChars (chars.flatMap escapedChar) ++ some '"' :: rest) =
      some (some (String.ofList (state.chars.reverse ++ chars)), rest) := by
  induction chars generalizing state with
  | nil =>
      simp [readString, StringState.finish, hsound, hhigh]
  | cons c chars ih =>
      rw [List.flatMap_cons, symbolsOfChars_append, List.append_assoc,
        readString_escapedChar hsound hhigh, ih rfl rfl]
      simp

/-- A string is read back after its opening quotation mark. -/
theorem readString_stringChars (text : String) :
    ∃ tail, stringChars text = '"' :: tail ∧ ∀ rest,
      readString .empty (symbolsOfChars tail ++ rest) = some (some text, rest) := by
  refine ⟨text.toList.flatMap escapedChar ++ ['"'], rfl, ?_⟩
  intro rest
  rw [symbolsOfChars_append, List.append_assoc]
  refine (readString_escaped rfl rfl text.toList rest).trans ?_
  simp [StringState.empty]

end Json

end FeedbackBoard
