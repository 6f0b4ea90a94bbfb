import FeedbackBoard.Database.LenientJson
import FeedbackBoard.Proofs.Json.Documents

/-!
# Scalars under both readers

A text of the database is read twice: strictly where a row is shown, and
leniently where a database expression looks into it.  Here the lenient reader
follows the strict one over space, words and numerals, and stops where it stops.

Lenient texts may go on where strict ones end, so a scalar is followed only if
what comes after it *closes* it.  A zero ends a lenient text; what the strict
reader passes holds no zero.

Main definitions:

- `LenientJson.Closes`: what follows a scalar cannot go on with it.
- `LenientJson.PassesNoZero`: no zero lies between two texts.

Main results:

- `LenientJson.skipSpace_eq`: both readers skip the same space.
- `LenientJson.readWord_null`, `LenientJson.readWord_true`, `LenientJson.readWord_false`: words
  are followed.
- `LenientJson.readNumber_of_readNumeral`: so are numerals.
-/

namespace FeedbackBoard

/-- A text that begins with a symbol begins with a character. -/
theorem exists_of_symbolsOfChars_eq_cons {text : List Char} {symbol : Symbol} {rest : List Symbol}
    (h : symbolsOfChars text = symbol :: rest) :
    ∃ c tail, text = c :: tail ∧ symbol = some c ∧ rest = symbolsOfChars tail := by
  obtain ⟨c, tail, htext, hsymbol, hrest⟩ := List.map_eq_cons_iff.mp h
  exact ⟨c, tail, htext, hsymbol.symm, hrest.symm⟩

/-- A text that begins with the symbol of a character begins with the character. -/
theorem symbolsOfChars_eq_cons {text : List Char} {c : Char} {rest : List Symbol}
    (h : symbolsOfChars text = some c :: rest) :
    ∃ tail, text = c :: tail ∧ rest = symbolsOfChars tail := by
  obtain ⟨d, tail, htext, hsymbol, hrest⟩ := exists_of_symbolsOfChars_eq_cons h
  cases hsymbol
  exact ⟨tail, htext, hrest⟩

theorem symbolsOfChars_injective {text other : List Char}
    (h : symbolsOfChars text = symbolsOfChars other) : text = other :=
  List.map_injective_iff.mpr (fun _ _ heq => Option.some.inj heq) h

namespace LenientJson

/-! ## Space -/

/-- The text without the space that JSON allows at its beginning. -/
def dropSpace (text : List Char) : List Char :=
  text.dropWhile fun c => Json.isSpace (some c)

theorem dropSpace_cons (c : Char) (rest : List Char) :
    dropSpace (c :: rest) = if Json.isSpace (some c) then dropSpace rest else c :: rest :=
  List.dropWhile_cons

theorem skipSpace_symbolsOfChars (text : List Char) :
    Json.skipSpace (symbolsOfChars text) = symbolsOfChars (dropSpace text) := by
  rw [Json.skipSpace, symbolsOfChars, List.dropWhile_map]
  rfl

theorem isSpace_of_isSpace {c : Char} (h : Json.isSpace (some c) = true) : isSpace c = true := by
  simp only [Json.isSpace, Bool.or_eq_true, beq_iff_eq] at h
  rcases h with ((rfl | rfl) | rfl) | rfl <;> decide

/-- The text begins neither with space nor with a comment. -/
def BeginsPart (text : List Char) : Prop :=
  ∀ c, text.head? = some c → isSpace c = false ∧ c ≠ '/'

/-- Both readers skip the same space in front of a part. -/
theorem skipSpace_eq {text : List Char} (h : BeginsPart (dropSpace text)) :
    skipSpace text.length text = dropSpace text := by
  have hdrop : text.dropWhile isSpace = dropSpace text := by
    induction text with
    | nil => rfl
    | cons c rest ih =>
        rw [dropSpace_cons] at h ⊢
        split at h
        next hc =>
          rw [if_pos hc, List.dropWhile_cons_of_pos (isSpace_of_isSpace hc)]
          exact ih h
        next hc =>
          rw [if_neg hc]
          exact List.dropWhile_cons_of_neg (by simp [(h c rfl).1])
  cases text with
  | nil => rfl
  | cons c rest =>
      rw [List.length_cons, skipSpace, hdrop]
      split
      next heq => exact absurd rfl (h '/' (by rw [heq]; rfl)).2
      next heq => exact absurd rfl (h '/' (by rw [heq]; rfl)).2
      next => rfl

/-! ## Ends -/

/-- What follows a scalar cannot go on with it. -/
def Closes (after : List Char) : Prop :=
  ∀ c, after.head? = some c → c.isAlphanum = false ∧ c ≠ '.'

/-- The second text stands at the end of the first, and no zero is passed on the way to it. -/
def PassesNoZero (text after : List Char) : Prop :=
  ∃ passed, '\x00' ∉ passed ∧ text = passed ++ after

theorem PassesNoZero.refl (text : List Char) : PassesNoZero text text :=
  ⟨[], List.not_mem_nil, rfl⟩

theorem PassesNoZero.trans {text between after : List Char} (h : PassesNoZero text between)
    (h' : PassesNoZero between after) : PassesNoZero text after := by
  obtain ⟨first, hfirst, rfl⟩ := h
  obtain ⟨second, hsecond, rfl⟩ := h'
  exact ⟨first ++ second, by simp [hfirst, hsecond], (List.append_assoc ..).symm⟩

theorem PassesNoZero.cons {c : Char} (hc : c ≠ '\x00') (text : List Char) :
    PassesNoZero (c :: text) text :=
  ⟨[c], by simpa using hc.symm, rfl⟩

theorem PassesNoZero.length_le {text after : List Char} (h : PassesNoZero text after) :
    after.length ≤ text.length := by
  obtain ⟨passed, -, rfl⟩ := h
  rw [List.length_append]
  omega

/-- A zero can only stand in what follows. -/
theorem PassesNoZero.not_mem {text after : List Char} (h : PassesNoZero text after)
    (hafter : '\x00' ∉ after) : '\x00' ∉ text := by
  obtain ⟨passed, hpassed, rfl⟩ := h
  simp [hpassed, hafter]

theorem passesNoZero_dropWhile {p : Char → Bool} (hp : p '\x00' = false) (text : List Char) :
    PassesNoZero text (text.dropWhile p) := by
  refine ⟨text.takeWhile p, fun hmem => ?_, List.takeWhile_append_dropWhile.symm⟩
  have := List.mem_takeWhile_imp hmem
  rw [hp] at this
  cases this

theorem passesNoZero_dropSpace (text : List Char) : PassesNoZero text (dropSpace text) :=
  passesNoZero_dropWhile rfl text

theorem closes_of_isSpace {c : Char} (h : Json.isSpace (some c) = true) :
    c.isAlphanum = false ∧ c ≠ '.' := by
  simp only [Json.isSpace, Bool.or_eq_true, beq_iff_eq] at h
  rcases h with ((rfl | rfl) | rfl) | rfl <;> decide

/-- A text that goes on with space and a mark closes a scalar. -/
theorem closes_of_dropSpace {after rest : List Char} {c : Char} (h : dropSpace after = c :: rest)
    (hc : c.isAlphanum = false ∧ c ≠ '.') : Closes after := by
  cases after with
  | nil => cases h
  | cons d tail =>
      intro e he
      cases he
      rw [dropSpace_cons] at h
      split at h
      next hd => exact closes_of_isSpace hd
      next hd =>
        cases h
        exact hc

theorem closes_of_dropSpace_nil {after : List Char} (h : dropSpace after = []) : Closes after := by
  cases after with
  | nil => 
      intro c hc
      cases hc
  | cons d tail =>
      intro e he
      cases he
      rw [dropSpace, List.dropWhile_eq_nil_iff] at h
      exact closes_of_isSpace (h d List.mem_cons_self)

theorem wordEnds_of_closes {after : List Char} (h : Closes after) : wordEnds after = true := by
  cases after with
  | nil => rfl
  | cons c rest => simp [wordEnds, (h c rfl).1]

/-! ## Words -/

theorem readWord_null {after : List Char} (h : Closes after) :
    readWord ('n' :: 'u' :: 'l' :: 'l' :: after) =
      some (.scalar (some .null) ['n', 'u', 'l', 'l'], after) := by
  simp [readWord, wordEnds_of_closes h]

theorem readWord_true {after : List Char} (h : Closes after) :
    readWord ('t' :: 'r' :: 'u' :: 'e' :: after) = some (.ofBool true, after) := by
  simp [readWord, wordEnds_of_closes h]

theorem readWord_false {after : List Char} (h : Closes after) :
    readWord ('f' :: 'a' :: 'l' :: 's' :: 'e' :: after) = some (.ofBool false, after) := by
  simp [readWord, wordEnds_of_closes h]

theorem toLower_of_isDigit {c : Char} (hc : c.isDigit = true) : c.toLower = c := by
  simp only [Char.isDigit, Bool.and_eq_true, decide_eq_true_iff, ge_iff_le,
    UInt32.le_iff_toNat_le] at hc
  have hnine : ('9' : Char).val.toNat = 57 := rfl
  unfold Char.toLower
  split
  next h =>
    have hA : (65 : UInt32) ≤ c.val := h.1
    rw [UInt32.le_iff_toNat_le] at hA
    have hsixtyFive : (65 : UInt32).toNat = 65 := rfl
    omega
  next => rfl

/-- A character that begins a numeral is no letter. -/
theorem ne_of_beginsNumeral {c : Char} (hc : c = '-' ∨ c.isDigit = true) {d : Char}
    (hd : d.isDigit = false ∧ d ≠ '-') : d ≠ c := by
  rintro rfl
  rcases hc with hc | hc
  · exact hd.2 hc
  · rw [hd.1] at hc
    cases hc

/-- A numeral begins no word. -/
theorem readWord_numeral {c : Char} (hc : c = '-' ∨ c.isDigit = true) (rest : List Char) :
    readWord (c :: rest) = none := by
  have hlower : c.toLower = c := by
    rcases hc with rfl | hc
    · decide
    · exact toLower_of_isDigit hc
  have hne : ∀ d : Char, d.isDigit = false ∧ d ≠ '-' → d ≠ c := fun _ hd =>
    ne_of_beginsNumeral hc hd
  simp [readWord, words, hlower, hne 't' (by decide), hne 'f' (by decide), hne 'n' (by decide),
    hne 'i' (by decide), hne 'q' (by decide), hne 's' (by decide)]

/-! ## Numbers -/

theorem drop_length_takeWhile (p : Char → Bool) (text : List Char) :
    text.drop (text.takeWhile p).length = text.dropWhile p := by
  have h := @List.drop_left _ (text.takeWhile p) (text.dropWhile p)
  rwa [List.takeWhile_append_dropWhile] at h

theorem takeDigits_symbolsOfChars (text : List Char) :
    Json.takeDigits (symbolsOfChars text) =
      (text.takeWhile Char.isDigit, symbolsOfChars (text.dropWhile Char.isDigit)) := by
  have hdigit : Json.isDigitSymbol ∘ some = Char.isDigit := rfl
  rw [Json.takeDigits, symbolsOfChars, List.takeWhile_map, List.dropWhile_map, hdigit,
    List.filterMap_map]
  simp [symbolsOfChars]

/-- The digits after a point, where the strict reader has found them. -/
theorem readFraction_cases {text : List Char} {fraction : Option (List Char)} {rest : List Symbol}
    (h : Json.readFraction (symbolsOfChars text) = some (fraction, rest)) :
    (∃ tail, text = '.' :: tail ∧ tail.takeWhile Char.isDigit ≠ [] ∧
        fraction = some (tail.takeWhile Char.isDigit) ∧
        rest = symbolsOfChars (tail.dropWhile Char.isDigit)) ∨
      ((∀ tail, text ≠ '.' :: tail) ∧ fraction = none ∧ rest = symbolsOfChars text) := by
  unfold Json.readFraction at h
  split at h
  next rest' heq =>
    obtain ⟨tail, rfl, rfl⟩ := symbolsOfChars_eq_cons heq
    simp only [takeDigits_symbolsOfChars, List.isEmpty_iff] at h
    split at h
    · cases h
    next hdigits =>
      cases h
      exact Or.inl ⟨tail, rfl, hdigits, rfl, rfl⟩
  next hpoint =>
    cases h
    refine Or.inr ⟨fun tail htext => ?_, rfl, rfl⟩
    exact hpoint (symbolsOfChars tail) (by rw [htext]; rfl)

/-- The exponent, where the strict reader has found it. -/
theorem readExponent_cases {text : List Char} {exponent : Option Json.ExponentPart}
    {rest : List Symbol}
    (h : Json.readExponent (symbolsOfChars text) = some (exponent, rest)) :
    (∃ e sign tail, (e = 'e' ∨ e = 'E') ∧ (sign = '+' ∨ sign = '-') ∧ text = e :: sign :: tail ∧
        tail.takeWhile Char.isDigit ≠ [] ∧
        exponent = some ⟨[e, sign], tail.takeWhile Char.isDigit⟩ ∧
        rest = symbolsOfChars (tail.dropWhile Char.isDigit)) ∨
      (∃ e tail, (e = 'e' ∨ e = 'E') ∧ text = e :: tail ∧ tail.takeWhile Char.isDigit ≠ [] ∧
        exponent = some ⟨[e], tail.takeWhile Char.isDigit⟩ ∧
        rest = symbolsOfChars (tail.dropWhile Char.isDigit)) ∨
      (exponent = none ∧ rest = symbolsOfChars text) := by
  have hdigits : ∀ {mark tail : List Char},
      (if (tail.takeWhile Char.isDigit).isEmpty then none
        else some (some (Json.ExponentPart.mk mark (tail.takeWhile Char.isDigit)),
          symbolsOfChars (tail.dropWhile Char.isDigit))) = some (exponent, rest) →
      tail.takeWhile Char.isDigit ≠ [] ∧ exponent = some ⟨mark, tail.takeWhile Char.isDigit⟩ ∧
        rest = symbolsOfChars (tail.dropWhile Char.isDigit) := by
    intro mark tail h
    split at h
    · cases h
    next hne =>
      cases h
      exact ⟨by simpa using hne, rfl, rfl⟩
  unfold Json.readExponent at h
  split at h
  case h_7 =>
    cases h
    exact Or.inr (Or.inr ⟨rfl, rfl⟩)
  case h_5 heq | h_6 heq =>
    obtain ⟨tail, rfl, rfl⟩ := symbolsOfChars_eq_cons heq
    simp only [takeDigits_symbolsOfChars] at h
    obtain ⟨hne, hexponent, hrest⟩ := hdigits h
    exact Or.inr (Or.inl ⟨_, tail, by simp, rfl, hne, hexponent, hrest⟩)
  all_goals
    rename_i heq
    obtain ⟨middle, rfl, hmiddle⟩ := symbolsOfChars_eq_cons heq
    obtain ⟨tail, rfl, rfl⟩ := symbolsOfChars_eq_cons hmiddle.symm
    simp only [takeDigits_symbolsOfChars] at h
    obtain ⟨hne, hexponent, hrest⟩ := hdigits h
    exact Or.inl ⟨_, _, tail, by simp, by simp, rfl, hne, hexponent, hrest⟩

theorem wholeDigitsAllowed_iff {whole : List Char} (h : Json.wholeDigitsAllowed whole = true) :
    (whole.head? == some '0' && decide (1 < whole.length)) = false ∧ whole.isEmpty = false := by
  rcases whole with _ | ⟨c, _ | ⟨d, rest⟩⟩
  · cases h
  · simp
  · have hc : c ≠ '0' := by
      rintro rfl
      cases h
    simp [hc]

theorem PassesNoZero.exponent {text : List Char} {exponent : Option Json.ExponentPart}
    {rest : List Symbol}
    (h : Json.readExponent (symbolsOfChars text) = some (exponent, rest)) :
    ∃ after, rest = symbolsOfChars after ∧ PassesNoZero text after := by
  have hmark : ∀ {e : Char}, e = 'e' ∨ e = 'E' → e ≠ '\x00' := by
    rintro e (rfl | rfl) <;> decide
  have hsign : ∀ {sign}, sign = '+' ∨ sign = '-' → sign ≠ '\x00' := by
    rintro sign (rfl | rfl) <;> decide
  rcases readExponent_cases h with ⟨e, sign, tail, he, hs, rfl, -, -, rfl⟩ |
    ⟨e, tail, he, rfl, -, -, rfl⟩ | ⟨-, rfl⟩
  · exact ⟨_, rfl, (PassesNoZero.cons (hmark he) _).trans
      ((PassesNoZero.cons (hsign hs) _).trans (passesNoZero_dropWhile rfl tail))⟩
  · exact ⟨_, rfl, (PassesNoZero.cons (hmark he) _).trans (passesNoZero_dropWhile rfl tail)⟩
  · exact ⟨_, rfl, .refl text⟩

/-- The digits after a point, if there is one, and what follows them. -/
def takeFraction (text : List Char) : Option (List Char) × List Char :=
  match text with
  | '.' :: rest => (some (rest.takeWhile Char.isDigit), rest.dropWhile Char.isDigit)
  | _ => (none, text)

theorem takeFraction_of_readFraction {text : List Char} {fraction : Option (List Char)}
    {rest : List Symbol}
    (h : Json.readFraction (symbolsOfChars text) = some (fraction, rest)) :
    ∃ middle, rest = symbolsOfChars middle ∧ PassesNoZero text middle ∧
      takeFraction text = (fraction, middle) := by
  rcases readFraction_cases h with ⟨tail, rfl, -, rfl, rfl⟩ | ⟨hpoint, rfl, rfl⟩
  · exact ⟨_, rfl, (PassesNoZero.cons (by decide) tail).trans (passesNoZero_dropWhile rfl tail),
      rfl⟩
  · refine ⟨text, rfl, .refl text, ?_⟩
    unfold takeFraction
    split
    next => exact absurd rfl (hpoint _)
    next => rfl

/-- Goes on after the digits of an exponent, which must be there. -/
def afterMark {β : Type} (finish : Option Json.ExponentPart → List Char → Option β)
    (mark text : List Char) : Option β :=
  if (text.takeWhile Char.isDigit).isEmpty then none
  else finish (some ⟨mark, text.takeWhile Char.isDigit⟩) (text.dropWhile Char.isDigit)

/-- Goes on after the exponent, if there is one. -/
def afterExponent {β : Type} (finish : Option Json.ExponentPart → List Char → Option β)
    (text : List Char) : Option β :=
  match text with
  | '.' :: _ => none
  | e :: sign :: rest =>
    if e = 'e' ∨ e = 'E' then
      if sign = '+' ∨ sign = '-' then afterMark finish [e, sign] rest
      else afterMark finish [e] (sign :: rest)
    else finish none text
  | [e] => if e = 'e' ∨ e = 'E' then none else finish none text
  | [] => finish none text

/-- Magnitudes that are not hexadecimal are read part by part. -/
theorem readMagnitude_eq {negative : Bool} {text : List Char}
    (hhex : ∀ c rest, text = '0' :: c :: rest → c ≠ 'x' ∧ c ≠ 'X') :
    ∃ spelling : Option Json.ExponentPart → List Char,
      readMagnitude negative text =
        let whole := text.takeWhile Char.isDigit
        let (fraction, rest) := takeFraction (text.dropWhile Char.isDigit)
        if whole.head? == some '0' && decide (1 < whole.length) ||
            whole.isEmpty && (fraction.getD []).isEmpty then none
        else
          afterExponent (fun exponent rest =>
            some (.scalar (some (Cell.ofNumeral { negative, whole, fraction, exponent }))
              (spelling exponent), rest)) rest := by
  refine ⟨fun exponent =>
    let whole := text.takeWhile Char.isDigit
    Json.Numeral.chars
      { negative
        whole := if whole.isEmpty then ['0'] else whole
        fraction := (takeFraction (text.dropWhile Char.isDigit)).1.map fun digits =>
          if digits.isEmpty then ['0'] else digits
        exponent }, ?_⟩
  unfold readMagnitude
  simp only [drop_length_takeWhile]
  split
  next => exact absurd rfl (hhex 'x' _ rfl).1
  next => exact absurd rfl (hhex 'X' _ rfl).2
  next => rfl

/-- The lenient reader finds the same exponent. -/
theorem afterExponent_eq {β : Type} (finish : Option Json.ExponentPart → List Char → Option β)
    {text after : List Char} {exponent : Option Json.ExponentPart}
    (h : Json.readExponent (symbolsOfChars text) = some (exponent, symbolsOfChars after))
    (hcloses : Closes after) : afterExponent finish text = finish exponent after := by
  have hpoint : ∀ {e : Char}, e = 'e' ∨ e = 'E' → e ≠ '.' := by
    rintro e (rfl | rfl) <;> decide
  rcases readExponent_cases h with ⟨e, sign, tail, he, hs, rfl, hne, rfl, hrest⟩ |
    ⟨e, tail, he, rfl, hne, rfl, hrest⟩ | ⟨rfl, hrest⟩
  · rw [symbolsOfChars_injective hrest, afterExponent, if_pos he, if_pos hs, afterMark,
      if_neg (by simpa using hne)]
    exact hpoint he
  · rcases tail with _ | ⟨d, tail⟩
    · exact absurd rfl hne
    · have hsign : ¬ (d = '+' ∨ d = '-') := by
        rintro (rfl | rfl) <;> exact hne rfl
      rw [symbolsOfChars_injective hrest, afterExponent, if_pos he, if_neg hsign, afterMark,
        if_neg (by simpa using hne)]
      exact hpoint he
  · -- What follows the numeral is no letter and no point.
    rw [symbolsOfChars_injective hrest] at hcloses ⊢
    have hmark : ∀ {e rest}, text = e :: rest → ¬ (e = 'e' ∨ e = 'E') := by
      rintro e rest rfl he
      have hletter := (hcloses e rfl).1
      rcases he with rfl | rfl <;> cases hletter
    unfold afterExponent
    split
    next => exact absurd rfl (hcloses '.' rfl).2
    next => rw [if_neg (hmark rfl)]
    next => rw [if_neg (hmark rfl)]
    next => rfl

/-- What the strict reader reads as a numeral that is closed is not hexadecimal. -/
theorem not_hexadecimal {text middle after : List Char} {fraction : Option (List Char)}
    {exponent : Option Json.ExponentPart}
    (hfraction : takeFraction (text.dropWhile Char.isDigit) = (fraction, middle))
    (hexponent : Json.readExponent (symbolsOfChars middle) = some (exponent, symbolsOfChars after))
    (hcloses : Closes after) (c : Char) (rest : List Char) (htext : text = '0' :: c :: rest) :
    c ≠ 'x' ∧ c ≠ 'X' := by
  subst htext
  by_contra hc
  have hletter : c.isDigit = false ∧ c ≠ '.' ∧ ¬ (c = 'e' ∨ c = 'E') ∧ c.isAlphanum = true := by
    rw [not_and_or, not_not, not_not] at hc
    rcases hc with rfl | rfl <;> decide
  obtain ⟨hdigit, hpoint, hmark, halphanum⟩ := hletter
  have hdrop : ('0' :: c :: rest).dropWhile Char.isDigit = c :: rest := by
    rw [List.dropWhile_cons_of_pos (by decide), List.dropWhile_cons_of_neg (by simp [hdigit])]
  have hmiddle : middle = c :: rest := by
    rw [hdrop, takeFraction] at hfraction
    · exact (Prod.mk.inj hfraction).2.symm
    · exact fun _ heq => hpoint (List.cons.inj heq).1
  subst hmiddle
  rcases readExponent_cases hexponent with ⟨e, sign, tail, he, -, heq, -⟩ | ⟨e, tail, he, heq, -⟩ |
    ⟨-, heq⟩
  · exact hmark ((List.cons.inj heq).1 ▸ he)
  · exact hmark ((List.cons.inj heq).1 ▸ he)
  · rw [symbolsOfChars_injective heq] at hcloses
    rw [(hcloses c rfl).1] at halphanum
    cases halphanum

/-- The lenient reader reads the magnitudes of numerals. -/
theorem readMagnitude_of_readUnsigned {negative : Bool} {text : List Char}
    {numeral : Json.Numeral} {rest : List Symbol}
    (h : Json.readUnsigned negative (symbolsOfChars text) = some (numeral, rest)) :
    ∃ after, rest = symbolsOfChars after ∧ PassesNoZero text after ∧
      (Closes after → ∃ spelling,
        readMagnitude negative text =
          some (.scalar (some (Cell.ofNumeral numeral)) spelling, after)) := by
  rw [Json.readUnsigned, takeDigits_symbolsOfChars] at h
  simp only at h
  split at h
  case isFalse => cases h
  case isTrue hallowed =>
    split at h
    next => cases h
    next fraction rest' hfraction =>
      split at h
      next => cases h
      next exponent rest'' hexponent =>
        cases h
        obtain ⟨middle, rfl, hmiddle, hpoint⟩ := takeFraction_of_readFraction hfraction
        obtain ⟨after, rfl, hafter⟩ := PassesNoZero.exponent hexponent
        refine ⟨after, rfl, (passesNoZero_dropWhile rfl text).trans (hmiddle.trans hafter), ?_⟩
        intro hcloses
        obtain ⟨hleading, hwhole⟩ := wholeDigitsAllowed_iff hallowed
        have hhex := not_hexadecimal hpoint hexponent hcloses
        obtain ⟨spelling, hmagnitude⟩ := @readMagnitude_eq negative text hhex
        refine ⟨spelling exponent, ?_⟩
        simp only [hmagnitude, hpoint, hleading, hwhole, Bool.false_and, Bool.or_self]
        exact afterExponent_eq _ hexponent hcloses

/-- A magnitude begins with a digit. -/
theorem exists_digit_of_readUnsigned {negative : Bool} {text : List Char}
    {result : Json.Numeral × List Symbol}
    (h : Json.readUnsigned negative (symbolsOfChars text) = some result) :
    ∃ c tail, text = c :: tail ∧ c.isDigit = true := by
  rw [Json.readUnsigned, takeDigits_symbolsOfChars] at h
  cases text with
  | nil => cases h
  | cons c tail =>
      refine ⟨c, tail, rfl, ?_⟩
      by_contra hc
      rw [List.takeWhile_cons_of_neg hc] at h
      cases h

/-- The lenient reader reads numerals. -/
theorem readNumber_of_readNumeral {text : List Char} {numeral : Json.Numeral}
    {rest : List Symbol}
    (h : Json.readNumeral (symbolsOfChars text) = some (numeral, rest)) :
    (∃ c tail, text = c :: tail ∧ (c = '-' ∨ c.isDigit = true)) ∧
    ∃ after, rest = symbolsOfChars after ∧ PassesNoZero text after ∧
      (Closes after → ∃ spelling,
        readNumber text = some (.scalar (some (Cell.ofNumeral numeral)) spelling, after)) := by
  unfold Json.readNumeral at h
  split at h
  next rest' heq =>
    obtain ⟨tail, rfl, rfl⟩ := symbolsOfChars_eq_cons heq
    obtain ⟨d, digits, rfl, hd⟩ := exists_digit_of_readUnsigned h
    obtain ⟨after, rfl, hpasses, hread⟩ := readMagnitude_of_readUnsigned h
    refine ⟨⟨'-', _, rfl, Or.inl rfl⟩, after, rfl,
      (PassesNoZero.cons (by decide) _).trans hpasses, fun hcloses => ?_⟩
    obtain ⟨spelling, hspelling⟩ := hread hcloses
    refine ⟨spelling, ?_⟩
    rw [← hspelling]
    unfold readNumber
    simp only
    split
    next hword =>
      have hi : d = 'i' := by
        rw [← toLower_of_isDigit hd]
        simpa using congrArg List.head? hword
      rw [hi] at hd
      cases hd
    next => rfl
  next hminus =>
    obtain ⟨c, tail, rfl, hc⟩ := exists_digit_of_readUnsigned h
    obtain ⟨after, rfl, hpasses, hread⟩ := readMagnitude_of_readUnsigned h
    refine ⟨⟨c, tail, rfl, Or.inr hc⟩, after, rfl, hpasses, fun hcloses => ?_⟩
    obtain ⟨spelling, hspelling⟩ := hread hcloses
    refine ⟨spelling, ?_⟩
    rw [← hspelling]
    unfold readNumber
    split
    next heq =>
      rw [(List.cons.inj heq).1] at hc
      cases hc
    next heq =>
      rw [(List.cons.inj heq).1] at hc
      cases hc
    next => rfl

end LenientJson

end FeedbackBoard
