import FeedbackBoard.Proofs.Database.LenientScalars

/-!
# Strings under both readers

The lenient reader follows the strict one over strings.  The strict reader takes
escapes of 16 bits one by one and remembers a first half of a pair, while the lenient
reader takes both halves at once; so a string is followed from a state in which no
half waits to the next such state.  No half of a pair stands alone in what is read so.

Main definitions:

- `LenientJson.ReadsString`: the lenient reader reads a string without lone halves up to a text.

Main results:

- `LenientJson.readsString_of_readString`: it reads what the strict reader reads.
-/

namespace FeedbackBoard

namespace LenientJson

/-- A character is taken soundly only if no half of a pair waits. -/
theorem sound_put {state : Json.StringState} {c : Char} (h : (state.put c).sound = true) :
    state.sound = true ∧ state.high = none := by
  simpa [Json.StringState.put] using h

theorem not_sound_damage (state : Json.StringState) : state.damage.sound ≠ true :=
  Bool.false_ne_true

/-- A unit is taken soundly if it is the second half that is waited for, or if none is. -/
theorem sound_putUnit {state : Json.StringState} {unit : Nat}
    (h : (state.putUnit unit).sound = true) :
    state.sound = true ∧ (state.high = none ↔ ¬ (0xDC00 ≤ unit ∧ unit < 0xE000)) := by
  unfold Json.StringState.putUnit at h
  split at h
  next hfirst =>
    have hboth : state.sound = true ∧ state.high = none := by simpa using h
    exact ⟨hboth.1, iff_of_true hboth.2 (by omega)⟩
  next =>
    split at h
    next hsecond =>
      cases hhigh : state.high with
      | none =>
          rw [hhigh] at h
          exact absurd h (not_sound_damage state)
      | some high =>
          rw [hhigh] at h
          exact ⟨h, by simp [hsecond]⟩
    next hplain => exact ⟨(sound_put h).1, iff_of_true (sound_put h).2 hplain⟩

/-- Behind a first half the second half is waited for. -/
theorem high_putUnit (state : Json.StringState) (unit : Nat) :
    (state.putUnit unit).high = if 0xD800 ≤ unit ∧ unit < 0xDC00 then some unit else none := by
  unfold Json.StringState.putUnit
  split
  · rfl
  · split
    · split <;> rfl
    · rfl

/-- Reading a string ends soundly only if it has been sound all the time. -/
theorem sound_of_readString {state : Json.StringState} {text : List Symbol} {string : String}
    {rest : List Symbol} (h : Json.readString state text = some (some string, rest)) :
    state.sound = true := by
  fun_induction Json.readString state text with
  | case2 state tail =>
      rw [Option.some.injEq, Prod.mk.injEq, Json.StringState.finish] at h
      by_contra hsound
      simp [hsound] at h
  | case3 _ _ _ _ _ _ _ _ ih => exact (sound_putUnit (ih h)).1
  | case5 _ _ _ _ _ _ ih => exact (sound_put (ih h)).1
  | case8 _ _ _ _ _ _ _ ih => exact (sound_put (ih h)).1
  | case9 _ _ ih => exact absurd (ih h) (not_sound_damage _)
  | case1 | case4 | case6 | case7 => cases h

/-- A half of a pair is followed by the other half. -/
theorem exists_second_of_readString {state : Json.StringState} {text : List Symbol}
    {string : String} {rest : List Symbol} (hhigh : state.high ≠ none)
    (h : Json.readString state text = some (some string, rest)) :
    ∃ a b c d tail unit, text = some '\\' :: some 'u' :: a :: b :: c :: d :: tail ∧
      Json.hexUnit? a b c d = some unit ∧ (0xDC00 ≤ unit ∧ unit < 0xE000) ∧
      Json.readString (state.putUnit unit) tail = some (some string, rest) := by
  have hput : ∀ {c : Char} {tail}, Json.readString (state.put c) tail ≠ some (some string, rest) :=
    fun h => hhigh (sound_put (sound_of_readString h)).2
  unfold Json.readString at h
  split at h
  next => cases h
  next tail =>
    rw [Option.some.injEq, Prod.mk.injEq, Json.StringState.finish] at h
    simp [hhigh] at h
  next a b c d tail =>
    split at h
    next unit hunit =>
      refine ⟨a, b, c, d, tail, unit, rfl, hunit, ?_, h⟩
      by_contra hsecond
      exact hhigh ((sound_putUnit (sound_of_readString h)).2.mpr hsecond)
    next => cases h
  next =>
    split at h
    next => exact absurd h hput
    next => cases h
  next =>
    split at h
    next => cases h
    next => exact absurd h hput
  next => exact absurd (sound_of_readString h) (not_sound_damage state)

theorem hexValue?_lt {c : Char} {n : Nat} (h : Json.hexValue? c = some n) : n < 16 := by
  have hle : ∀ a b : Char, a ≤ b ↔ a.toNat ≤ b.toNat := fun _ _ => Iff.rfl
  simp only [Json.hexValue?, hle, Char.reduceToNat] at h
  split_ifs at h <;> cases h <;> omega

/-- Four hexadecimal digits spell a number of 16 bits. -/
theorem hexUnit?_lt {a b c d : Char} {unit : Nat}
    (h : Json.hexUnit? (some a) (some b) (some c) (some d) = some unit) : unit < 0x10000 := by
  rw [Json.hexUnit?] at h
  split at h
  next ha hb hc hd =>
    have := hexValue?_lt ha
    have := hexValue?_lt hb
    have := hexValue?_lt hc
    have := hexValue?_lt hd
    cases h
    omega
  next => cases h

/-- A unit outside the pairs is a character. -/
theorem isText_single {a b c d : Char} {unit : Nat}
    (hunit : Json.hexUnit? (some a) (some b) (some c) (some d) = some unit)
    (hsingle : ¬ (0xD800 ≤ unit ∧ unit < 0xE000)) : CodePoints.IsText [unit] := by
  have hlt := hexUnit?_lt hunit
  refine CodePoints.isText_singleton.mpr ?_
  simp only [Nat.isValidChar]
  omega

/-- A unit outside the pairs is read alone. -/
theorem readUnit_single {a b c d : Char} {unit : Nat}
    (hunit : Json.hexUnit? (some a) (some b) (some c) (some d) = some unit)
    (hsingle : ¬ (0xD800 ≤ unit ∧ unit < 0xE000)) (rest : List Char) :
    readUnit (a :: b :: c :: d :: rest) = some ⟨[unit], ['\\', 'u', a, b, c, d], rest⟩ := by
  simp only [readUnit, hunit, if_neg hsingle]

/-- Both halves of a pair are read together, as one character. -/
theorem readUnit_pair {a b c d e f g h : Char} {first second : Nat}
    (hfirst : Json.hexUnit? (some a) (some b) (some c) (some d) = some first)
    (hhigh : 0xD800 ≤ first ∧ first < 0xDC00)
    (hsecond : Json.hexUnit? (some e) (some f) (some g) (some h) = some second)
    (hlow : 0xDC00 ≤ second ∧ second < 0xE000) (rest : List Char) :
    ∃ part, readUnit (a :: b :: c :: d :: '\\' :: 'u' :: e :: f :: g :: h :: rest) = some part ∧
      part.meaning.IsText ∧ part.rest = rest := by
  have hpair : 0xD800 ≤ first ∧ first < 0xE000 := ⟨hhigh.1, by omega⟩
  have hboth : first < 0xDC00 ∧ 0xDC00 ≤ second ∧ second < 0xE000 := ⟨hhigh.2, hlow⟩
  rw [readUnit, hfirst]
  simp only [hpair, hsecond, hboth, and_self, if_true, Option.map_some]
  refine ⟨_, rfl, CodePoints.isText_singleton.mpr ?_, rfl⟩
  simp only [Nat.isValidChar]
  omega

/-- A letter that the strict reader knows behind a backslash is read. -/
theorem readEscape_simple {escape meaning : Char}
    (h : Json.simpleEscape? (some escape) = some meaning) (rest : List Char) :
    escape ≠ '\x00' ∧ ∃ part, readEscape '"' (escape :: rest) = some part ∧
      part.meaning.IsText ∧ part.rest = rest := by
  unfold Json.simpleEscape? at h
  split at h
  case h_9 => cases h
  all_goals
    rename_i heq
    cases heq
    exact ⟨by decide, _, rfl, CodePoints.isText_singleton.mpr (Char.valid _), rfl⟩

/-- Hexadecimal digits are no zeros. -/
theorem ne_zero_of_hexUnit? {a b c d : Char} {unit : Nat}
    (h : Json.hexUnit? (some a) (some b) (some c) (some d) = some unit) :
    a ≠ '\x00' ∧ b ≠ '\x00' ∧ c ≠ '\x00' ∧ d ≠ '\x00' := by
  have hzero : Json.hexValue? '\x00' = none := by decide
  refine ⟨?_, ?_, ?_, ?_⟩
  all_goals
    rintro rfl
    simp [Json.hexUnit?, hzero] at h

/--
With this fuel the string that begins the text is read, up to what follows it, and no
half of a pair stands alone in it.
-/
def ReadsString (fuel : Nat) (text after : List Char) : Prop :=
  ∀ (meaning : CodePoints) (spelling : List Char), meaning.IsText →
    ∃ (codes : CodePoints) (chars : List Char), codes.IsText ∧
      readQuoted '"' fuel meaning spelling text = some (codes, chars, after)

theorem ReadsString.escape {fuel : Nat} {rest after : List Char} {part : StringPart}
    (hpart : readEscape '"' rest = some part) (htext : part.meaning.IsText)
    (h : ReadsString fuel part.rest after) : ReadsString (fuel + 1) ('\\' :: rest) after := by
  intro meaning spelling hmeaning
  rw [readQuoted, hpart]
  refine h _ _ (List.forall_mem_append.mpr ⟨fun code hcode => ?_, hmeaning⟩)
  exact htext code (List.mem_reverse.mp hcode)

theorem ReadsString.char {fuel : Nat} {c : Char} {rest after : List Char} (hquote : c ≠ '"')
    (hescape : c ≠ '\\') (h : ReadsString fuel rest after) :
    ReadsString (fuel + 1) (c :: rest) after := by
  intro meaning spelling hmeaning
  rw [readQuoted, if_neg hquote]
  · exact h _ _ (List.forall_mem_cons.mpr ⟨c.valid, hmeaning⟩)
  · exact hescape

/-- A text that begins with the symbols of an escaped unit begins with its characters. -/
theorem exists_of_unit {text : List Char} {a b c d : Symbol} {rest : List Symbol}
    (h : symbolsOfChars text = some '\\' :: some 'u' :: a :: b :: c :: d :: rest) :
    ∃ a' b' c' d' tail, text = '\\' :: 'u' :: a' :: b' :: c' :: d' :: tail ∧ a = some a' ∧
      b = some b' ∧ c = some c' ∧ d = some d' ∧ rest = symbolsOfChars tail := by
  obtain ⟨_, rfl, h₁⟩ := symbolsOfChars_eq_cons h
  obtain ⟨_, rfl, h₂⟩ := symbolsOfChars_eq_cons h₁.symm
  obtain ⟨a', _, rfl, ha, h₃⟩ := exists_of_symbolsOfChars_eq_cons h₂.symm
  obtain ⟨b', _, rfl, hb, h₄⟩ := exists_of_symbolsOfChars_eq_cons h₃.symm
  obtain ⟨c', _, rfl, hc, h₅⟩ := exists_of_symbolsOfChars_eq_cons h₄.symm
  obtain ⟨d', tail, rfl, hd, hrest⟩ := exists_of_symbolsOfChars_eq_cons h₅.symm
  exact ⟨a', b', c', d', tail, rfl, ha, hb, hc, hd, hrest⟩

theorem PassesNoZero.unit {a b c d : Char} {unit : Nat}
    (h : Json.hexUnit? (some a) (some b) (some c) (some d) = some unit) (tail : List Char) :
    PassesNoZero ('\\' :: 'u' :: a :: b :: c :: d :: tail) tail := by
  obtain ⟨ha, hb, hc, hd⟩ := ne_zero_of_hexUnit? h
  exact ⟨['\\', 'u', a, b, c, d], by simp [ha.symm, hb.symm, hc.symm, hd.symm], rfl⟩

/-- The lenient reader reads strings that begin with an escaped unit, if it reads shorter ones. -/
theorem readsString_unit {string : String} {rest : List Symbol} {fuel : Nat}
    (ih : ∀ {state : Json.StringState} {text : List Char}, text.length < fuel →
      state.high = none →
      Json.readString state (symbolsOfChars text) = some (some string, rest) →
      ∃ after, rest = symbolsOfChars after ∧ PassesNoZero text after ∧
        ReadsString fuel text after)
    {state : Json.StringState} {a b c d : Char} {tail : List Char} {unit : Nat}
    (hfuel : ('\\' :: 'u' :: a :: b :: c :: d :: tail).length < fuel + 1)
    (hhigh : state.high = none)
    (hunit : Json.hexUnit? (some a) (some b) (some c) (some d) = some unit)
    (h : Json.readString (state.putUnit unit) (symbolsOfChars tail) = some (some string, rest)) :
    ∃ after, rest = symbolsOfChars after ∧
      PassesNoZero ('\\' :: 'u' :: a :: b :: c :: d :: tail) after ∧
      ReadsString (fuel + 1) ('\\' :: 'u' :: a :: b :: c :: d :: tail) after := by
  have hsecond := (sound_putUnit (sound_of_readString h)).2.mp hhigh
  have hnext := high_putUnit state unit
  simp only [List.length_cons] at hfuel
  by_cases hfirst : 0xD800 ≤ unit ∧ unit < 0xDC00
  · -- The second half follows, and the lenient reader takes both at once.
    rw [if_pos hfirst] at hnext
    obtain ⟨_, _, _, _, _, second, htail, hlow, hbounds, hrest⟩ :=
      exists_second_of_readString (by simp [hnext]) h
    obtain ⟨e, f, g, i, tail, rfl, rfl, rfl, rfl, rfl, rfl⟩ := exists_of_unit htail
    have hhigh' : ((state.putUnit unit).putUnit second).high = none := by
      rw [high_putUnit, if_neg (by omega)]
    simp only [List.length_cons] at hfuel
    obtain ⟨after, hafter, hpasses, hreads⟩ := ih (by omega) hhigh' hrest
    obtain ⟨part, hpart, htext, hpartRest⟩ := readUnit_pair hunit hfirst hlow hbounds tail
    exact ⟨after, hafter,
      (PassesNoZero.unit hunit _).trans ((PassesNoZero.unit hlow _).trans hpasses),
      ReadsString.escape hpart htext (hpartRest ▸ hreads)⟩
  · rw [if_neg hfirst] at hnext
    obtain ⟨after, hafter, hpasses, hreads⟩ := ih (by omega) hnext h
    have hsingle : ¬ (0xD800 ≤ unit ∧ unit < 0xE000) := by omega
    have hpart := readUnit_single hunit hsingle tail
    exact ⟨after, hafter, (PassesNoZero.unit hunit _).trans hpasses,
      ReadsString.escape hpart (isText_single hunit hsingle) hreads⟩

/-- The lenient reader reads strings. -/
theorem readsString_of_readString {string : String} {rest : List Symbol} :
    ∀ {fuel : Nat} {state : Json.StringState} {text : List Char}, text.length < fuel →
      state.high = none →
      Json.readString state (symbolsOfChars text) = some (some string, rest) →
      ∃ after, rest = symbolsOfChars after ∧ PassesNoZero text after ∧
        ReadsString fuel text after := by
  intro fuel
  induction fuel with
  | zero => exact fun hfuel => absurd hfuel (Nat.not_lt_zero _)
  | succ fuel ih =>
      intro state text hfuel hhigh h
      rw [Json.readString.eq_def] at h
      split at h
      next => cases h
      next heq =>
        obtain ⟨tail, rfl, rfl⟩ := symbolsOfChars_eq_cons heq
        refine ⟨tail, (Prod.mk.inj (Option.some.inj h)).2.symm,
          PassesNoZero.cons (by decide) tail, fun meaning spelling hmeaning => ?_⟩
        refine ⟨meaning.reverse, '"' :: spelling.reverse ++ ['"'], fun code hcode => ?_, ?_⟩
        · exact hmeaning code (List.mem_reverse.mp hcode)
        · simp [readQuoted]
      next heq =>
        obtain ⟨a, b, c, d, tail, rfl, rfl, rfl, rfl, rfl, rfl⟩ := exists_of_unit heq
        split at h
        next unit hunit =>
          exact readsString_unit ih hfuel hhigh hunit h
        next => cases h
      next heq =>
        obtain ⟨_, rfl, heq'⟩ := symbolsOfChars_eq_cons heq
        obtain ⟨escape, tail, rfl, rfl, rfl⟩ := exists_of_symbolsOfChars_eq_cons heq'.symm
        split at h
        next meaning hmeaning =>
          obtain ⟨hzero, part, hpart, htext, hrest⟩ := readEscape_simple hmeaning tail
          obtain ⟨after, hafter, hpasses, hreads⟩ := ih (by simp at hfuel; omega) rfl h
          refine ⟨after, hafter, ?_, ReadsString.escape hpart htext (hrest ▸ hreads)⟩
          exact (PassesNoZero.cons (by decide) _).trans ((PassesNoZero.cons hzero _).trans hpasses)
        next => cases h
      next c _ hquote _ hescape heq =>
        obtain ⟨tail, rfl, rfl⟩ := symbolsOfChars_eq_cons heq
        split at h
        next => cases h
        next hcontrol =>
          obtain ⟨after, hafter, hpasses, hreads⟩ := ih (by simpa using hfuel) rfl h
          have hzero : c ≠ '\x00' := by
            rintro rfl
            exact hcontrol (by decide)
          refine ⟨after, hafter, (PassesNoZero.cons hzero _).trans hpasses,
            ReadsString.char hquote ?_ hreads⟩
          rintro rfl
          cases tail with
          | nil => cases h
          | cons d tail => exact hescape (some d) (symbolsOfChars tail) rfl rfl
      next heq =>
        obtain ⟨c, tail, -, hsymbol, -⟩ := exists_of_symbolsOfChars_eq_cons heq
        cases hsymbol

end LenientJson

end FeedbackBoard
