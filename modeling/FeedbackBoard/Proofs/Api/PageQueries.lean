import FeedbackBoard.Api.Parameters
import FeedbackBoard.Proofs.Json.Digits
import FeedbackBoard.Proofs.Json.Scalars
import FeedbackBoard.Store.Query

/-!
# Queries for pages

A query that names an order, a direction and a page number is read as such, so every
page whose number fits in 64 bits can be asked for.

Main definitions:

- `IsPlainInQuery`: the characters that stand for themselves in a query.
- `pageQueryChars`: the query for a page.

Main results:

- `formDecoded_of_plain`: plain characters stand for themselves.
- `integerOfText_integerText`: integers of 64 bits are read as they are written.
- `ListParameters.ofQuery_pageQueryChars`: what the query for a page is read as.
-/

namespace FeedbackBoard

/-! ## Plain text -/

/-- The characters of ASCII that stand for themselves in a query. -/
def IsPlainInQuery (c : Char) : Prop :=
  c.toNat < 0x80 ∧ c ≠ '+' ∧ c ≠ '%' ∧ c ≠ '&' ∧ c ≠ '=' ∧ c ≠ '#'

instance : DecidablePred IsPlainInQuery := fun _ =>
  inferInstanceAs (Decidable (_ ∧ _ ∧ _ ∧ _ ∧ _ ∧ _))

/-- Whether all characters are plain can be computed. -/
theorem isPlainInQuery_of_all {chars : List Char}
    (h : (chars.all fun c => decide (IsPlainInQuery c)) = true) : ∀ c ∈ chars, IsPlainInQuery c :=
  fun c hc => of_decide_eq_true (List.all_eq_true.mp h c hc)

/-- The bytes of characters of ASCII. -/
def asciiBytes (chars : List Char) : List UInt8 :=
  chars.map fun c => UInt8.ofNat c.toNat

theorem toNat_asciiByte {c : Char} (h : c.toNat < 0x80) :
    (UInt8.ofNat c.toNat).toNat = c.toNat := by
  rw [UInt8.toNat_ofNat']
  exact Nat.mod_eq_of_lt (by omega)

theorem bytesOfChars_of_ascii {chars : List Char} (h : ∀ c ∈ chars, c.toNat < 0x80) :
    bytesOfChars chars = asciiBytes chars := by
  induction chars with
  | nil => rfl
  | cons c rest ih =>
      have hc : c.val.toNat ≤ 0x7f := Nat.le_of_lt_succ (h c List.mem_cons_self)
      have hfirst : String.utf8EncodeChar c = [UInt8.ofNat c.toNat] := by
        rw [String.utf8EncodeChar, if_pos hc]
        rfl
      rw [bytesOfChars, List.flatMap_cons, hfirst, ← bytesOfChars,
        ih fun d hd => h d (List.mem_cons_of_mem c hd)]
      rfl

/-- Bytes other than the percent sign stand for themselves. -/
theorem percentDecoded_of_not_mem {bytes : List UInt8} (h : 37 ∉ bytes) :
    percentDecoded bytes = bytes := by
  induction bytes with
  | nil => rfl
  | cons byte rest ih =>
      rw [List.mem_cons, not_or] at h
      rw [percentDecoded, ih h.2]
      rintro a b rest' rfl -
      exact h.1 rfl

/-- Every byte of ASCII is read as a character. -/
theorem foldl_step_asciiBytes {chars : List Char} (h : ∀ c ∈ chars, c.toNat < 0x80)
    (read : List Symbol) :
    (asciiBytes chars).foldl Utf8State.step ⟨read, none⟩ =
      ⟨(symbolsOfChars chars).reverse ++ read, none⟩ := by
  induction chars generalizing read with
  | nil => rfl
  | cons c rest ih =>
      have hc := h c List.mem_cons_self
      have hstep : Utf8State.step ⟨read, none⟩ (UInt8.ofNat c.toNat) = ⟨some c :: read, none⟩ := by
        rw [Utf8State.step, Utf8State.start, FirstByte.ofByte, toNat_asciiByte hc]
        simp only [if_pos hc, Char.ofNat_toNat]
      rw [asciiBytes, List.map_cons, List.foldl_cons, hstep, ← asciiBytes,
        ih (fun d hd => h d (List.mem_cons_of_mem c hd)), symbolsOfChars_cons, List.reverse_cons,
        List.append_assoc]
      rfl

/-- Plain characters stand for themselves. -/
theorem formDecoded_of_plain {chars : List Char} (h : ∀ c ∈ chars, IsPlainInQuery c) :
    formDecoded chars = String.ofList chars := by
  have hspaced : (chars.map fun c => if c = '+' then ' ' else c) = chars := by
    conv => rhs; rw [← List.map_id' chars]
    exact List.map_congr_left fun c hc => if_neg (h c hc).2.1
  have hascii : ∀ c ∈ chars, c.toNat < 0x80 := fun c hc => (h c hc).1
  have hpercent : 37 ∉ asciiBytes chars := by
    intro hmem
    obtain ⟨c, hc, hbyte⟩ := List.mem_map.mp hmem
    have hvalue : c.toNat = 37 := by
      rw [← toNat_asciiByte (hascii c hc), hbyte]
      rfl
    exact (h c hc).2.2.1 (Char.toNat_inj.mp hvalue)
  have hsymbols : symbolsOfBytes (asciiBytes chars) = symbolsOfChars chars := by
    rw [symbolsOfBytes, foldl_step_asciiBytes hascii, Utf8State.finish, List.append_nil,
      List.reverse_reverse]
  have hlenient : lenient (symbolsOfChars chars) = chars := by
    rw [lenient, symbolsOfChars, List.map_map]
    exact List.map_id' chars
  simp only [formDecoded, hspaced, bytesOfChars_of_ascii hascii,
    percentDecoded_of_not_mem hpercent, hsymbols, hlenient]

/-! ## Integers -/

/-- Digits are read as their number, if it is within the bound. -/
theorem boundedNatural_of_le {bound : Nat} (excess : IntegerFault) {digits : List Char}
    (hdigits : ∀ c ∈ digits, c.isDigit = true) {n : Nat}
    (hbound : Nat.ofDigitChars 10 digits n ≤ bound) :
    boundedNatural bound excess n digits = .ok (Nat.ofDigitChars 10 digits n) := by
  induction digits generalizing n with
  | nil => rfl
  | cons c rest ih =>
      have hnext : Nat.ofDigitChars 10 (c :: rest) n =
          Nat.ofDigitChars 10 rest (n * 10 + (c.toNat - '0'.toNat)) := by
        rw [Nat.ofDigitChars_eq_foldl, Nat.ofDigitChars_eq_foldl, List.foldl_cons, Nat.mul_comm]
      rw [hnext] at hbound ⊢
      have hsmall : n * 10 + (c.toNat - '0'.toNat) ≤ bound := by
        refine Nat.le_trans ?_ hbound
        rw [Nat.ofDigitChars_eq_ofDigitChars_zero]
        exact Nat.le_add_right_of_le (Nat.le_mul_of_pos_left _ (Nat.pow_pos (by decide)))
      rw [boundedNatural, if_pos (hdigits c List.mem_cons_self)]
      simp only [if_neg (Nat.not_lt.mpr hsmall)]
      exact ih (fun d hd => hdigits d (List.mem_cons_of_mem c hd)) hbound

theorem ne_of_isDigit {c d : Char} (hc : c.isDigit = true) (hd : d.isDigit = false) : c ≠ d := by
  rintro rfl
  exact absurd hc (Bool.eq_false_iff.mp hd)

/-- Digits without a sign are read as their number. -/
theorem integerOfText_of_isDigit {chars : List Char} (hne : chars ≠ [])
    (hdigits : ∀ c ∈ chars, c.isDigit = true)
    (hbound : Nat.ofDigitChars 10 chars 0 ≤ 0x7FFFFFFFFFFFFFFF) :
    integerOfText chars = .ok (Nat.ofDigitChars 10 chars 0) := by
  have hread := boundedNatural_of_le .tooLarge hdigits hbound
  obtain ⟨c, rest, rfl⟩ := List.exists_cons_of_ne_nil hne
  have hfirst := hdigits c List.mem_cons_self
  have hminus : c ≠ '-' := ne_of_isDigit hfirst rfl
  have hplus : c ≠ '+' := ne_of_isDigit hfirst rfl
  rw [integerOfText, hread]
  · rfl
  · exact hne
  · exact fun h => hplus (List.head_eq_of_cons_eq h)
  · exact fun h => hminus (List.head_eq_of_cons_eq h)
  · exact fun _ h => hminus (List.head_eq_of_cons_eq h)
  · exact fun _ h => hplus (List.head_eq_of_cons_eq h)

/-- Digits after a minus sign are read as the negation of their number. -/
theorem integerOfText_minus {chars : List Char} (hne : chars ≠ [])
    (hdigits : ∀ c ∈ chars, c.isDigit = true)
    (hbound : Nat.ofDigitChars 10 chars 0 ≤ 0x8000000000000000) :
    integerOfText ('-' :: chars) = .ok (-(Nat.ofDigitChars 10 chars 0 : Int)) := by
  have hread := boundedNatural_of_le .tooSmall hdigits hbound
  rw [integerOfText, hread]
  · rfl
  · exact hne

/-- Integers of 64 bits are read as they are written. -/
theorem integerOfText_integerText {n : Int} (hlow : -0x8000000000000000 ≤ n)
    (hhigh : n < 0x8000000000000000) : integerOfText (Json.integerText n) = .ok n := by
  have hdigits : ∀ c ∈ decimalDigits n.natAbs, c.isDigit = true := fun c =>
    isDigit_of_mem_decimalDigits
  have hvalue : Nat.ofDigitChars 10 (decimalDigits n.natAbs) 0 = n.natAbs := by
    rw [← Json.naturalOfDigits_eq, Json.naturalOfDigits_decimalDigits]
  have hne := decimalDigits_ne_nil n.natAbs
  rw [Json.integerText]
  by_cases hnegative : n < 0
  · have hsigned : -(n.natAbs : Int) = n := by omega
    rw [if_pos hnegative, List.singleton_append, integerOfText_minus hne hdigits (by omega),
      hvalue, hsigned]
  · have hunsigned : (n.natAbs : Int) = n := by omega
    rw [if_neg hnegative, List.nil_append, integerOfText_of_isDigit hne hdigits (by omega),
      hvalue, hunsigned]

theorem isPlainInQuery_of_isDigit {c : Char} (h : c.isDigit = true) : IsPlainInQuery c := by
  refine ⟨?_, ne_of_isDigit h rfl, ne_of_isDigit h rfl, ne_of_isDigit h rfl, ne_of_isDigit h rfl,
    ne_of_isDigit h rfl⟩
  simp only [Char.isDigit, Bool.and_eq_true, decide_eq_true_iff] at h
  have hhigh : c.toNat ≤ 57 := h.2
  omega

/-- Written integers are plain. -/
theorem isPlainInQuery_of_mem_integerText {n : Int} {c : Char} (h : c ∈ Json.integerText n) :
    IsPlainInQuery c := by
  rw [Json.integerText, List.mem_append] at h
  rcases h with hsign | hdigit
  · split at hsign
    · rw [List.mem_singleton.mp hsign]
      decide
    · cases hsign
  · exact isPlainInQuery_of_isDigit (isDigit_of_mem_decimalDigits hdigit)

/-! ## Queries -/

/-- A name and a value in a query. -/
def queryPart (name value : List Char) : List Char :=
  name ++ '=' :: value

/-- The query for a page. -/
def pageQueryChars (orderBy way : List Char) (number : Int) : List Char :=
  queryPart "order_by".toList orderBy ++ '&' :: (queryPart "direction".toList way ++
    '&' :: queryPart "page".toList (Json.integerText number))

section Queries

variable {name value : List Char} (hname : ∀ c ∈ name, IsPlainInQuery c)
  (hvalue : ∀ c ∈ value, IsPlainInQuery c)
include hname hvalue

theorem not_mem_queryPart : '&' ∉ queryPart name value := by
  rw [queryPart, List.mem_append, List.mem_cons, not_or, not_or]
  exact ⟨fun h => (hname _ h).2.2.2.1 rfl, by decide, fun h => (hvalue _ h).2.2.2.1 rfl⟩

/-- A part of a query is no beginning of a fragment. -/
theorem hash_not_mem_queryPart : '#' ∉ queryPart name value := by
  rw [queryPart, List.mem_append, List.mem_cons, not_or, not_or]
  exact ⟨fun h => (hname _ h).2.2.2.2.2 rfl, by decide, fun h => (hvalue _ h).2.2.2.2.2 rfl⟩

theorem formPairs_queryPart :
    formPairs (queryPart name value) = [(String.ofList name, String.ofList value)] := by
  rw [formPairs, List.splitOn_eq_singleton (not_mem_queryPart hname hvalue)]
  have hne : queryPart name value ≠ [] :=
    List.append_ne_nil_of_right_ne_nil _ (List.cons_ne_nil _ _)
  have hbefore : ∀ c ∈ name, (c != '=') = true := fun c hc =>
    bne_iff_ne.mpr (hname c hc).2.2.2.2.1
  have hmark : ('=' != '=') = false := rfl
  have htake : (queryPart name value).takeWhile (· != '=') = name := by
    rw [queryPart, List.takeWhile_append_of_pos hbefore, List.takeWhile_cons, hmark]
    exact List.append_nil name
  have hdrop : ((queryPart name value).dropWhile (· != '=')).drop 1 = value := by
    rw [queryPart, List.dropWhile_append_of_pos hbefore, List.dropWhile_cons, hmark]
    rfl
  rw [List.filterMap_cons, if_neg hne, htake, hdrop, formDecoded_of_plain hname,
    formDecoded_of_plain hvalue]
  rfl

theorem formPairs_append (rest : List Char) :
    formPairs (queryPart name value ++ '&' :: rest) =
      (String.ofList name, String.ofList value) :: formPairs rest := by
  have hpair := formPairs_queryPart hname hvalue
  rw [formPairs, List.splitOn_eq_singleton (not_mem_queryPart hname hvalue)] at hpair
  rw [formPairs, List.splitOn_append_cons_self_of_not_mem (not_mem_queryPart hname hvalue),
    ← List.singleton_append, List.filterMap_append, hpair]
  rfl

end Queries

/-- The names of the parameters are plain. -/
theorem isPlain_parameterNames :
    (∀ c ∈ "order_by".toList, IsPlainInQuery c) ∧ (∀ c ∈ "direction".toList, IsPlainInQuery c) ∧
      ∀ c ∈ "page".toList, IsPlainInQuery c :=
  ⟨isPlainInQuery_of_all rfl, isPlainInQuery_of_all rfl, isPlainInQuery_of_all rfl⟩

/-- The query for a page has no fragment. -/
theorem hash_not_mem_pageQueryChars {orderBy way : List Char} (number : Int)
    (horder : ∀ c ∈ orderBy, IsPlainInQuery c) (hway : ∀ c ∈ way, IsPlainInQuery c) :
    '#' ∉ pageQueryChars orderBy way number := by
  have hnumber : ∀ c ∈ Json.integerText number, IsPlainInQuery c := fun c hc =>
    isPlainInQuery_of_mem_integerText hc
  obtain ⟨horderName, hwayName, hnumberName⟩ := isPlain_parameterNames
  rw [pageQueryChars, List.mem_append, List.mem_cons, List.mem_append, List.mem_cons]
  rintro (hpart | hmark | hpart | hmark | hpart)
  · exact hash_not_mem_queryPart horderName horder hpart
  · exact absurd hmark (by decide)
  · exact hash_not_mem_queryPart hwayName hway hpart
  · exact absurd hmark (by decide)
  · exact hash_not_mem_queryPart hnumberName hnumber hpart

/-- The query for a page is read as the order, the direction and the number that it names. -/
theorem ListParameters.ofQuery_pageQueryChars {orderBy way : List Char} {number : Int}
    (horder : ∀ c ∈ orderBy, IsPlainInQuery c) (hway : ∀ c ∈ way, IsPlainInQuery c)
    (hlow : -0x8000000000000000 ≤ number) (hhigh : number < 0x8000000000000000) :
    ofQuery (pageQueryChars orderBy way number) =
      .ok ⟨some (String.ofList orderBy), some (String.ofList way), some number⟩ := by
  have hnumber : ∀ c ∈ Json.integerText number, IsPlainInQuery c := fun c hc =>
    isPlainInQuery_of_mem_integerText hc
  obtain ⟨horderName, hwayName, hnumberName⟩ := isPlain_parameterNames
  rw [ofQuery, pageQueryChars, formPairs_append horderName horder,
    formPairs_append hwayName hway, formPairs_queryPart hnumberName hnumber]
  simp only [String.ofList_toList, putAll, put, empty, String.toList_ofList,
    integerOfText_integerText hlow hhigh]
  rfl

end FeedbackBoard
