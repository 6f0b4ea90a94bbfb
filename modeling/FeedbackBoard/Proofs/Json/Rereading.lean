import FeedbackBoard.Proofs.Json.Values

/-!
# What is read back as it was

A value that is written and read again has its shape, its texts and its integers.  A
binary64 number is written with the fewest digits that lie nearest to it, and a numeral of
seventeen digits is not always read as the nearest number; so it may come back as another
binary64 number.

Main definitions:

- `Binary64.IsReadBack`: a number whose spelling is read as the number itself.
- `Json.Value.numbers`: the numbers in a value.
- `Json.Value.HasReadBack`: a value whose numbers are read back.

Main results:

- `Json.Number.reread_eq_self_iff`: only binary64 numbers may change.
- `Json.Value.reread_eq_self_iff_hasReadBack`: a value is read back as it was if its numbers are.
-/

namespace FeedbackBoard

/-- A binary64 number that is read from its spelling as it was. -/
def Binary64.IsReadBack (x : Binary64) : Prop :=
  (Json.decimalNumeral x.negative (shortest x.rank)).double? = some x

instance : DecidablePred Binary64.IsReadBack := fun _ =>
  inferInstanceAs (Decidable (_ = _))

namespace Json

/-! ## Numbers -/

/-- The numeral of a decimal does not look like an integer. -/
theorem isNone_decimalNumeral (negative : Bool) (d : Decimal) :
    ((decimalNumeral negative d).fraction.isNone &&
      (decimalNumeral negative d).exponent.isNone) = false := by
  rw [decimalNumeral, Bool.and_eq_false_iff]
  split
  · left
    split
    · simp only
      split <;> rfl
    · rfl
  · right
    rfl

theorem value?_decimalNumeral (negative : Bool) (d : Decimal) :
    (decimalNumeral negative d).value? = (decimalNumeral negative d).double?.map .double := by
  simp only [Numeral.value?, isNone_decimalNumeral]
  rfl

/-- Integers are read back as they are. -/
@[simp]
theorem Number.reread_integer {n : Int} (lower : -0x8000000000000000 ≤ n)
    (upper : n < 0x10000000000000000) :
    (Number.integer n lower upper).reread = .integer n lower upper := by
  rw [reread, numeral, value?_integerNumeral lower upper, Option.getD_some]

/-- A binary64 number is read back as the one that is read from its spelling. -/
theorem Number.exists_reread_double (x : Binary64) :
    ∃ y, (decimalNumeral x.negative (Binary64.shortest x.rank)).double? = some y ∧
      (Number.double x).reread = .double y := by
  have hread := Number.value?_numeral (.double x)
  rw [numeral, value?_decimalNumeral, Option.map_eq_some_iff] at hread
  obtain ⟨y, hy, hreread⟩ := hread
  exact ⟨y, hy, hreread.symm⟩

/-- A binary64 number is read back as it is if its spelling is read as the number. -/
theorem Number.reread_double_iff (x : Binary64) :
    (Number.double x).reread = .double x ↔ x.IsReadBack := by
  obtain ⟨y, hy, hreread⟩ := exists_reread_double x
  rw [hreread, Binary64.IsReadBack, hy, Number.double.injEq, Option.some_inj]

/-- A number is read back as it is unless it is a binary64 number that is not. -/
theorem Number.reread_eq_self_iff (n : Number) :
    n.reread = n ↔ ∀ x, n = .double x → x.IsReadBack := by
  cases n with
  | integer n lower upper => simp
  | double x => simp [reread_double_iff]

/-! ## Values -/

mutual

/-- The numbers in a value, in the order in which they are written. -/
def Value.numbers : Value → List Number
  | .null | .bool _ | .string _ => []
  | .number n => [n]
  | .array items => Value.numbersOfItems items
  | .object members => Value.numbersOfMembers members

/-- The numbers in the items of an array. -/
def Value.numbersOfItems : List Value → List Number
  | [] => []
  | item :: rest => item.numbers ++ Value.numbersOfItems rest

/-- The numbers in the members of an object. -/
def Value.numbersOfMembers : List (String × Value) → List Number
  | [] => []
  | (_, item) :: rest => item.numbers ++ Value.numbersOfMembers rest

end

mutual

/-- A value is read back as it was exactly if each of its numbers is. -/
theorem Value.reread_eq_self_iff :
    (value : Value) → (value.reread = value ↔ ∀ n ∈ value.numbers, n.reread = n)
  | .null | .bool _ | .string _ => by simp [reread, numbers]
  | .number n => by simp [reread, numbers]
  | .array items => by
      rw [reread, numbers, Value.array.injEq]
      exact Value.rereadItems_eq_self_iff items
  | .object members => by
      rw [reread, numbers, Value.object.injEq]
      exact Value.rereadMembers_eq_self_iff members

theorem Value.rereadItems_eq_self_iff :
    (items : List Value) →
      (rereadItems items = items ↔ ∀ n ∈ numbersOfItems items, n.reread = n)
  | [] => by simp [rereadItems, numbersOfItems]
  | item :: rest => by
      rw [rereadItems, numbersOfItems, List.cons.injEq, item.reread_eq_self_iff,
        Value.rereadItems_eq_self_iff rest, List.forall_mem_append]

theorem Value.rereadMembers_eq_self_iff :
    (members : List (String × Value)) →
      (rereadMembers members = members ↔ ∀ n ∈ numbersOfMembers members, n.reread = n)
  | [] => by simp [rereadMembers, numbersOfMembers]
  | (key, item) :: rest => by
      rw [rereadMembers, numbersOfMembers, List.cons.injEq, Prod.mk.injEq, item.reread_eq_self_iff,
        Value.rereadMembers_eq_self_iff rest, List.forall_mem_append]
      simp

end

/-- The binary64 numbers in a value are read from their spellings as they were. -/
def Value.HasReadBack (value : Value) : Prop :=
  ∀ x, Number.double x ∈ value.numbers → x.IsReadBack

theorem Value.reread_eq_self_iff_hasReadBack (value : Value) :
    value.reread = value ↔ value.HasReadBack := by
  rw [reread_eq_self_iff, HasReadBack]
  constructor
  · intro h x hx
    exact (Number.reread_eq_self_iff _).mp (h _ hx) x rfl
  · intro h n hn
    rw [Number.reread_eq_self_iff]
    rintro x rfl
    exact h x hn

instance : DecidablePred Value.HasReadBack := fun value =>
  decidable_of_iff _ (value.reread_eq_self_iff.symm.trans value.reread_eq_self_iff_hasReadBack)

/-- The members of an object are read back under their keys. -/
theorem Value.member?_reread (key : String) (value : Value) :
    value.reread.member? key = (value.member? key).map reread := by
  cases value with
  | null | bool _ | number _ | string _ | array _ => rfl
  | object members =>
      rw [reread, member?, member?]
      induction members with
      | nil => rfl
      | cons member rest ih =>
          rw [rereadMembers, lookup_entry, lookup_entry, ih]
          split <;> rfl

/-- A text is read back where a text was. -/
theorem Value.reread_eq_string_iff (value : Value) (text : String) :
    value.reread = .string text ↔ value = .string text := by
  cases value <;> simp [reread]

end Json

end FeedbackBoard
