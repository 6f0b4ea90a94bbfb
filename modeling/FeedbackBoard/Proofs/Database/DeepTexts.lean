import FeedbackBoard.Proofs.Database.LenientTrees
import FeedbackBoard.Proofs.Database.StoredTrees

/-!
# Texts that are nested too deep

The database follows a text only so many levels.  A value that is nested deeper is written
as a text like any other, but database expressions cannot look into it: neither as JSON nor
as lenient JSON.

Main results:

- `LenientJson.readTree_deep`: the lenient reader gives up inside a value that is too deep.
- `JsonTree.ofText?_compact_eq_if`: the texts of values that can be looked into.
-/

namespace FeedbackBoard

open Json (Value Node)

/-! ## Documents -/

namespace JsonTree

mutual

/-- The document of a value that is nested too deep has no tree. -/
theorem ofNode_deep {levels : Nat} :
    (value : Value) → levels < value.depth → ofNode levels (Node.ofValue value) = none
  | .null, h | .bool _, h | .number _, h | .string _, h => absurd h (Nat.not_lt_zero _)
  | .array items, h => by
      cases levels with
      | zero => rfl
      | succ levels =>
          rw [Node.ofValue, ofNode, ofItems_deep items (Nat.lt_of_succ_lt_succ h)]
  | .object members, h => by
      cases levels with
      | zero => rfl
      | succ levels =>
          rw [Node.ofValue, ofNode, ofMembers_deep members (Nat.lt_of_succ_lt_succ h)]

theorem ofItems_deep {levels : Nat} :
    (items : List Value) → levels < Value.depthItems items →
      ofItems levels (Node.ofItems items) = none
  | [], h => absurd h (Nat.not_lt_zero _)
  | item :: rest, h => by
      rw [Node.ofItems, ofItems]
      by_cases hitem : levels < item.depth
      · rw [ofNode_deep item hitem]
      · have hrest := (lt_max_iff.mp h).resolve_left hitem
        rw [ofItems_deep rest hrest]
        split <;> rfl

theorem ofMembers_deep {levels : Nat} :
    (members : List (String × Value)) → levels < Value.depthMembers members →
      ofMembers levels (Node.ofMembers members) = none
  | [], h => absurd h (Nat.not_lt_zero _)
  | (key, item) :: rest, h => by
      rw [Node.ofMembers, ofMembers]
      by_cases hitem : levels < item.depth
      · rw [ofNode_deep item hitem]
      · have hrest := (lt_max_iff.mp h).resolve_left hitem
        rw [ofMembers_deep rest hrest]
        split <;> rfl

end

end JsonTree

/-! ## Lenient texts -/

namespace LenientJson

variable {fuel limit : Nat}

/-- No space stands in front of a value on one line. -/
theorem dropSpace_compact (value : Value) (rest : List Char) :
    dropSpace (value.compactChars ++ rest) = value.compactChars ++ rest := by
  obtain ⟨c, tail, hhead, hspace, -⟩ := value.head_spelled .none 0
  rw [Value.spelled_compact] at hhead
  rw [hhead, List.cons_append, dropSpace_cons, hspace]
  rfl

/-- The strict reader reads a value on one line, whatever follows it. -/
theorem readNode_compact {value : Value} {rest : List Char}
    (hrest : Json.EndsNumeral (symbolsOfChars rest))
    (hfuel : 2 * (value.compactChars ++ rest).length < fuel) :
    Json.readNode fuel (symbolsOfChars (value.compactChars ++ rest)) =
      (Node.ofValue value, symbolsOfChars rest) := by
  rw [List.length_append] at hfuel
  have hread := Json.readNode_spelled Json.Spacing.isSpace_none 0 fuel (symbolsOfChars rest) hrest
    value (by rw [Value.spelled_compact]; omega)
  rwa [Value.spelled_compact, ← symbolsOfChars_append] at hread

theorem isSome_value?_ofValue {value : Value} (hordered : value.Ordered)
    (hdepth : value.depth ≤ limit) : ((Node.ofValue value).value? limit).isSome := by
  rw [Node.value?_ofValue limit value hordered, if_pos hdepth]
  rfl

/-- What the lenient reader sees of a value on one line, even if it gives up inside. -/
theorem readsValue_compact {value : Value} {rest : List Char} (hordered : value.Ordered)
    (hrest : Json.EndsNumeral (symbolsOfChars rest))
    (hfuel : 2 * (value.compactChars ++ rest).length < fuel) :
    ReadsValue fuel value.depth (value.compactChars ++ rest) (symbolsOfChars rest) :=
  (agrees fuel).1 hfuel (Nat.le_refl _) (readNode_compact hrest hfuel)
    (isSome_value?_ofValue hordered (Nat.le_refl _))

theorem beginsValue_compact {value : Value} {rest : List Char} (hordered : value.Ordered)
    (hrest : Json.EndsNumeral (symbolsOfChars rest)) :
    BeginsValue (dropSpace (value.compactChars ++ rest)) :=
  (readsValue_compact hordered hrest (Nat.lt_succ_self _)).1

theorem endsNumeral_of_marks {c : Char} (h : c ∈ marks) (rest : List Char) :
    Json.EndsNumeral (symbolsOfChars (c :: rest)) := by
  apply Json.endsNumeral_cons
  simp only [marks, List.mem_cons, List.not_mem_nil, or_false] at h
  rcases h with rfl | rfl | rfl | rfl <;> decide

/-- Without its next item an array is not read. -/
theorem readItems_of_none {trees : List JsonTree} {text : List Char}
    (hbegins : BeginsValue (dropSpace text)) (hitem : readTree fuel limit (dropSpace text) = none) :
    readItems (fuel + 1) limit trees text = none := by
  rw [readItems, skipSpace_eq hbegins.begins]
  split
  next heq => exact absurd heq (hbegins.open_items _)
  next => rw [hitem]

/-- Without its next member an object is not read. -/
theorem readMembers_of_none {entries : List (CodePoints × List Char × JsonTree)}
    {text tail value : List Char} {key : String} (hquote : dropSpace text = '"' :: tail)
    (hkey : Json.readString .empty (symbolsOfChars tail) =
      some (some key, symbolsOfChars (':' :: value)))
    (hitem : readTree fuel limit value = none) :
    readMembers (fuel + 1) limit entries text = none := by
  obtain ⟨after, hafter, -, hreads⟩ :=
    readsString_of_readString (Nat.lt_add_of_pos_right Nat.two_pos) rfl hkey
  obtain rfl : ':' :: value = after := symbolsOfChars_injective hafter
  obtain ⟨codes, spelling, -, hquoted⟩ := hreads [] [] (List.forall_mem_nil _)
  have hread : readKey (('"' :: tail).length + 1) ('"' :: tail) =
      some (codes, spelling, ':' :: value) := hquoted
  have hbegins := (beginsValue_of_dropSpace hquote (by decide)).begins
  have hcolon : skipSpace (':' :: value).length (':' :: value) = ':' :: value := rfl
  rw [readMembers, skipSpace_eq hbegins, hquote]
  split
  next heq => exact absurd (List.cons.inj heq).1 (by decide)
  next => simp only [hread, hcolon, hitem]

/-- An item stands in front of a mark, and in front of the comma before the others. -/
theorem exists_compactItems (item : Value) (others : List Value) (rest : List Char) :
    ∃ mark following, mark ∈ marks ∧
      Value.compactItems (item :: others) ++ ']' :: rest = item.compactChars ++ mark :: following ∧
      (others ≠ [] → mark = ',' ∧ following = Value.compactItems others ++ ']' :: rest) := by
  cases others with
  | nil => exact ⟨']', rest, by decide, rfl, fun h => absurd rfl h⟩
  | cons next others =>
      refine ⟨',', Value.compactItems (next :: others) ++ ']' :: rest, by decide, ?_,
        fun _ => ⟨rfl, rfl⟩⟩
      rw [Value.compactItems, List.append_assoc, List.cons_append]
      exact fun h => by cases h

/-- So does a member, behind its key and a colon. -/
theorem exists_compactMembers (key : String) (item : Value) (others : List (String × Value))
    (rest : List Char) :
    ∃ mark following, mark ∈ marks ∧
      Value.compactMembers ((key, item) :: others) ++ '\x7d' :: rest =
        Json.stringChars key ++ ':' :: (item.compactChars ++ mark :: following) ∧
      (others ≠ [] → mark = ',' ∧ following = Value.compactMembers others ++ '\x7d' :: rest) := by
  cases others with
  | nil =>
      refine ⟨'\x7d', rest, by decide, ?_, fun h => absurd rfl h⟩
      rw [Value.compactMembers, List.append_assoc, List.cons_append]
  | cons next others =>
      refine ⟨',', Value.compactMembers (next :: others) ++ '\x7d' :: rest, by decide, ?_,
        fun _ => ⟨rfl, rfl⟩⟩
      rw [Value.compactMembers]
      · simp
      · exact fun h => by cases h

mutual

/-- The lenient reader gives up inside a value that is nested too deep. -/
theorem readTree_deep {limit : Nat} (fuel : Nat) (rest : List Char) :
    (value : Value) → value.Ordered → limit < value.depth →
      2 * (value.compactChars ++ rest).length < fuel →
      readTree fuel limit (value.compactChars ++ rest) = none
  | .null, _, h, _ | .bool _, _, h, _ | .number _, _, h, _ | .string _, _, h, _ =>
      absurd h (Nat.not_lt_zero _)
  | .array items, hordered, h, hfuel => by
      obtain ⟨fuel, rfl⟩ := Nat.exists_eq_add_one_of_ne_zero (Nat.ne_zero_of_lt hfuel)
      have hopen : dropSpace ((Value.array items).compactChars ++ rest) =
          '[' :: (Value.compactItems items ++ ']' :: rest) := by
        rw [dropSpace_compact, Value.compactChars]
        simp
      cases limit with
      | zero =>
          rw [readTree, skipSpace_eq (beginsValue_of_dropSpace hopen (by decide)).begins, hopen]
          rfl
      | succ limit =>
          rw [readTree_array hopen]
          exact readItems_deep fuel rest items hordered (Nat.lt_of_succ_lt_succ h)
            (length_lt_of_open hfuel hopen) []
  | .object members, hordered, h, hfuel => by
      obtain ⟨fuel, rfl⟩ := Nat.exists_eq_add_one_of_ne_zero (Nat.ne_zero_of_lt hfuel)
      have hopen : dropSpace ((Value.object members).compactChars ++ rest) =
          '\x7b' :: (Value.compactMembers members ++ '\x7d' :: rest) := by
        rw [dropSpace_compact, Value.compactChars]
        simp
      cases limit with
      | zero =>
          rw [readTree, skipSpace_eq (beginsValue_of_dropSpace hopen (by decide)).begins, hopen]
          rfl
      | succ limit =>
          rw [readTree_object hopen]
          exact readMembers_deep fuel rest members hordered.2 (Nat.lt_of_succ_lt_succ h)
            (length_lt_of_open hfuel hopen) []

theorem readItems_deep {limit : Nat} (fuel : Nat) (rest : List Char) :
    (items : List Value) → Value.OrderedItems items → limit < Value.depthItems items →
      2 * (Value.compactItems items ++ ']' :: rest).length + 1 < fuel →
      ∀ trees, readItems fuel limit trees (Value.compactItems items ++ ']' :: rest) = none
  | [], _, h, _ => absurd h (Nat.not_lt_zero _)
  | item :: others, hordered, h, hfuel => by
      intro trees
      obtain ⟨fuel, rfl⟩ := Nat.exists_eq_add_one_of_ne_zero (Nat.ne_zero_of_lt hfuel)
      obtain ⟨mark, following, hmark, htext, hothers⟩ := exists_compactItems item others rest
      rw [htext] at hfuel ⊢
      have hends := endsNumeral_of_marks hmark following
      by_cases hitem : limit < item.depth
      · refine readItems_of_none (beginsValue_compact hordered.1 hends) ?_
        rw [dropSpace_compact]
        exact readTree_deep fuel _ item hordered.1 hitem (by omega)
      · have hdeep := (lt_max_iff.mp h).resolve_left hitem
        have hne : others ≠ [] := by
          rintro rfl
          exact absurd hdeep (Nat.not_lt_zero _)
        obtain ⟨rfl, rfl⟩ := hothers hne
        obtain ⟨after, next, tree, hnext, -, hlength, hskip, hreads⟩ :=
          exists_item (agrees fuel).1 hfuel (Nat.le_refl limit)
            (readNode_compact hends (by omega)) hmark rfl
            (isSome_value?_ofValue hordered.1 (Nat.le_of_not_lt hitem))
        obtain rfl := symbolsOfChars_injective hnext
        rw [hreads, afterItem, hskip]
        exact readItems_deep fuel rest others hordered.2 hdeep (by omega) _

theorem readMembers_deep {limit : Nat} (fuel : Nat) (rest : List Char) :
    (members : List (String × Value)) → Value.OrderedMembers members →
      limit < Value.depthMembers members →
      2 * (Value.compactMembers members ++ '\x7d' :: rest).length + 1 < fuel →
      ∀ entries, readMembers fuel limit entries (Value.compactMembers members ++ '\x7d' :: rest) =
        none
  | [], _, h, _ => absurd h (Nat.not_lt_zero _)
  | (key, item) :: others, hordered, h, hfuel => by
      intro entries
      obtain ⟨fuel, rfl⟩ := Nat.exists_eq_add_one_of_ne_zero (Nat.ne_zero_of_lt hfuel)
      obtain ⟨mark, following, hmark, htext, hothers⟩ := exists_compactMembers key item others rest
      obtain ⟨tail, hquoted, hkey⟩ := Json.readString_stringChars key
      rw [htext, hquoted, List.cons_append] at hfuel ⊢
      have hends := endsNumeral_of_marks hmark following
      have hquote : dropSpace ('"' :: (tail ++ ':' :: (item.compactChars ++ mark :: following))) =
          '"' :: (tail ++ ':' :: (item.compactChars ++ mark :: following)) := rfl
      have hread := hkey (symbolsOfChars (':' :: (item.compactChars ++ mark :: following)))
      rw [← symbolsOfChars_append] at hread
      have hlength : 2 * (item.compactChars ++ mark :: following).length < fuel := by
        simp only [List.length_append, List.length_cons] at hfuel ⊢
        omega
      by_cases hitem : limit < item.depth
      · refine readMembers_of_none hquote hread ?_
        exact readTree_deep fuel _ item hordered.1 hitem (by omega)
      · have hdeep := (lt_max_iff.mp h).resolve_left hitem
        have hne : others ≠ [] := by
          rintro rfl
          exact absurd hdeep (Nat.not_lt_zero _)
        obtain ⟨rfl, rfl⟩ := hothers hne
        obtain ⟨after, next, codes, spelling, tree, hnext, -, hshorter, -, hskip, hreads⟩ :=
          exists_member (agrees fuel).1 hfuel (Nat.le_refl limit) hquote hread rfl
            (readNode_compact hends (by omega)) hmark rfl
            ⟨rfl, isSome_value?_ofValue hordered.1 (Nat.le_of_not_lt hitem)⟩
        obtain rfl := symbolsOfChars_injective hnext
        rw [hreads, afterMember, hskip]
        have hless : 2 * (Value.compactMembers others ++ '\x7d' :: rest).length + 1 < fuel := by
          simp only [List.length_append, List.length_cons] at hlength ⊢
          omega
        exact readMembers_deep fuel rest others hordered.2 hdeep hless _

end

/-- The text of a value that is nested too deep is no lenient JSON. -/
theorem read?_deep {value : Value} (hordered : value.Ordered)
    (h : JsonTree.levelLimit < value.depth) : read? value.compact = none := by
  -- A lenient text ends at its first zero, but a value is written without one.
  have hzero : '\x00' ∉ value.compactChars := by
    obtain ⟨-, after, hafter, hpasses, -⟩ :
        ReadsValue _ value.depth (value.compactChars ++ []) (symbolsOfChars []) :=
      readsValue_compact hordered Json.endsNumeral_nil (Nat.lt_succ_self _)
    obtain rfl : [] = after := symbolsOfChars_injective hafter
    rw [← List.append_nil value.compactChars]
    exact hpasses.not_mem List.not_mem_nil
  have hread := readTree_deep (2 * value.compactChars.length + 2) [] value hordered h
    (by rw [List.append_nil]; omega)
  rw [List.append_nil] at hread
  simp only [read?, Value.compact, String.toList_ofList, takeWhile_of_zeroFree hzero, hread]

end LenientJson

/-! ## Stored texts -/

/-- The database can look into the text of a value unless the value is nested too deep. -/
theorem JsonTree.ofText?_compact_eq_if {value : Value} (hordered : value.Ordered) :
    ofText? value.compact = if value.depth ≤ levelLimit then some (ofValue value) else none := by
  split
  next h => exact ofText?_compact h
  next h =>
    have hdeep := Nat.lt_of_not_le h
    rw [ofText?, ofDocument, Json.Document.ofString_compact, ofNode_deep value hdeep]
    exact LenientJson.read?_deep hordered hdeep

end FeedbackBoard
