import FeedbackBoard.Database.Row
import FeedbackBoard.Proofs.Json.Values

/-!
# Stored contents as the database sees them

Stored contents are texts that are written on one line, so the database sees in
them the tree of the value that was written, member for member, and never needs
its lenient reading.  What it orders a stored row by is therefore known from the
row itself.

Main definitions:

- `JsonTree.ofValue`: the tree of a value.
- `Json.Value.cell`, `Json.Value.memberCell`: the cell of a value and of its member.
- `Feedback.pageCell`: what the database orders a row by.

Main results:

- `JsonTree.ofText?_compact`: the tree of a stored text.
- `StoredRow.pageCell?_ofFeedback`: what a stored row is ordered by.
-/

namespace FeedbackBoard

open Json (Value Node)

/-! ## Trees of values -/

namespace JsonTree

mutual

/-- The tree of a value. -/
def ofValue : Value → JsonTree
  | .null => .scalar (some .null) ['n', 'u', 'l', 'l']
  | .bool b => ofBool b
  | .number n => .scalar (some (.ofNumeral n.numeral)) n.numeral.chars
  | .string text => ofString (some text)
  | .array items => .array (ofValues items)
  | .object members => .object (ofEntries members)

/-- The trees of all items. -/
def ofValues : List Value → List JsonTree
  | [] => []
  | item :: rest => ofValue item :: ofValues rest

/-- The trees of all members. -/
def ofEntries : List (String × Value) → List (CodePoints × List Char × JsonTree)
  | [] => []
  | (key, item) :: rest =>
    (.ofString key, Json.stringChars key, ofValue item) :: ofEntries rest

end

mutual

/-- A document that was made from a value has the tree of the value. -/
theorem ofNode_ofValue (levels : Nat) :
    (value : Value) → value.depth ≤ levels →
      ofNode levels (Node.ofValue value) = some (ofValue value)
  | .null, _ | .bool _, _ | .number _, _ | .string _, _ => by
      cases levels <;> rfl
  | .array items, h => by
      cases levels with
      | zero => exact absurd h (Nat.not_succ_le_zero _)
      | succ levels =>
          rw [Node.ofValue, ofNode, ofItems_ofItems levels items (Nat.le_of_succ_le_succ h)]
          rfl
  | .object members, h => by
      cases levels with
      | zero => exact absurd h (Nat.not_succ_le_zero _)
      | succ levels =>
          rw [Node.ofValue, ofNode, ofMembers_ofMembers levels members (Nat.le_of_succ_le_succ h)]
          rfl

theorem ofItems_ofItems (levels : Nat) :
    (items : List Value) → Value.depthItems items ≤ levels →
      ofItems levels (Node.ofItems items) = some (ofValues items)
  | [], _ => rfl
  | item :: rest, h => by
      obtain ⟨hitem, hrest⟩ := Nat.max_le.mp h
      rw [Node.ofItems, ofItems, ofNode_ofValue levels item hitem,
        ofItems_ofItems levels rest hrest]
      rfl

theorem ofMembers_ofMembers (levels : Nat) :
    (members : List (String × Value)) → Value.depthMembers members ≤ levels →
      ofMembers levels (Node.ofMembers members) = some (ofEntries members)
  | [], _ => rfl
  | (key, item) :: rest, h => by
      obtain ⟨hitem, hrest⟩ := Nat.max_le.mp h
      rw [Node.ofMembers, ofMembers, ofNode_ofValue levels item hitem,
        ofMembers_ofMembers levels rest hrest]
      rfl

end

mutual

/-- The tree of a value is spelled as the value is written. -/
theorem chars_ofValue : (value : Value) → (ofValue value).chars = value.compactChars
  | .null | .bool true | .bool false | .string _ => rfl
  | .number n => n.chars_numeral
  | .array items => by rw [ofValue, chars, itemChars_ofValues items, Value.compactChars]
  | .object members => by rw [ofValue, chars, memberChars_ofEntries members, Value.compactChars]

theorem itemChars_ofValues :
    (items : List Value) → itemChars (ofValues items) = Value.compactItems items
  | [] => rfl
  | [item] => chars_ofValue item
  | item :: next :: rest => by
      have hrest := itemChars_ofValues (next :: rest)
      rw [ofValues] at hrest
      rw [ofValues, ofValues, itemChars, chars_ofValue item, hrest]
      · rfl
      · exact fun h => by cases h

theorem memberChars_ofEntries :
    (members : List (String × Value)) →
      memberChars (ofEntries members) = Value.compactMembers members
  | [] => rfl
  | [(key, item)] => by
      rw [ofEntries, ofEntries, memberChars, chars_ofValue item, Value.compactMembers]
  | (key, item) :: (next, value) :: rest => by
      have hrest := memberChars_ofEntries ((next, value) :: rest)
      rw [ofEntries] at hrest
      rw [ofEntries, ofEntries, memberChars, chars_ofValue item, hrest]
      · rfl
      · exact fun h => by cases h

end

/-- The database sees in a stored text the tree of the value that was written. -/
theorem ofText?_compact {value : Value} (h : value.depth ≤ levelLimit) :
    ofText? value.compact = some (ofValue value) := by
  have hdocument : ofDocument (Json.Document.ofString value.compact) = some (ofValue value) := by
    rw [Json.Document.ofString_compact, ofDocument, ofNode_ofValue levelLimit value h]
    rfl
  have hchars : (ofValue value).chars = value.compact.toList := by
    rw [chars_ofValue, Value.compact, String.toList_ofList]
  rw [ofText?, hdocument]
  exact if_pos hchars

end JsonTree

/-! ## Cells of values -/

/-- The cell of a value; containers become their texts. -/
def Json.Value.cell : Value → Cell
  | .null => .null
  | .bool b => .integer (if b then 1 else 0)
  | .number n => .ofNumeral n.numeral
  | .string text => .text (.ofString text)
  | .array items => .text (.ofChars (Value.array items).compactChars)
  | .object members => .text (.ofChars (Value.object members).compactChars)

/-- The cell of a member of an object, which is the first one whose key, up to a zero, is this. -/
def Json.Value.memberCell (key : String) : Value → Cell
  | .object members =>
    match members.find? fun member =>
        (CodePoints.ofString member.1).beforeZero == CodePoints.ofString key with
    | some member => member.2.cell
    | none => .null
  | _ => .null

namespace JsonTree

theorem cell?_ofValue (value : Value) : (ofValue value).cell? = some value.cell := by
  cases value with
  | null | bool _ | number _ | string _ => rfl
  | array _ | object _ => rw [Value.cell, ← chars_ofValue]; rfl

/-- The member of a tree has the cell of the member of the value. -/
theorem member?_ofValue (key : String) (value : Value) :
    (ofValue value).member? key = some (value.memberCell key) := by
  cases value with
  | null | bool _ | number _ | string _ | array _ => rfl
  | object members =>
      rw [ofValue, member?, Value.memberCell]
      induction members with
      | nil => rfl
      | cons member rest ih =>
          obtain ⟨other, item⟩ := member
          rw [ofEntries, List.find?_cons, List.find?_cons]
          cases (CodePoints.ofString other).beforeZero == CodePoints.ofString key with
          | true => exact cell?_ofValue item
          | false => exact ih

end JsonTree

/-! ## Rows -/

/-- What the database orders a row by. -/
def Feedback.pageCell (field : SortField) (row : Feedback) : Cell :=
  match field with
  | .model => (row.data.map (Value.memberCell "model_id")).getD .null
  | .rating => (row.data.map (Value.memberCell "rating")).getD .null
  | .createdAt => .integer row.createdAt.toInt
  | .updatedAt => .integer row.updatedAt.toInt

namespace StoredRow

variable {row : Feedback} (h : ∀ value ∈ row.data, value.depth ≤ JsonTree.levelLimit)
include h

theorem dataMember?_ofFeedback (key : String) :
    (ofFeedback row).dataMember? key = some ((row.data.map (Value.memberCell key)).getD .null) := by
  rw [dataMember?, ofFeedback]
  cases hdata : row.data with
  | none => rfl
  | some value =>
      have hdepth : value.depth ≤ JsonTree.levelLimit := h value hdata
      simp only [storedText, Option.map_some, Option.getD_some]
      rw [JsonTree.ofText?_compact hdepth]
      exact JsonTree.member?_ofValue key value

/-- The database orders a stored row by the cell of the row. -/
theorem pageCell?_ofFeedback (field : SortField) :
    (ofFeedback row).pageCell? field = some (row.pageCell field) := by
  cases field with
  | model => exact dataMember?_ofFeedback h "model_id"
  | rating => exact dataMember?_ofFeedback h "rating"
  | createdAt | updatedAt => rfl

end StoredRow

end FeedbackBoard
