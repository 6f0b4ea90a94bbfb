import FeedbackBoard.Database.Row
import FeedbackBoard.Proofs.Feedback.Contents

/-!
# Rows that are stored and read back

A stored row keeps free contents as texts.  Contents that have been read by the
parser come back from there up to their numbers, and content that is not there
stays away: it is stored as nothing, and no text stands for it.

Main definitions:

- `Feedback.reread`: a row with every number as it is read back.
- `Feedback.IsStable`, `Feedback.Form.IsStable`: numbers are read back as they are.

Main results:

- `StoredRow.toFeedback_ofFeedback`: a row that is stored and read back.
-/

namespace FeedbackBoard

open Json (Value levelLimit)

/-- What is read back is content of the same shape. -/
theorem Json.Value.IsContent.reread {levels : Nat} {value : Value} (h : value.IsContent levels) :
    value.reread.IsContent levels where
  ordered := Value.ordered_reread value h.ordered
  depth_le := by
    rw [Value.depth_reread]
    exact h.depth_le
  ne_null := by
    cases value with
    | null => exact absurd rfl h.ne_null
    | bool _ | number _ | string _ | array _ | object _ =>
        intro heq
        cases heq

namespace Feedback

/-- The row with every number as it is read back. -/
def reread (row : Feedback) : Feedback :=
  { row with
    data := row.data.map Value.reread
    info := row.info.map Value.reread
    snapshot := row.snapshot.map Value.reread }

theorem contents_reread (row : Feedback) :
    row.reread.contents = row.contents.map Value.reread := by
  simp only [contents, reread, Option.toList_map, List.map_append]

/-- Reading contents back keeps their shape. -/
theorem isContent_reread {levels : Nat} {row : Feedback}
    (h : ∀ value ∈ row.contents, value.IsContent levels) :
    ∀ value ∈ row.reread.contents, value.IsContent levels := by
  intro value hvalue
  rw [contents_reread] at hvalue
  obtain ⟨before, hbefore, rfl⟩ := List.mem_map.mp hvalue
  exact (h before hbefore).reread

/-- Contents whose numbers are read back as they are. -/
def IsStable (row : Feedback) : Prop :=
  ∀ value ∈ row.contents, value.reread = value

/-- Contents whose numbers are read back as they are. -/
def Form.IsStable (form : Form) : Prop :=
  ∀ value ∈ form.contents, value.reread = value

theorem map_eq_self {content : Option Value} (h : ∀ value ∈ content, value.reread = value) :
    content.map Value.reread = content := by
  cases content with
  | none => rfl
  | some value => rw [Option.map_some, h value rfl]

/-- Stable rows are read back as they are. -/
theorem reread_eq_self {row : Feedback} (h : row.IsStable) : row.reread = row := by
  obtain ⟨hdata, hinfo, hsnapshot⟩ := forall_contents.mp h
  rw [reread, map_eq_self hdata, map_eq_self hinfo, map_eq_self hsnapshot]

end Feedback

/-- Content that is stored as a text is read back up to its numbers. -/
theorem storedContent_storedText {content : Option Value}
    (h : Json.HasContent levelLimit content) :
    storedContent (storedText content) = content.map Value.reread := by
  cases content with
  | none => rfl
  | some value =>
      have hread := h value rfl
      rw [storedText, storedContent, Option.map_some, Option.bind_some,
        Json.readValue?_compact hread.ordered, if_pos hread.depth_le, Option.map_some]

namespace StoredRow

variable {row : Feedback}

/-- A row that is stored is read back up to its numbers. -/
theorem toFeedback_ofFeedback (h : ∀ value ∈ row.contents, value.IsContent levelLimit) :
    (ofFeedback row).toFeedback = row.reread := by
  obtain ⟨hdata, hinfo, hsnapshot⟩ := Feedback.forall_contents.mp h
  rw [toFeedback, ofFeedback, Feedback.reread, storedContent_storedText hdata,
    storedContent_storedText hinfo, storedContent_storedText hsnapshot]

/-- The payload of a stored row is that of the row that is read back. -/
theorem payload_eq (stored : StoredRow) : stored.payload = stored.toFeedback.payload :=
  rfl

end StoredRow

end FeedbackBoard
