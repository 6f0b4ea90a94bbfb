import FeedbackBoard.Command.Run
import FeedbackBoard.Proofs.Database.StoredRows
import FeedbackBoard.Proofs.Feedback.WireForms

/-!
# Exports that are read back

An export is an array of rows, and a row is an object around its contents.  The
reader therefore has two levels less for the contents than for a value by
itself.  An export is read back exactly if no content needs them.

Main definitions:

- `exportLevels`: how many levels of a content are read back from an export.
- `Feedback.IsShallow`: a row whose contents need no more.

Main results:

- `Feedback.decode_encode`: a row is read back from where it is written.
- `readExport_exportText`: an export is read back up to its numbers, or not at all.
-/

namespace FeedbackBoard

open Json (Value Node levelLimit)

/-- How many levels of nested content are read back from an export. -/
def exportLevels : Nat := levelLimit - 2

/-! ## Contents -/

/-- Content is read back up to its numbers. -/
theorem decode_encode_content {levels : Nat} {content : Option Value}
    (h : Json.HasContent levels content) :
    Json.decode levels (Node.ofValue (Json.encode content)) =
      (.ok (content.map Value.reread) : Except Json.Fault (Option Value)) := by
  cases content with
  | none => rfl
  | some value =>
      obtain ⟨hordered, hdepth, hnull⟩ := h value rfl
      have hvalue := Node.value?_ofValue levels value hordered
      rw [if_pos hdepth] at hvalue
      have hread : Json.decode levels (Node.ofValue value) =
          (.ok value.reread : Except Json.Fault Value) := by
        simp only [Json.decode, hvalue]
      rw [Json.decode_encode_some (a := value) levels hnull]
      exact congrArg (Except.map some) hread

/-- Content that can be read back is nested no deeper than the reader follows. -/
theorem depth_le_of_decode {levels : Nat} {value : Value} {read : Option Value}
    (hordered : value.Ordered) (hnull : value ≠ .null)
    (h : Json.decode levels (Node.ofValue (Json.encode (some value))) = .ok read) :
    value.depth ≤ levels := by
  by_contra hdepth
  have hvalue := Node.value?_ofValue levels value hordered
  rw [if_neg hdepth] at hvalue
  have hread : Json.decode levels (Node.ofValue value) =
      (.error .malformed : Except Json.Fault Value) := by
    simp only [Json.decode, hvalue]
  rw [Json.decode_encode_some (a := value) levels hnull] at h
  cases (congrArg (Except.map some) hread).symm.trans h

/-! ## Rows -/

namespace Feedback

/-- Every content of the row is read back from an export. -/
def IsShallow (row : Feedback) : Prop :=
  ∀ value ∈ row.contents, value.depth ≤ exportLevels

instance (row : Feedback) : Decidable row.IsShallow :=
  inferInstanceAs (Decidable (∀ value ∈ row.contents, value.depth ≤ exportLevels))

/-- What a written field is read as. -/
def Column.reread : (f : Column) → f.Carrier → f.Carrier
  | .data, content | .info, content | .snapshot, content => Option.map Value.reread content
  | .id, a | .userId, a | .version, a | .kind, a | .createdAt, a | .updatedAt, a => a

/-- A field is read back from where it is written. -/
theorem Column.decode_encode {levels : Nat} (f : Column) {a : f.Carrier} (h : f.Holds levels a) :
    f.form.decode levels (Node.ofValue (f.form.encode a)) = .ok (f.reread a) := by
  cases f with
  | id | userId | kind => rfl
  | version | createdAt | updatedAt => exact Json.decode_encode_int64 levels a
  | data | info | snapshot => exact decode_encode_content h

/-- The fields of a row hold what its contents are. -/
theorem holds_of_isContent {levels : Nat} {row : Feedback}
    (h : ∀ value ∈ row.contents, value.IsContent levels) (f : Column) :
    f.Holds levels (format.get row f) := by
  obtain ⟨hdata, hinfo, hsnapshot⟩ := forall_contents.mp h
  cases f with
  | data => exact hdata
  | info => exact hinfo
  | snapshot => exact hsnapshot
  | id | userId | version | kind | createdAt | updatedAt => trivial

/-- A row is read back from where it is written, up to its numbers. -/
theorem decode_encode {levels : Nat} {row : Feedback}
    (h : ∀ value ∈ row.contents, value.IsContent levels) :
    Json.decode (levels + 1) (Node.ofValue (Json.encode row)) =
      (.ok row.reread : Except Json.Fault Feedback) := by
  have hread := Json.RecordFormat.ofNode_ofValue isListed_format fun f =>
    Column.decode_encode f (holds_of_isContent h f)
  exact hread.trans rfl

/-- A row that can be read back has no content that is nested deeper than the reader follows. -/
theorem depth_le_of_decode {levels : Nat} {row read : Feedback}
    (hcontents : ∀ value ∈ row.contents, value.Ordered ∧ value ≠ .null)
    (h : Json.decode (levels + 1) (Node.ofValue (Json.encode row)) = .ok read) :
    ∀ value ∈ row.contents, value.depth ≤ levels := by
  have hfield := Json.RecordFormat.exists_decode_of_ofNode isListed_format h
  have hcontent : ∀ content : Option Value,
      (∀ value ∈ content, value.Ordered ∧ value ≠ .null) →
      (∃ found : Option Value,
        Json.decode levels (Node.ofValue (Json.encode content)) = .ok found) →
      ∀ value ∈ content, value.depth ≤ levels := by
    rintro content hread ⟨found, hfound⟩ value rfl
    obtain ⟨hordered, hnull⟩ := hread value rfl
    exact FeedbackBoard.depth_le_of_decode hordered hnull hfound
  obtain ⟨hdata, hinfo, hsnapshot⟩ := forall_contents.mp hcontents
  rw [forall_contents]
  exact ⟨hcontent row.data hdata (hfield .data), hcontent row.info hinfo (hfield .info),
    hcontent row.snapshot hsnapshot (hfield .snapshot)⟩

end Feedback

/-! ## Exports -/

/-- Rows are read back one after the other. -/
theorem decodeItems_ofItems {levels : Nat} {rows : List Feedback}
    (h : ∀ row ∈ rows, ∀ value ∈ row.contents, value.IsContent levels) (index : Nat) :
    Json.decodeItems (levels + 1) index (Node.ofItems (rows.map Json.encode)) =
      (.ok (rows.map Feedback.reread) : Except Json.Fault (List Feedback)) :=
  Json.decodeItems_ofItems (fun row hrow => Feedback.decode_encode (h row hrow)) index

/-- Items that can be read can be read by themselves. -/
theorem exists_decode_of_decodeItems {levels : Nat} {rows read : List Feedback} {index : Nat}
    (h : Json.decodeItems levels index (Node.ofItems (rows.map Json.encode)) = .ok read) :
    ∀ row ∈ rows, ∃ found : Feedback,
      Json.decode levels (Node.ofValue (Json.encode row)) = .ok found := by
  induction rows generalizing index read with
  | nil =>
      intro row hmem
      cases hmem
  | cons first rest ih =>
      rw [List.map_cons, Node.ofItems, Json.decodeItems] at h
      split at h
      next found hfound =>
        intro row hmem
        rcases List.mem_cons.mp hmem with rfl | hmem
        · exact ⟨found, hfound⟩
        · cases hrest : (Json.decodeItems levels (index + 1)
              (Node.ofItems (rest.map Json.encode)) : Except Json.Fault (List Feedback)) with
          | ok others => exact ih hrest row hmem
          | error fault =>
              rw [hrest] at h
              cases h
      next => cases h

/-- The items of an array are read one level below it. -/
theorem decode_array (levels : Nat) (items : List Node) :
    Json.decode (levels + 1) (.array items true) =
      (Json.decodeItems levels 0 items : Except Json.Fault (List Feedback)) := by
  cases hread : (Json.decodeItems levels 0 items : Except Json.Fault (List Feedback)) with
  | ok rows => simp only [Json.decode, hread, if_true]
  | error fault => simp only [Json.decode, hread]

/-- A text of rows is read as its rows are, one level below their array. -/
theorem readExport_of_document {text : String} {rows : List Feedback}
    (htext : Json.Document.ofString text = ⟨Node.ofValue (Json.encode rows), true⟩) :
    readExport text =
      (Json.decodeItems (exportLevels + 1) 0 (Node.ofItems (rows.map Json.encode)) :
        Except Json.Fault (List Feedback)).toOption := by
  have hdecode : (Json.decode levelLimit (Node.ofValue (Json.encode rows)) :
      Except Json.Fault (List Feedback)) =
      Json.decodeItems (exportLevels + 1) 0 (Node.ofItems (rows.map Json.encode)) :=
    decode_array (exportLevels + 1) _
  rw [readExport, Json.ofText, htext, Json.ofDocument, hdecode]
  cases (Json.decodeItems (exportLevels + 1) 0 (Node.ofItems (rows.map Json.encode)) :
    Except Json.Fault (List Feedback)) <;> rfl

/-- A text of shallow rows is read back up to their numbers. -/
theorem readExport_of_isContent {text : String} {rows : List Feedback}
    (htext : Json.Document.ofString text = ⟨Node.ofValue (Json.encode rows), true⟩)
    (h : ∀ row ∈ rows, ∀ value ∈ row.contents, value.IsContent exportLevels) :
    readExport text = some (rows.map Feedback.reread) := by
  rw [readExport_of_document htext, decodeItems_ofItems h 0]
  rfl

/-- An export is read back up to its numbers if all rows are shallow, and else not at all. -/
theorem readExport_exportText {levels : Nat} {rows : List Feedback}
    (h : ∀ row ∈ rows, ∀ value ∈ row.contents, value.IsContent levels) :
    readExport (exportText rows) =
      if ∀ row ∈ rows, row.IsShallow then some (rows.map Feedback.reread) else none := by
  have htext := Json.Document.ofString_pretty (Json.encode rows)
  split
  next hshallow =>
    have hcontents : ∀ row ∈ rows, ∀ value ∈ row.contents, value.IsContent exportLevels := by
      intro row hrow value hvalue
      have hread := h row hrow value hvalue
      exact ⟨hread.ordered, hshallow row hrow value hvalue, hread.ne_null⟩
    exact readExport_of_isContent htext hcontents
  next hdeep =>
    rw [exportText, Json.toIndentedText, readExport_of_document htext]
    cases hread : (Json.decodeItems (exportLevels + 1) 0 (Node.ofItems (rows.map Json.encode)) :
        Except Json.Fault (List Feedback)) with
    | error fault => rfl
    | ok read =>
        refine absurd (fun row hrow => ?_) hdeep
        obtain ⟨found, hfound⟩ := exists_decode_of_decodeItems hread row hrow
        refine Feedback.depth_le_of_decode (fun value hvalue => ?_) hfound
        exact ⟨(h row hrow value hvalue).ordered, (h row hrow value hvalue).ne_null⟩

end FeedbackBoard
