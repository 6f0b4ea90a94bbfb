import FeedbackBoard.Feedback.Wire
import FeedbackBoard.Proofs.Json.Records
import FeedbackBoard.Proofs.Json.Values

/-!
# Free contents of rows and forms

The free contents of rows and forms that come from the parser are values that
have been read: their objects are ordered, and since a row or a form is itself
an object around them, they are nested one level less than the reader follows.
The value `null` is not among them, since it stands for no content.

Main definitions:

- `Feedback.contents`, `Feedback.Form.contents`: the values inside a row or a form.
- `Json.IsParsed`: an element of a type that comes from the parser.
- `Json.Value.IsContent`: a value as it is read for optional content.

Main results:

- `Feedback.Form.isContent_of_decode`, `Feedback.isContent_of_decode`: contents have been read
  one level below what holds them.
-/

namespace FeedbackBoard

namespace Json

/-- A value as it is read for optional content at this level; `null` is read as no content. -/
structure Value.IsContent (levels : Nat) (value : Value) : Prop where
  ordered : value.Ordered
  depth_le : value.depth ≤ levels
  ne_null : value ≠ .null

theorem Value.IsContent.mono {levels deeper : Nat} {value : Value} (h : value.IsContent levels)
    (hle : levels ≤ deeper) : value.IsContent deeper :=
  ⟨h.ordered, h.depth_le.trans hle, h.ne_null⟩

/-- Optional content that is either missing or a value as it is read at this level. -/
def HasContent (levels : Nat) (content : Option Value) : Prop :=
  ∀ value ∈ content, value.IsContent levels

/-- An element that the parser has read from some document. -/
def IsParsed {α : Type} [Wire α] (a : α) : Prop :=
  ∃ levels ≤ levelLimit, ∃ node, decode levels node = .ok a

theorem isParsed_of_ofDocument {α : Type} [Wire α] {document : Document} {a : α}
    (h : ofDocument document = .ok a) : IsParsed a := by
  rw [ofDocument] at h
  split at h
  next found hfound =>
    split at h
    · cases h
      exact ⟨levelLimit, Nat.le_refl _, document.root, hfound⟩
    · cases h
  next => cases h

/-- Elements of a list come from the parser if the list does. -/
theorem isParsed_of_mem_decodeItems {α : Type} [Wire α] {levels : Nat} (hlevels : levels ≤ levelLimit)
    {items : List Node} {index : Nat} {elements : List α}
    (h : decodeItems levels index items = .ok elements) : ∀ a ∈ elements, IsParsed a := by
  induction items generalizing index elements with
  | nil =>
      cases h
      exact List.forall_mem_nil _
  | cons item rest ih =>
      rw [decodeItems] at h
      split at h
      next a ha =>
        cases hrest : (decodeItems levels (index + 1) rest : Except Fault (List α)) with
        | error fault =>
            rw [hrest] at h
            cases h
        | ok others =>
            rw [hrest] at h
            cases h
            exact List.forall_mem_cons.mpr ⟨⟨levels, hlevels, item, ha⟩, ih hrest⟩
      next => cases h

theorem IsParsed.of_mem {α : Type} [Wire α] {elements : List α} (h : IsParsed elements) {a : α}
    (ha : a ∈ elements) : IsParsed a := by
  obtain ⟨levels, hlevels, node, hdecode⟩ := h
  simp only [decode] at hdecode
  split at hdecode
  next items closed =>
    split at hdecode
    next => cases hdecode
    next below =>
      split at hdecode
      next found hfound =>
        split at hdecode
        · cases hdecode
          exact isParsed_of_mem_decodeItems (Nat.le_of_succ_le hlevels) hfound a ha
        · cases hdecode
      next => cases hdecode
  next => cases hdecode

/-- No other document is read as `null`. -/
theorem Node.value?_ne_null {levels : Nat} {node : Node} {value : Value} (hnode : node ≠ .null)
    (h : node.value? levels = some value) : value ≠ .null := by
  rintro rfl
  cases node with
  | null => exact hnode rfl
  | bool b => cases h
  | number numeral =>
      obtain ⟨n, _, hn⟩ := Option.map_eq_some_iff.mp h
      cases hn
  | string text =>
      obtain ⟨t, _, ht⟩ := Option.map_eq_some_iff.mp h
      cases ht
  | array items closed =>
      cases levels with
      | zero => cases h
      | succ levels =>
          rw [value?] at h
          split at h
          · split at h <;> cases h
          · cases h
  | object members closed =>
      cases levels with
      | zero => cases h
      | succ levels =>
          rw [value?] at h
          split at h
          · split at h <;> cases h
          · cases h
  | broken => cases h

/-- Optional content is missing or a value, whatever it is read from. -/
theorem hasContent_of_decode {levels : Nat} {node : Node} {content : Option Value}
    (h : decode levels node = .ok content) : HasContent levels content := by
  have hvalue : ∀ node' : Node, node' ≠ .null →
      (decode levels node' : Except Fault Value).map some = .ok content →
      HasContent levels content := by
    intro node' hnull hnode value hmem
    cases hread : node'.value? levels with
    | none => simp [decode, hread, Except.map] at hnode
    | some found =>
        obtain ⟨hordered, hdepth⟩ := Node.shape_of_value? levels node' hread
        have hne := Node.value?_ne_null hnull hread
        simp only [decode, hread, Except.map, Except.ok.injEq] at hnode
        subst hnode
        cases hmem
        exact ⟨hordered, hdepth, hne⟩
  cases node with
  | null =>
      cases h
      intro value hmem
      cases hmem
  | bool _ | number _ | string _ | array _ _ | object _ _ | broken =>
      exact hvalue _ (fun heq => by cases heq) h

end Json

namespace Feedback

open Json (Value IsParsed levelLimit)

/-- The values inside a row. -/
def contents (row : Feedback) : List Value :=
  row.data.toList ++ (row.info.toList ++ row.snapshot.toList)

/-- The values inside a form. -/
def Form.contents (form : Form) : List Value :=
  form.data.toList ++ (form.info.toList ++ form.snapshot.toList)

/-! ## Contents that have been read -/

/-- A field with free content holds nothing but what has been read at this level. -/
def Column.Holds (levels : Nat) : (f : Column) → f.Carrier → Prop
  | .data, content | .info, content | .snapshot, content => Json.HasContent levels content
  | .id, _ | .userId, _ | .version, _ | .kind, _ | .createdAt, _ | .updatedAt, _ => True

/-- Whatever is read for a field is read at its level. -/
theorem Column.holds_of_decode {levels : Nat} (f : Column) (node : Json.Node) (a : f.Carrier)
    (h : f.form.decode levels node = .ok a) : f.Holds levels a := by
  cases f with
  | data | info | snapshot => exact Json.hasContent_of_decode h
  | id | userId | version | kind | createdAt | updatedAt => trivial

/-- What stands for a field that is left out holds nothing. -/
theorem Column.holds_of_absence {levels : Nat} (f : Column) (a : f.Carrier)
    (h : f.lenientAbsence = .named a ∨ f.lenientAbsence = .always a) : f.Holds levels a := by
  cases f with
  | data | info | snapshot =>
      rcases h with h | h
      · cases h
      · cases h
        intro value hmem
        cases hmem
  | id | userId | version | kind | createdAt | updatedAt => trivial

/-- One step of building a record: its result, and what follows. -/
theorem bind_eq_ok {α β : Type} {step : Except Json.Fault α} {next : α → Except Json.Fault β}
    {b : β} (h : (step >>= next) = .ok b) : ∃ a, step = .ok a ∧ next a = .ok b := by
  cases step with
  | error fault => cases h
  | ok a => exact ⟨a, rfl, h⟩

theorem isFaithful_format : format.IsFaithful := by
  intro field row h f
  obtain ⟨id, hid, h⟩ := bind_eq_ok h
  obtain ⟨userId, huserId, h⟩ := bind_eq_ok h
  obtain ⟨version, hversion, h⟩ := bind_eq_ok h
  obtain ⟨kind, hkind, h⟩ := bind_eq_ok h
  obtain ⟨data, hdata, h⟩ := bind_eq_ok h
  obtain ⟨info, hinfo, h⟩ := bind_eq_ok h
  obtain ⟨snapshot, hsnapshot, h⟩ := bind_eq_ok h
  obtain ⟨createdAt, hcreatedAt, h⟩ := bind_eq_ok h
  obtain ⟨updatedAt, hupdatedAt, h⟩ := bind_eq_ok h
  cases h
  cases f <;> assumption

theorem Form.isFaithful_format : Form.format.IsFaithful := by
  intro field form h f
  obtain ⟨kind, hkind, h⟩ := bind_eq_ok h
  obtain ⟨data, hdata, h⟩ := bind_eq_ok h
  obtain ⟨info, hinfo, h⟩ := bind_eq_ok h
  obtain ⟨snapshot, hsnapshot, h⟩ := bind_eq_ok h
  cases h
  cases f <;> assumption

/-- All contents of a row have a property if those of each column have it. -/
theorem forall_contents {row : Feedback} {P : Value → Prop} :
    (∀ value ∈ row.contents, P value) ↔
      (∀ value ∈ row.data, P value) ∧ (∀ value ∈ row.info, P value) ∧
        ∀ value ∈ row.snapshot, P value := by
  simp only [contents, List.forall_mem_append, Option.mem_toList, Option.mem_def]

/-- All contents of a form have a property if those of each entry have it. -/
theorem Form.forall_contents {form : Form} {P : Value → Prop} :
    (∀ value ∈ form.contents, P value) ↔
      (∀ value ∈ form.data, P value) ∧ (∀ value ∈ form.info, P value) ∧
        ∀ value ∈ form.snapshot, P value := by
  simp only [Form.contents, List.forall_mem_append, Option.mem_toList, Option.mem_def]

/-- The contents of a row are read one level below the row. -/
theorem isContent_of_decode {levels : Nat} {node : Json.Node} {row : Feedback}
    (h : Json.decode levels node = .ok row) :
    ∃ below, levels = below + 1 ∧ ∀ value ∈ row.contents, value.IsContent below := by
  obtain ⟨below, rfl⟩ := Json.RecordFormat.exists_level_of_ofNode h
  have hfields := Json.RecordFormat.get_of_ofNode (P := fun f => Column.Holds below f)
    Column.holds_of_decode Column.holds_of_absence isFaithful_format h
  exact ⟨below, rfl, forall_contents.mpr ⟨hfields .data, hfields .info, hfields .snapshot⟩⟩

/-- The contents of a form are read one level below the form. -/
theorem Form.isContent_of_decode {levels : Nat} {node : Json.Node} {form : Form}
    (h : Json.decode levels node = .ok form) :
    ∃ below, levels = below + 1 ∧ ∀ value ∈ form.contents, value.IsContent below := by
  obtain ⟨below, rfl⟩ := Json.RecordFormat.exists_level_of_ofNode h
  have hfields := Json.RecordFormat.get_of_ofNode
    (P := fun f => Column.Holds below (Form.Entry.column f))
    (fun f => Column.holds_of_decode (Form.Entry.column f))
    (fun f => Column.holds_of_absence (Form.Entry.column f))
    Form.isFaithful_format h
  exact ⟨below, rfl, Form.forall_contents.mpr ⟨hfields .data, hfields .info, hfields .snapshot⟩⟩

/-- The contents of rows from the parser are nested less than the reader follows. -/
theorem isContent_of_isParsed {row : Feedback} (h : IsParsed row) :
    ∀ value ∈ row.contents, value.IsContent (levelLimit - 1) := by
  obtain ⟨levels, hlevels, node, hdecode⟩ := h
  obtain ⟨below, rfl, hcontents⟩ := isContent_of_decode hdecode
  exact fun value hmem => (hcontents value hmem).mono (by omega)

/-- The contents of forms from the parser are nested less than the reader follows. -/
theorem Form.isContent_of_isParsed {form : Form} (h : IsParsed form) :
    ∀ value ∈ form.contents, value.IsContent (levelLimit - 1) := by
  obtain ⟨levels, hlevels, node, hdecode⟩ := h
  obtain ⟨below, rfl, hcontents⟩ := Form.isContent_of_decode hdecode
  exact fun value hmem => (hcontents value hmem).mono (by omega)

end Feedback

end FeedbackBoard
