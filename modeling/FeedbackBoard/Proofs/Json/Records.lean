import FeedbackBoard.Json.Record
import FeedbackBoard.Proofs.Json.Documents
import Mathlib.Data.List.Nodup

/-!
# Fields of records that have been read

Whatever way a record is spelled, each of its fields has either been read at the
level below the record, or it is what stands for a field that is left out.  A
property of all elements that fields are read as, and of what stands for them,
is therefore a property of all fields of all records that are read.  A record
that has been written is read back exactly if each of its fields is.

Main definitions:

- `RecordFormat.IsFaithful`: a record is built from nothing but its fields.
- `RecordFormat.IsListed`: every field is listed once, under a key of its own.

Main results:

- `RecordFormat.get_of_ofNode`: a property of everything that is read for a field.
- `RecordFormat.ofNode_ofValue`: reading a record that has been written.
- `RecordFormat.exists_decode_of_ofNode`: if it can be read, so can each of its fields.
-/

namespace FeedbackBoard.Json.RecordFormat

variable {R : Type} (format : RecordFormat R)

/-- A record that is built has the fields that it was built from. -/
def IsFaithful : Prop :=
  ∀ (field : (f : format.Field) → Except Fault (format.Carrier f)) (record : R),
    format.build field = .ok record → ∀ f, field f = .ok (format.get record f)

variable {format} {P : (f : format.Field) → format.Carrier f → Prop}

/-- All fields that have been read have the property. -/
def AllFields (P : (f : format.Field) → format.Carrier f → Prop) (fields : format.Fields) : Prop :=
  ∀ f a, fields f = some a → P f a

theorem allFields_noFields : AllFields P format.noFields := by
  intro f a h
  cases h

/-- One more field with the property. -/
theorem AllFields.setField {fields : format.Fields} (h : AllFields P fields) {f : format.Field}
    {a : format.Carrier f} (ha : P f a) : AllFields P (format.setField fields f a) := by
  intro g b hg
  simp only [RecordFormat.setField] at hg
  split at hg
  next heq =>
    subst heq
    cases hg
    exact ha
  next => exact h g b hg

section Reading

variable {levels : Nat}
  (hread : ∀ f item a, (format.form f).decode levels item = .ok a → P f a)
include hread

/-- The members of an object are read into fields with the property. -/
theorem allFields_of_readMembers {members : List (Option String × Node)}
    {fields after : format.Fields} (hfields : AllFields P fields)
    (h : format.readMembers levels fields members = .ok after) : AllFields P after := by
  induction members generalizing fields with
  | nil =>
      cases h
      exact hfields
  | cons member rest ih =>
      obtain ⟨key, item⟩ := member
      cases key with
      | none => cases h
      | some key =>
          rw [readMembers] at h
          split at h
          next =>
            split at h
            · exact ih hfields h
            · cases h
          next f _ =>
            split at h
            · cases h
            · split at h
              next a ha => exact ih (hfields.setField (hread f item a ha)) h
              next => cases h

variable (habsence : ∀ f a, format.absence f = .named a ∨ format.absence f = .always a → P f a)
include habsence

/-- The items of an array are read into fields with the property. -/
theorem allFields_of_readItems {closed : Bool} {index : Nat} {order : List format.Field}
    {items : List Node} {fields after : format.Fields} (hfields : AllFields P fields)
    (h : format.readItems levels closed index order items fields = .ok after) :
    AllFields P after := by
  induction order generalizing index items fields with
  | nil =>
      cases items with
      | nil =>
          rw [readItems] at h
          split at h
          · cases h
            exact hfields
          · cases h
      | cons item items => cases h
  | cons f rest ih =>
      cases items with
      | nil =>
          rw [readItems] at h
          split at h
          · split at h
            next a ha => exact ih (hfields.setField (habsence f a (Or.inr ha))) h
            next => cases h
          · cases h
      | cons item items =>
          rw [readItems] at h
          split at h
          next a ha => exact ih (hfields.setField (hread f item a ha)) h
          next => cases h

omit hread in
/-- A field that has been read, or what stands for it, has the property. -/
theorem of_memberOr {fields : format.Fields} (hfields : AllFields P fields) {f : format.Field}
    {a : format.Carrier f} (h : format.memberOr fields f = .ok a) : P f a := by
  rw [memberOr] at h
  cases hread : fields f with
  | some b =>
      rw [hread] at h
      cases h
      exact hfields f a hread
  | none =>
      rw [hread] at h
      cases hstands : format.absence f with
      | required =>
          rw [hstands] at h
          cases h
      | named b =>
          rw [hstands] at h
          cases h
          exact habsence f a (Or.inl hstands)
      | always b =>
          rw [hstands] at h
          cases h
          exact habsence f a (Or.inr hstands)

/-- The fields of a record that is read have the property, one level below the record. -/
theorem get_of_ofNode (hfaithful : format.IsFaithful) {node : Node} {record : R}
    (h : format.ofNode (levels + 1) node = .ok record) (f : format.Field) :
    P f (format.get record f) := by
  cases node with
  | object members closed =>
      rw [ofNode, ofMembers] at h
      split at h
      next fields hfields =>
        split at h
        · have hall := allFields_of_readMembers hread allFields_noFields hfields
          exact of_memberOr habsence hall (hfaithful _ _ h f)
        · cases h
      next => cases h
  | array items closed =>
      rw [ofNode, ofItems] at h
      split at h
      next fields hfields =>
        have hall := allFields_of_readItems hread habsence allFields_noFields hfields
        exact of_memberOr habsence hall (hfaithful _ _ h f)
      next => cases h
  | null | bool _ | number _ | string _ | broken => cases h

end Reading

/-- A record is read from a level at least. -/
theorem exists_level_of_ofNode {levels : Nat} {node : Node} {record : R}
    (h : format.ofNode levels node = .ok record) : ∃ below, levels = below + 1 := by
  cases levels with
  | succ below => exact ⟨below, rfl⟩
  | zero =>
      unfold ofNode at h
      split at h <;> cases h

/-! ## Written records -/

variable (format) in
/-- Every field is listed once, under a key of its own. -/
structure IsListed : Prop where
  mem : ∀ f, f ∈ format.order
  nodup : format.order.Nodup
  fieldOf : ∀ f, format.fieldOf? (format.key f) = some f

/-- Fields that are all listed, under different keys. -/
theorem IsListed.of_keys
    (hlisted : ∀ f, (format.order.any fun g => @decide (g = f) (format.decEq g f)) = true)
    (hkeys : (format.order.map format.key).Nodup) : format.IsListed := by
  have hmem : ∀ f, f ∈ format.order := by
    intro f
    obtain ⟨g, hg, heq⟩ := List.any_eq_true.mp (hlisted f)
    rwa [← @of_decide_eq_true _ (format.decEq g f) heq]
  refine ⟨hmem, hkeys.of_map, fun f => ?_⟩
  have hsome : (format.fieldOf? (format.key f)).isSome :=
    List.find?_isSome.mpr ⟨f, hmem f, beq_self_eq_true _⟩
  obtain ⟨g, hg⟩ := Option.isSome_iff_exists.mp hsome
  have hfound : (format.key g == format.key f) = true :=
    List.find?_some (p := fun g => format.key g == format.key f) hg
  have hkey : format.key g = format.key f := eq_of_beq hfound
  rw [hg, List.inj_on_of_nodup_map hkeys (hmem g) (hmem f) hkey]

/-- The document of a field that has been written. -/
def fieldNode (record : R) (f : format.Field) : Node :=
  Node.ofValue ((format.form f).encode (format.get record f))

variable {levels : Nat} {record : R}

/-- The members of fields are read one after the other. -/
theorem readMembers_ofMembers (hlisted : format.IsListed)
    {value : (f : format.Field) → format.Carrier f}
    (hdecode : ∀ f, (format.form f).decode levels (fieldNode record f) = .ok (value f))
    {order : List format.Field} (hnodup : order.Nodup) (fields : format.Fields)
    (hfresh : ∀ f ∈ order, fields f = none) :
    ∃ after, format.readMembers levels fields (Node.ofMembers (order.map fun f =>
        (format.key f, (format.form f).encode (format.get record f)))) = .ok after ∧
      (∀ f ∈ order, after f = some (value f)) ∧ ∀ f, f ∉ order → after f = fields f := by
  induction order generalizing fields with
  | nil => exact ⟨fields, rfl, fun _ hf => absurd hf List.not_mem_nil, fun _ _ => rfl⟩
  | cons f rest ih =>
      obtain ⟨hhead, htail⟩ := List.nodup_cons.mp hnodup
      have hset : ∀ g, g ≠ f → format.setField fields f (value f) g = fields g := by
        intro g hg
        rw [setField, dif_neg hg]
      have hrest : ∀ g ∈ rest, format.setField fields f (value f) g = none := by
        intro g hg
        rw [hset g fun heq => hhead (heq ▸ hg)]
        exact hfresh g (List.mem_cons_of_mem f hg)
      obtain ⟨after, hread, hmem, hother⟩ := ih htail _ hrest
      refine ⟨after, ?_, ?_, ?_⟩
      · have hnone : ¬ (fields f).isSome := by
          rw [hfresh f List.mem_cons_self]
          exact Bool.false_ne_true
        have hfirst := hdecode f
        rw [fieldNode] at hfirst
        rw [List.map_cons, Node.ofMembers, readMembers, hlisted.fieldOf f]
        simp only [if_neg hnone, hfirst]
        exact hread
      · intro g hg
        by_cases hgrest : g ∈ rest
        · exact hmem g hgrest
        · rcases List.mem_cons.mp hg with rfl | hg
          · rw [hother g hgrest, setField, dif_pos rfl]
          · exact absurd hg hgrest
      · intro g hg
        rw [List.mem_cons, not_or] at hg
        rw [hother g hg.2, hset g hg.1]

/-- A record whose written fields can be read is built from what is read for them. -/
theorem ofNode_ofValue (hlisted : format.IsListed)
    {value : (f : format.Field) → format.Carrier f}
    (hdecode : ∀ f, (format.form f).decode levels (fieldNode record f) = .ok (value f)) :
    format.ofNode (levels + 1) (Node.ofValue (.object (format.toMembers record))) =
      format.build fun f => .ok (value f) := by
  obtain ⟨after, hread, hmem, _⟩ := readMembers_ofMembers hlisted hdecode hlisted.nodup
    format.noFields fun _ _ => rfl
  have hmember : format.memberOr after = fun f => .ok (value f) := by
    funext f
    rw [memberOr, hmem f (hlisted.mem f)]
  rw [Node.ofValue, ofNode, ofMembers, toMembers, hread, ← hmember]
  rfl

/-- Members that can be read are read for their fields. -/
theorem exists_decode_of_readMembers {members : List (Option String × Node)}
    {fields after : format.Fields} (h : format.readMembers levels fields members = .ok after)
    {key : String} {item : Node} (hmem : (some key, item) ∈ members) {f : format.Field}
    (hf : format.fieldOf? key = some f) : ∃ a, (format.form f).decode levels item = .ok a := by
  induction members generalizing fields with
  | nil => cases hmem
  | cons member rest ih =>
      obtain ⟨other, kept⟩ := member
      cases other with
      | none => cases h
      | some other =>
          rw [readMembers] at h
          rcases List.mem_cons.mp hmem with heq | hmem
          · cases heq
            rw [hf] at h
            simp only at h
            split at h
            · cases h
            · split at h
              next a ha => exact ⟨a, ha⟩
              next => cases h
          · split at h
            next =>
              split at h
              · exact ih h hmem
              · cases h
            next =>
              split at h
              · cases h
              · split at h
                next => exact ih h hmem
                next => cases h

theorem mem_ofMembers {members : List (String × Value)} {key : String} {value : Value}
    (h : (key, value) ∈ members) : (some key, Node.ofValue value) ∈ Node.ofMembers members := by
  induction members with
  | nil => cases h
  | cons member rest ih =>
      rcases List.mem_cons.mp h with rfl | h
      · exact List.mem_cons_self
      · exact List.mem_cons_of_mem _ (ih h)

/-- If a record that has been written can be read, so can each of its fields. -/
theorem exists_decode_of_ofNode (hlisted : format.IsListed) {read : R}
    (h : format.ofNode (levels + 1) (Node.ofValue (.object (format.toMembers record))) = .ok read)
    (f : format.Field) : ∃ a, (format.form f).decode levels (fieldNode record f) = .ok a := by
  rw [Node.ofValue, ofNode, ofMembers] at h
  split at h
  next after hread =>
    have hmem : (format.key f, (format.form f).encode (format.get record f)) ∈
        format.toMembers record := List.mem_map_of_mem (hlisted.mem f)
    exact exists_decode_of_readMembers hread (mem_ofMembers hmem) (hlisted.fieldOf f)
  next => cases h

end FeedbackBoard.Json.RecordFormat
