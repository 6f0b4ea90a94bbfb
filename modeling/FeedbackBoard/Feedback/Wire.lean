import FeedbackBoard.Feedback.Basic
import FeedbackBoard.Json.Record

/-!
# JSON forms of feedback

The records of the interface and their fields.

Main definitions:

- the formats of rows, forms, outlines, stamps, payloads and authors;
- `Feedback.Signed.ofNode`: a row whose author stands among its members;
- the `Json.Wire` instances of all of them.
-/

namespace FeedbackBoard

open Json (Wire Absence RecordFormat)

namespace Feedback

/-- The fields of the records that are parts of a row. -/
inductive Column
  | id
  | userId
  | version
  | kind
  | data
  | info
  | snapshot
  | createdAt
  | updatedAt
deriving DecidableEq, Repr

namespace Column

/-- The key of a field. -/
def key : Column → String
  | id => "id"
  | userId => "user_id"
  | version => "version"
  | kind => "type"
  | data => "data"
  | info => "meta"
  | snapshot => "snapshot"
  | createdAt => "created_at"
  | updatedAt => "updated_at"

/-- The type of a field. -/
def Carrier : Column → Type
  | id | userId | kind => String
  | version | createdAt | updatedAt => Int64
  | data | info | snapshot => Option Json.Value

/-- The JSON form of a field. -/
@[reducible]
def form : (f : Column) → Wire f.Carrier
  | id | userId | kind => inferInstanceAs (Wire String)
  | version | createdAt | updatedAt => inferInstanceAs (Wire Int64)
  | data | info | snapshot => inferInstanceAs (Wire (Option Json.Value))

/-- Free contents may be left out wherever the record ends; a version then is zero. -/
def lenientAbsence : (f : Column) → Absence f.Carrier
  | id | userId | kind | createdAt | updatedAt => .required
  | version => .always (0 : Int64)
  | data | info | snapshot => .always (none : Option Json.Value)

/-- Free contents may be left out of an object. -/
def namedAbsence : (f : Column) → Absence f.Carrier
  | id | userId | kind | createdAt | updatedAt | version => .required
  | data | info | snapshot => .named (none : Option Json.Value)

end Column

/-! ## Rows and forms -/

/-- The format of a row. -/
def format : RecordFormat Feedback where
  name := "FeedbackModel"
  Field := Column
  decEq := inferInstance
  order := [.id, .userId, .version, .kind, .data, .info, .snapshot, .createdAt, .updatedAt]
  key := Column.key
  Carrier := Column.Carrier
  form := Column.form
  absence := Column.lenientAbsence
  build field := do
    let id ← field .id
    let userId ← field .userId
    let version ← field .version
    let kind ← field .kind
    let data ← field .data
    let info ← field .info
    let snapshot ← field .snapshot
    let createdAt ← field .createdAt
    let updatedAt ← field .updatedAt
    return { id, userId, version, kind, data, info, snapshot, createdAt, updatedAt }
  get row
    | .id => row.id
    | .userId => row.userId
    | .version => row.version
    | .kind => row.kind
    | .data => row.data
    | .info => row.info
    | .snapshot => row.snapshot
    | .createdAt => row.createdAt
    | .updatedAt => row.updatedAt

instance : Wire Feedback := format.wire

/-- The fields of a form. -/
inductive Form.Entry
  | kind
  | data
  | info
  | snapshot
deriving DecidableEq, Repr

/-- The column of a row that takes an entry of a form. -/
def Form.Entry.column : Form.Entry → Column
  | kind => .kind
  | data => .data
  | info => .info
  | snapshot => .snapshot

/-- The format of a form. -/
def Form.format : RecordFormat Form where
  name := "FeedbackForm"
  Field := Form.Entry
  decEq := inferInstance
  order := [.kind, .data, .info, .snapshot]
  key f := f.column.key
  Carrier f := f.column.Carrier
  form f := f.column.form
  absence f := f.column.lenientAbsence
  build field := do
    let kind ← field .kind
    let data ← field .data
    let info ← field .info
    let snapshot ← field .snapshot
    return { kind, data, info, snapshot }
  get record
    | .kind => record.kind
    | .data => record.data
    | .info => record.info
    | .snapshot => record.snapshot

instance : Wire Form := Form.format.wire

/-! ## Parts of a row -/

/-- The fields of an outline. -/
inductive Outline.Entry
  | id
  | userId
  | version
  | kind
  | data
  | info
  | createdAt
  | updatedAt
deriving DecidableEq, Repr

/-- The column of a row that an entry of an outline shows. -/
def Outline.Entry.column : Outline.Entry → Column
  | id => .id
  | userId => .userId
  | version => .version
  | kind => .kind
  | data => .data
  | info => .info
  | createdAt => .createdAt
  | updatedAt => .updatedAt

/-- The format of an outline. -/
def Outline.format : RecordFormat Outline where
  name := "FeedbackResponse"
  Field := Outline.Entry
  decEq := inferInstance
  order := [.id, .userId, .version, .kind, .data, .info, .createdAt, .updatedAt]
  key f := f.column.key
  Carrier f := f.column.Carrier
  form f := f.column.form
  absence f := f.column.namedAbsence
  build field := do
    let id ← field .id
    let userId ← field .userId
    let version ← field .version
    let kind ← field .kind
    let data ← field .data
    let info ← field .info
    let createdAt ← field .createdAt
    let updatedAt ← field .updatedAt
    return { id, userId, version, kind, data, info, createdAt, updatedAt }
  get record
    | .id => record.id
    | .userId => record.userId
    | .version => record.version
    | .kind => record.kind
    | .data => record.data
    | .info => record.info
    | .createdAt => record.createdAt
    | .updatedAt => record.updatedAt

instance : Wire Outline := Outline.format.wire

/-- The fields of a stamp. -/
inductive Stamp.Entry
  | id
  | userId
  | createdAt
  | updatedAt
deriving DecidableEq, Repr

/-- The column of a row that an entry of a stamp shows. -/
def Stamp.Entry.column : Stamp.Entry → Column
  | id => .id
  | userId => .userId
  | createdAt => .createdAt
  | updatedAt => .updatedAt

/-- The format of a stamp. -/
def Stamp.format : RecordFormat Stamp where
  name := "FeedbackIdResponse"
  Field := Stamp.Entry
  decEq := inferInstance
  order := [.id, .userId, .createdAt, .updatedAt]
  key f := f.column.key
  Carrier f := f.column.Carrier
  form f := f.column.form
  absence f := f.column.namedAbsence
  build field := do
    let id ← field .id
    let userId ← field .userId
    let createdAt ← field .createdAt
    let updatedAt ← field .updatedAt
    return { id, userId, createdAt, updatedAt }
  get record
    | .id => record.id
    | .userId => record.userId
    | .createdAt => record.createdAt
    | .updatedAt => record.updatedAt

instance : Wire Stamp := Stamp.format.wire

/-- The fields of a payload. -/
inductive Payload.Entry
  | id
  | data
deriving DecidableEq, Repr

/-- The column of a row that an entry of a payload shows. -/
def Payload.Entry.column : Payload.Entry → Column
  | id => .id
  | data => .data

/-- The format of a payload. -/
def Payload.format : RecordFormat Payload where
  name := "ReviewFeedback"
  Field := Payload.Entry
  decEq := inferInstance
  order := [.id, .data]
  key f := f.column.key
  Carrier f := f.column.Carrier
  form f := f.column.form
  absence f := f.column.namedAbsence
  build field := do
    let id ← field .id
    let data ← field .data
    return { id, data }
  get record
    | .id => record.id
    | .data => record.data

instance : Wire Payload := Payload.format.wire

end Feedback

/-! ## Authors -/

/-- The fields of an author. -/
inductive Author.Entry
  | id
  | name
  | role
deriving DecidableEq, Repr

/-- The key of a field of an author. -/
def Author.Entry.key : Author.Entry → String
  | id => "id"
  | name => "name"
  | role => "role"

/-- The format of an author. -/
def Author.format : RecordFormat Author where
  name := "UserSummary"
  Field := Author.Entry
  decEq := inferInstance
  order := [.id, .name, .role]
  key := Author.Entry.key
  Carrier _ := String
  form _ := inferInstance
  absence _ := .required
  build field := do
    let id ← field .id
    let name ← field .name
    let role ← field .role
    return { id, name, role }
  get record
    | .id => record.id
    | .name => record.name
    | .role => record.role

instance : Wire Author := Author.format.wire

namespace Feedback

/-! ## Rows with their authors -/

/-- The key of the author among the members of a row. -/
def Signed.authorKey : String := "user"

/--
Separates the author from the other members of an object.  The other members are
kept for later, so they only have to be values.
-/
def Signed.split (levels : Nat) :
    (author : Option (Option Author)) → (others : List (Option String × Json.Node)) →
      List (Option String × Json.Node) →
      Except Json.Fault (Option Author × List (Option String × Json.Node))
  | author, others, [] => .ok (author.getD none, others.reverse)
  | _, _, (none, _) :: _ => .error .malformed
  | author, others, (some key, item) :: rest =>
    if key = authorKey then
      if author.isSome then .error (.here (.duplicateField key))
      else
        match Json.decode (α := Option Author) levels item with
        | .ok found => split levels (some found) others rest
        | .error fault => .error (fault.under (.field key))
    else if (item.value? levels).isSome then
      split levels author ((some key, item) :: others) rest
    else .error .malformed

/-- The row and author that a document stands for; the members of both are those of one object. -/
def Signed.ofNode (levels : Nat) (node : Json.Node) : Except Json.Fault Signed :=
  match node with
  | .object members closed =>
    match levels with
    | 0 => .error .malformed
    | levels + 1 =>
      match Signed.split levels none [] members with
      | .error fault => .error fault
      | .ok (author, others) =>
        if closed then
          (Outline.format.ofMembers levels others true).map fun outline => { outline, author }
        else .error .malformed
  | _ => .error (Json.mismatch node "struct FeedbackUserResponse")

instance : Wire Signed where
  encode signed :=
    .object (Outline.format.toMembers signed.outline ++
      [(Signed.authorKey, Json.encode signed.author)])
  decode := Signed.ofNode

/-- The fields of a page. -/
inductive Listing.Entry
  | items
  | total
deriving DecidableEq, Repr

/-- The format of a page. -/
def Listing.format : RecordFormat Listing where
  name := "FeedbackListResponse"
  Field := Listing.Entry
  decEq := inferInstance
  order := [.items, .total]
  key
    | .items => "items"
    | .total => "total"
  Carrier
    | .items => List Signed
    | .total => Int64
  form
    | .items => inferInstanceAs (Wire (List Signed))
    | .total => inferInstanceAs (Wire Int64)
  absence
    | .items => .required
    | .total => .required
  build field := do
    let items ← field .items
    let total ← field .total
    return { items, total }
  get record
    | .items => record.items
    | .total => record.total

instance : Wire Listing := Listing.format.wire

end Feedback

end FeedbackBoard
