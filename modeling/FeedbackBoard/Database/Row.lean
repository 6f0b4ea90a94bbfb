import FeedbackBoard.Database.LenientJson
import FeedbackBoard.Store.Query

/-!
# Stored rows

A stored row keeps the free contents of a feedback row as JSON texts.  A text
that is no JSON is read as if it were not there.

Main definitions:

- `StoredRow`: a row of the feedback table.
- `StoredRow.ofFeedback`, `StoredRow.toFeedback`: storing and reading back.
- `StoredRow.pageCell?`: what the database orders a row by.
-/

namespace FeedbackBoard

/-- A row of the feedback table. -/
structure StoredRow where
  id : String
  userId : String
  version : Int64
  kind : String
  data : Option String
  info : Option String
  snapshot : Option String
  createdAt : Int64
  updatedAt : Int64
deriving DecidableEq

/-- The text that stands for free content. -/
def storedText (content : Option Json.Value) : Option String :=
  content.map Json.Value.compact

/-- The free content that a text stands for. -/
def storedContent (text : Option String) : Option Json.Value :=
  text.bind Json.readValue?

namespace StoredRow

/-- The stored form of a row. -/
def ofFeedback (row : Feedback) : StoredRow where
  id := row.id
  userId := row.userId
  version := row.version
  kind := row.kind
  data := storedText row.data
  info := storedText row.info
  snapshot := storedText row.snapshot
  createdAt := row.createdAt
  updatedAt := row.updatedAt

/-- The row that is read back. -/
def toFeedback (row : StoredRow) : Feedback where
  id := row.id
  userId := row.userId
  version := row.version
  kind := row.kind
  data := storedContent row.data
  info := storedContent row.info
  snapshot := storedContent row.snapshot
  createdAt := row.createdAt
  updatedAt := row.updatedAt

/-- The times and ids of the row. -/
def stamp (row : StoredRow) : Feedback.Stamp where
  id := row.id
  userId := row.userId
  createdAt := row.createdAt
  updatedAt := row.updatedAt

/-- The part of the row that reviews look at. -/
def payload (row : StoredRow) : Feedback.Payload where
  id := row.id
  data := storedContent row.data

/-- The row with the contents of a form. -/
def revise (row : StoredRow) (form : Feedback.Form) (now : Int64) : StoredRow :=
  { row with
    kind := form.kind
    data := storedText form.data
    info := storedText form.info
    snapshot := storedText form.snapshot
    updatedAt := now }

/-! ## Expressions -/

/-- A member of the data of a row; none if the data are no JSON text or the member has no value. -/
def dataMember? (row : StoredRow) (key : String) : Option Cell :=
  match row.data with
  | none => some .null
  | some text => (JsonTree.ofText? text).bind (JsonTree.member? key)

/-- What the database orders a row by; none if it cannot be computed. -/
def pageCell? (field : SortField) (row : StoredRow) : Option Cell :=
  match field with
  | .model => row.dataMember? "model_id"
  | .rating => row.dataMember? "rating"
  | .createdAt => some (.integer row.createdAt.toInt)
  | .updatedAt => some (.integer row.updatedAt.toInt)

/-- The order of listings: the newest rows first, and rows of one time by ascending id. -/
def newestOrder (a b : StoredRow) : Ordering :=
  (compare b.createdAt.toInt a.createdAt.toInt).then (compare a.id b.id)

/-- The rows, the newest first. -/
def newestFirst (rows : List StoredRow) : List StoredRow :=
  rows.mergeSort fun a b => (newestOrder a b).isLE

/-- The order of the rows of a page: by cell, and rows with one cell by ascending id. -/
def pageOrder (direction : Direction) (a b : Cell × StoredRow) : Ordering :=
  (direction.apply (a.1.compare b.1)).then (compare a.2.id b.2.id)

/-- The rows in the order of a page; none if a row cannot be ordered. -/
def pageRows? (field : SortField) (direction : Direction) (rows : List StoredRow) :
    Option (List StoredRow) :=
  match rows.mapM fun row => (row.pageCell? field).map (·, row) with
  | some keyed => some ((keyed.mergeSort fun a b => (pageOrder direction a b).isLE).map Prod.snd)
  | none => none

end StoredRow

end FeedbackBoard
