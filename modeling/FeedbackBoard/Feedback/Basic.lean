import FeedbackBoard.Json.Value

/-!
# Feedback

A feedback row is a user's reaction to an answer of a model.  Users submit a
form; the row keeps what the form says, who submitted it, and when.  The payload
is free JSON.

Main definitions:

- `Feedback`, `Feedback.Form`: a row and the form it is made from.
- `Feedback.ofForm`, `Feedback.revise`: a fresh row, and a row after a new form.
- `Feedback.outline`, `Feedback.stamp`, `Feedback.payload`: parts of a row.
- `Author`, `Feedback.Signed`, `Feedback.Listing`: rows with their authors, and a page of them.
-/

namespace FeedbackBoard

/-- A feedback row; times are seconds since the beginning of 1970. -/
structure Feedback where
  id : String
  userId : String
  version : Int64
  /-- What the feedback is about, for instance a rating. -/
  kind : String
  data : Option Json.Value
  info : Option Json.Value
  /-- The conversation that the feedback is about. -/
  snapshot : Option Json.Value
  createdAt : Int64
  updatedAt : Int64

namespace Feedback

/-- What a user submits to create or to change a row. -/
structure Form where
  kind : String
  data : Option Json.Value
  info : Option Json.Value
  snapshot : Option Json.Value

/-- The fresh row of a form. -/
def ofForm (id userId : String) (form : Form) (now : Int64) : Feedback where
  id := id
  userId := userId
  version := 0
  kind := form.kind
  data := form.data
  info := form.info
  snapshot := form.snapshot
  createdAt := now
  updatedAt := now

/-- The row after a new form. -/
def revise (row : Feedback) (form : Form) (now : Int64) : Feedback :=
  { row with
    kind := form.kind
    data := form.data
    info := form.info
    snapshot := form.snapshot
    updatedAt := now }

/-! ## Parts of a row -/

/-- A row without the conversation. -/
structure Outline where
  id : String
  userId : String
  version : Int64
  kind : String
  data : Option Json.Value
  info : Option Json.Value
  createdAt : Int64
  updatedAt : Int64

/-- A row without its contents. -/
structure Stamp where
  id : String
  userId : String
  createdAt : Int64
  updatedAt : Int64
deriving DecidableEq

/-- The part of a row that reviews look at. -/
structure Payload where
  id : String
  data : Option Json.Value

/-- The row without the conversation. -/
def outline (row : Feedback) : Outline where
  id := row.id
  userId := row.userId
  version := row.version
  kind := row.kind
  data := row.data
  info := row.info
  createdAt := row.createdAt
  updatedAt := row.updatedAt

/-- The row without its contents. -/
def stamp (row : Feedback) : Stamp where
  id := row.id
  userId := row.userId
  createdAt := row.createdAt
  updatedAt := row.updatedAt

/-- The part of the row that reviews look at. -/
def payload (row : Feedback) : Payload where
  id := row.id
  data := row.data

/-- The kind of the rows that reviews count. -/
def ratingKind : String := "rating"

/-- Whether reviews count the row. -/
def isRating (row : Feedback) : Bool :=
  row.kind == ratingKind

/-- Whether the row belongs to this user; without a user every row does. -/
def ownedBy (row : Feedback) : (owner : Option String) → Bool
  | none => true
  | some user => row.userId == user

end Feedback

/-! ## Rows with their authors -/

/-- What is shown about the author of a row. -/
structure Author where
  id : String
  name : String
  role : String
deriving DecidableEq, Repr

namespace Feedback

/-- A row without the conversation, and its author if known. -/
structure Signed where
  outline : Outline
  author : Option Author

/-- A page of rows, and how many rows there are on all pages. -/
structure Listing where
  items : List Signed
  total : Int64

end Feedback

end FeedbackBoard
