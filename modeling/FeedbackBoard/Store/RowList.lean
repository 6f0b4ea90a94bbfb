import FeedbackBoard.Reviews.Leaderboard
import FeedbackBoard.Store.SortKey

/-!
# Rows in memory

The rows of a store as a plain list.  At most one row has an id as long as fresh
ids are fresh, so the list is a finite map from ids to rows.

Main definitions:

- `RowList.insert`, `RowList.restore`, `RowList.revise`, `RowList.remove`: the changes.
- `RowList.find?`, `RowList.newest`, `RowList.page`: the readings.
-/

namespace FeedbackBoard

/-- The rows of a store that is held in memory. -/
abbrev RowList := List Feedback

namespace RowList

/-- Whether the row has this id and belongs to this owner. -/
def isTarget (id : String) (owner : Option String) (row : Feedback) : Bool :=
  row.id == id && row.ownedBy owner

/-! ## Changes -/

/-- Adds a fresh row. -/
def insert (rows : RowList) (row : Feedback) : RowList :=
  rows ++ [row]

/-- Sets the row of an id. -/
def restore (rows : RowList) (row : Feedback) : RowList :=
  rows.filter (fun other => other.id != row.id) ++ [row]

/-- Sets the rows of several ids, one after the other. -/
def restoreAll (rows : RowList) (batch : List Feedback) : RowList :=
  batch.foldl restore rows

/-- The first row of an id within an owner's rows. -/
def find? (rows : RowList) (id : String) (owner : Option String) : Option Feedback :=
  List.find? (isTarget id owner) rows

/-- Applies a form to the first row of an id within an owner's rows. -/
def revise (id : String) (owner : Option String) (form : Feedback.Form) (now : Int64) :
    RowList → RowList
  | [] => []
  | row :: rest =>
    if isTarget id owner row then row.revise form now :: rest
    else row :: revise id owner form now rest

/-- Removes the row of an id within an owner's rows. -/
def remove (rows : RowList) (id : String) (owner : Option String) : RowList :=
  rows.filter fun row => !isTarget id owner row

/-- Removes the rows of a user. -/
def removeUser (rows : RowList) (user : String) : RowList :=
  rows.filter fun row => row.userId != user

/-! ## Readings -/

/-- All rows, the newest first. -/
def newest (rows : RowList) : List Feedback :=
  newestFirst rows

/-- The rows of a user, the newest first. -/
def newestOf (rows : RowList) (user : String) : List Feedback :=
  newestFirst (rows.filter fun row => row.userId == user)

/-- The payloads of the rows that reviews count. -/
def ratings (rows : RowList) : List Feedback.Payload :=
  (rows.filter Feedback.isRating).map Feedback.payload

/-- A page. -/
def page (rows : RowList) (query : PageQuery) : Page where
  items := pageSlice query
    (rows.mergeSort fun a b => (pageOrder query.field query.direction a b).isLE)
  total := rows.length

end RowList

end FeedbackBoard
