import FeedbackBoard.Feedback.Basic

/-!
# Pages

A page is a part of all rows in a chosen order.

Main definitions:

- `SortField`, `Direction`: the chosen order, and the names it has in requests.
- `PageQuery`, `Page`: what is asked for, and the answer.
- `pageSlice`: the part of an ordered list that a query asks for.
-/

namespace FeedbackBoard

/-- What the rows of a page are ordered by. -/
inductive SortField
  | model
  | rating
  | createdAt
  | updatedAt
deriving DecidableEq, Repr

/-- The field with this name; every other name means the time of the last change. -/
def SortField.ofName (name : Option String) : SortField :=
  match name with
  | some "model_id" => .model
  | some "rating" => .rating
  | some "created_at" => .createdAt
  | _ => .updatedAt

/-- Whether the smallest or the greatest rows come first. -/
inductive Direction
  | ascending
  | descending
deriving DecidableEq, Repr

/-- The direction with this name, in letters of any case; every other name means descending. -/
def Direction.ofName (name : Option String) : Direction :=
  if name.map (·.toList.map Char.toLower) = some ['a', 's', 'c'] then .ascending else .descending

/-- An order in this direction. -/
def Direction.apply (direction : Direction) (order : Ordering) : Ordering :=
  match direction with
  | .ascending => order
  | .descending => order.swap

/-- Which page is asked for; rows are skipped and counted from zero. -/
structure PageQuery where
  field : SortField
  direction : Direction
  skip : Int
  limit : Int
deriving DecidableEq, Repr

/-- A page, and how many rows there are on all pages. -/
structure Page where
  items : List Feedback
  total : Nat

/-- The part of an ordered list that a query asks for; negative bounds count as zero. -/
def pageSlice {α : Type} (query : PageQuery) (rows : List α) : List α :=
  (rows.drop query.skip.toNat).take query.limit.toNat

/-- The order of listings: the newest rows first, and rows of one time by ascending id. -/
def newestOrder (a b : Feedback) : Ordering :=
  (compare b.createdAt.toInt a.createdAt.toInt).then (compare a.id b.id)

/-- The rows, the newest first. -/
def newestFirst (rows : List Feedback) : List Feedback :=
  rows.mergeSort fun a b => (newestOrder a b).isLE

end FeedbackBoard
