import FeedbackBoard.Json.Number
import FeedbackBoard.Store.Query

/-!
# Sort keys of rows

Rows that are held in memory are ordered by a key: rows without one come first,
then numbers, then texts.  Numbers are compared as binary64 numbers.

Main definitions:

- `SortKey`, `SortKey.compare`: keys and their order.
- `SortKey.ofRow`: the key of a row.
- `pageOrder`: the order of the rows of a page.
-/

namespace FeedbackBoard

/-- What a row is ordered by. -/
inductive SortKey
  | absent
  | number (x : Binary64)
  | text (s : String)
deriving DecidableEq

namespace SortKey

/-- The key of a value; truth values count as one and zero. -/
def ofValue : Option Json.Value → SortKey
  | some (.number n) => .number n.toDouble
  | some (.string s) => .text s
  | some (.bool b) => .number (Binary64.ofInt (if b then 1 else 0))
  | _ => .absent

/-- The place of a key among keys of other types. -/
def rank : SortKey → Nat
  | absent => 0
  | number _ => 1
  | text _ => 2

/-- The order of keys. -/
def compare : SortKey → SortKey → Ordering
  | number x, number y => Binary64.totalOrder x y
  | text s, text t => Ord.compare s t
  | a, b => Ord.compare a.rank b.rank

/-- The key of a row. -/
def ofRow (field : SortField) (row : Feedback) : SortKey :=
  match field with
  | .model => ofValue (row.data.bind (·.member? "model_id"))
  | .rating => ofValue (row.data.bind (·.member? "rating"))
  | .createdAt => .number (Binary64.ofInt row.createdAt.toInt)
  | .updatedAt => .number (Binary64.ofInt row.updatedAt.toInt)

end SortKey

/-- The order of the rows of a page: by key, and rows with one key by ascending id. -/
def pageOrder (field : SortField) (direction : Direction) (a b : Feedback) : Ordering :=
  (direction.apply ((SortKey.ofRow field a).compare (SortKey.ofRow field b))).then
    (compare a.id b.id)

end FeedbackBoard
