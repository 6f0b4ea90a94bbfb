import FeedbackBoard.Database.Call
import FeedbackBoard.Store.RowList

/-!
# The store

Rows are held in memory or in a database.  Both offer the same operations; an
operation that fails says why, and readings leave the store as it is.

Main definitions:

- `Store`: the rows, wherever they are held.
- `Store.insert`, `Store.restore`, `Store.restoreAll`, `Store.importAll`, `Store.revise`,
  `Store.remove`, `Store.removeUser`, `Store.removeAll`: the changes.
- `Store.find`, `Store.newest`, `Store.newestOf`, `Store.stamps`, `Store.ratings`,
  `Store.standings`, `Store.page`: the readings.
-/

namespace FeedbackBoard

/-- The rows, wherever they are held. -/
inductive Store
  | memory (rows : RowList)
  | database (db : Database)

/-- Why an operation of the store fails. -/
inductive StoreError
  /-- The database has refused a statement. -/
  | refused
  /-- A row that is imported has no id or no user. -/
  | blankKey
deriving DecidableEq, Repr

/-- A failure of the database as a failure of the store. -/
def StoreError.ofDatabase : DatabaseFailure → StoreError
  | ⟨⟩ => .refused

namespace Store

/-- A store in memory without rows. -/
def emptyMemory : Store := .memory []

/-- A store in a fresh database whose schema is up to date. -/
def emptyDatabase (now : Int64) : Store :=
  .database (Database.empty.migrate now).2

/-- What a call answers. -/
def answerOf {α : Type} (call : Call α) (db : Database) : Except StoreError α :=
  (call.run db).1.mapError StoreError.ofDatabase

/-- What a call answers, and the store after it. -/
def execute {α : Type} (call : Call α) (db : Database) : Except StoreError α × Store :=
  (answerOf call db, .database (call.run db).2)

/-! ## Changes -/

/-- Adds a fresh row. -/
def insert (row : Feedback) : Store → Except StoreError Feedback × Store
  | memory rows => (.ok row, .memory (rows.insert row))
  | database db => execute (.insert row) db

/-- Sets the row of an id. -/
def restore (row : Feedback) : Store → Except StoreError Unit × Store
  | memory rows => (.ok (), .memory (rows.restore row))
  | database db => execute (.restore row) db

/-- Sets the rows of several ids, all or none; of several with one id the last remains. -/
def restoreAll (batch : List Feedback) : Store → Except StoreError Nat × Store
  | memory rows => (.ok batch.length, .memory (rows.restoreAll batch))
  | database db => execute (.restoreAll batch) db

/-- Whether a row has an id and a user. -/
def hasKeys (row : Feedback) : Bool :=
  row.id != "" && row.userId != ""

/-- Sets the rows of several ids, all or none, if every row has an id and a user. -/
def importAll (batch : List Feedback) (store : Store) : Except StoreError Nat × Store :=
  if batch.all hasKeys then store.restoreAll batch else (.error .blankKey, store)

/-- Applies a form to the row of an id within an owner's rows. -/
def revise (id : String) (owner : Option String) (form : Feedback.Form) (now : Int64) :
    Store → Except StoreError (Option Feedback) × Store
  | memory rows =>
    match rows.find? id owner with
    | none => (.ok none, .memory rows)
    | some row => (.ok (some (row.revise form now)), .memory (rows.revise id owner form now))
  | database db => execute (.revise id owner form now) db

/-- Removes the row of an id within an owner's rows, and says whether there was one. -/
def remove (id : String) (owner : Option String) : Store → Except StoreError Bool × Store
  | memory rows =>
    let rest := rows.remove id owner
    (.ok (decide (rest.length < rows.length)), .memory rest)
  | database db => execute (.remove (.row id owner)) db

/-- Removes the rows of a user, and says whether there were any. -/
def removeUser (user : String) : Store → Except StoreError Bool × Store
  | memory rows =>
    let rest := rows.removeUser user
    (.ok (decide (rest.length < rows.length)), .memory rest)
  | database db => execute (.remove (.user user)) db

/-- Removes all rows, and says whether there were any. -/
def removeAll : Store → Except StoreError Bool × Store
  | memory rows => (.ok (!rows.isEmpty), .memory [])
  | database db => execute (.remove .all) db

/-! ## Readings -/

/-- The row of an id within an owner's rows. -/
def find (id : String) (owner : Option String) : Store → Except StoreError (Option Feedback)
  | memory rows => .ok (rows.find? id owner)
  | database db => answerOf (.find id owner) db

/-- All rows, the newest first. -/
def newest : Store → Except StoreError (List Feedback)
  | memory rows => .ok rows.newest
  | database db => answerOf (.newest .all) db

/-- The rows of a user, the newest first. -/
def newestOf (user : String) : Store → Except StoreError (List Feedback)
  | memory rows => .ok (rows.newestOf user)
  | database db => answerOf (.newest (.user user)) db

/-- The times and ids of all rows, the newest first. -/
def stamps : Store → Except StoreError (List Feedback.Stamp)
  | memory rows => .ok (rows.newest.map Feedback.stamp)
  | database db => answerOf .stamps db

/-- The payloads of the rows that reviews count. -/
def ratings : Store → Except StoreError (List Feedback.Payload)
  | memory rows => .ok rows.ratings
  | database db => answerOf .ratings db

/-- The leaderboard of the rows. -/
def standings (store : Store) : Except StoreError (List Standing) :=
  store.ratings.map leaderboard

/-- A page. -/
def page (query : PageQuery) : Store → Except StoreError Page
  | memory rows => .ok (rows.page query)
  | database db => answerOf (.page query) db

end Store

end FeedbackBoard
