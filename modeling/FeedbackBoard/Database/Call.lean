import FeedbackBoard.Database.Statement

/-!
# Calls

A call of the store is a short program of statements.  Statements of several
calls may be executed in turns; each by itself is executed as a whole.

Main definitions:

- `Call`: a program of statements and its result.
- `Call.step?`: executes the first statement.
- `Call.run`: executes all statements without interruption.
- `Call.insert`, `Call.revise`, `Call.page` and others: the calls of the store.
-/

namespace FeedbackBoard

/-- The database has refused a statement. -/
structure DatabaseFailure where
deriving DecidableEq, Repr

/-- A program of statements; a statement that is refused ends it. -/
inductive Call (α : Type)
  | done (result : α)
  | query (query : Query) (next : query.Reply → Call α)
  | change (change : Change) (next : Nat → Call α)

namespace Call

/-- The state of a call between two statements. -/
abbrev State (α : Type) := Except DatabaseFailure (Call α)

/-- Executes the first statement of a call; a finished call has none. -/
def step? {α : Type} (database : Database) : Call α → Option (State α × Database)
  | done _ => none
  | query q next =>
    match q.answer? database with
    | some reply => some (.ok (next reply), database)
    | none => some (.error ⟨⟩, database)
  | change c next =>
    match c.apply? database with
    | some (touched, database) => some (.ok (next touched), database)
    | none => some (.error ⟨⟩, database)

/-- Executes all statements of a call. -/
def run {α : Type} : Call α → Database → Except DatabaseFailure α × Database
  | done result, database => (.ok result, database)
  | query q next, database =>
    match q.answer? database with
    | some reply => (next reply).run database
    | none => (.error ⟨⟩, database)
  | change c next, database =>
    match c.apply? database with
    | some (touched, database) => (next touched).run database
    | none => (.error ⟨⟩, database)

/-! ## The calls of the store -/

/-- Stores a row. -/
def restore (row : Feedback) : Call Unit :=
  change (.store (StoredRow.ofFeedback row)) fun _ => done ()

/-- Stores a fresh row. -/
def insert (row : Feedback) : Call Feedback :=
  change (.store (StoredRow.ofFeedback row)) fun _ => done row

/-- Stores several rows, all or none. -/
def restoreAll (batch : List Feedback) : Call Nat :=
  change (.storeAll (batch.map StoredRow.ofFeedback)) fun _ => done batch.length

/-- The row of an id within an owner's rows. -/
def find (id : String) (owner : Option String) : Call (Option Feedback) :=
  query (.one id owner) fun row => done (row.map StoredRow.toFeedback)

/-- Applies a form to the row of an id within an owner's rows, and reads the row. -/
def revise (id : String) (owner : Option String) (form : Feedback.Form) (now : Int64) :
    Call (Option Feedback) :=
  change (.revise id owner form now) fun touched =>
    if touched = 0 then done none else find id owner

/-- Removes rows, and says whether there were any. -/
def remove (filter : RowFilter) : Call Bool :=
  change (.remove filter) fun touched => done (decide (0 < touched))

/-- The rows of a filter, the newest first. -/
def newest (filter : RowFilter) : Call (List Feedback) :=
  query (.newest filter) fun rows => done (rows.map StoredRow.toFeedback)

/-- The times and ids of all rows, the newest first. -/
def stamps : Call (List Feedback.Stamp) :=
  query (.newest .all) fun rows => done (rows.map StoredRow.stamp)

/-- The payloads of the rows that reviews count. -/
def ratings : Call (List Feedback.Payload) :=
  query (.ofKind Feedback.ratingKind) fun rows => done (rows.map StoredRow.payload)

/-- A page: first how many rows there are, then the rows. -/
def page (pageQuery : PageQuery) : Call Page :=
  query .count fun total =>
    query (.page pageQuery) fun rows => done { items := rows.map StoredRow.toFeedback, total }

end Call

end FeedbackBoard
