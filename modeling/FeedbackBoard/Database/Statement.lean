import FeedbackBoard.Database.Row
import FeedbackBoard.Database.Schema

/-!
# Statements

The database executes one statement after the other, each as a whole.  A query
reads the rows; a change writes them and answers how many rows it touched.

Main definitions:

- `Database`: the schema and the rows.
- `Query`, `Query.answer?`: readings.
- `Change`, `Change.apply?`: writings.
-/

namespace FeedbackBoard

/-- The schema, the rows in the order in which they were added, and the ids that cannot be stored. -/
structure Database where
  schema : Schema
  rows : List StoredRow
  rejected : List String

namespace Database

/-- A database that has never been opened. -/
def empty : Database := ⟨.empty, [], []⟩

/-- Brings the schema up to date. -/
def migrate (now : Int64) (database : Database) : Except MigrationFailure (List String) × Database :=
  let (outcome, schema) := database.schema.migrate now
  (outcome, { database with schema })

/-- Whether rows can be stored. -/
def isReady (database : Database) : Bool :=
  database.schema.isReady

/-- The database without the feedback table. -/
def dropTable (database : Database) : Database :=
  { database with
    schema := { database.schema with columns := none, indexes := [] }
    rows := [] }

/-- From now on the id cannot be stored. -/
def reject (database : Database) (id : String) : Database :=
  { database with rejected := id :: database.rejected }

/-- Puts a text, JSON or not, into a column with free content of one row. -/
def setText (database : Database) (id column text : String) : Database :=
  let set (row : StoredRow) : StoredRow :=
    match column with
    | "data" => { row with data := some text }
    | "meta" => { row with info := some text }
    | "snapshot" => { row with snapshot := some text }
    | _ => row
  { database with rows := database.rows.map fun row => if row.id = id then set row else row }

end Database

/-! ## Conditions on rows -/

/-- Which rows a statement is about. -/
inductive RowFilter
  | row (id : String) (owner : Option String)
  | user (id : String)
  | all
deriving DecidableEq, Repr

/-- Whether a statement is about the row. -/
def RowFilter.accepts : RowFilter → StoredRow → Bool
  | .row id owner, stored => stored.id == id && (owner.all fun user => stored.userId == user)
  | .user id, stored => stored.userId == id
  | .all, _ => true

/-! ## Queries -/

/-- A reading of the rows. -/
inductive Query
  | one (id : String) (owner : Option String)
  | newest (filter : RowFilter)
  | ofKind (kind : String)
  | count
  | page (query : PageQuery)
deriving DecidableEq, Repr

/-- What a query answers. -/
def Query.Reply : Query → Type
  | .one _ _ => Option StoredRow
  | .newest _ | .ofKind _ | .page _ => List StoredRow
  | .count => Nat

/-- The answer of a query on these rows; none if it cannot be computed. -/
def Query.onRows? : (query : Query) → List StoredRow → Option query.Reply
  | .one id owner, rows => some (rows.find? (RowFilter.row id owner).accepts)
  | .newest filter, rows => some (StoredRow.newestFirst (rows.filter filter.accepts))
  | .ofKind kind, rows => some (rows.filter fun row => row.kind == kind)
  | .count, rows => some rows.length
  | .page query, rows =>
    if query.limit ≤ 0 then some []
    else
      match StoredRow.pageRows? query.field query.direction rows with
      | some sorted => some (pageSlice query sorted)
      | none => none

/-- The answer of a query; none if the database refuses it. -/
def Query.answer? (query : Query) (database : Database) : Option query.Reply :=
  if database.isReady then query.onRows? database.rows else none

/-! ## Changes -/

/-- A writing of rows. -/
inductive Change
  | store (row : StoredRow)
  | storeAll (rows : List StoredRow)
  | revise (id : String) (owner : Option String) (form : Feedback.Form) (now : Int64)
  | remove (filter : RowFilter)

/-- Sets the row of an id; a new id is added at the end. -/
def storeRow (row : StoredRow) : List StoredRow → List StoredRow
  | [] => [row]
  | other :: rest => if other.id = row.id then row :: rest else other :: storeRow row rest

/-- Stores rows one after the other, if none of their ids is rejected. -/
def storeRows? (rejected : List String) (batch rows : List StoredRow) : Option (List StoredRow) :=
  batch.foldlM (fun rows row => if rejected.contains row.id then none else some (storeRow row rows))
    rows

/-- The rows after a change and how many it touched; none if the change is refused. -/
def Change.onRows? (rejected : List String) : Change → List StoredRow → Option (Nat × List StoredRow)
  | .store row, rows => (storeRows? rejected [row] rows).map (1, ·)
  | .storeAll batch, rows => (storeRows? rejected batch rows).map (batch.length, ·)
  | .revise id owner form now, rows =>
    let target := (RowFilter.row id owner).accepts
    some (rows.countP target,
      rows.map fun row => if target row then row.revise form now else row)
  | .remove filter, rows =>
    some (rows.countP filter.accepts, rows.filter fun row => !filter.accepts row)

/-- Whether the change has nothing to write. -/
def Change.isVoid : Change → Bool
  | .storeAll batch => batch.isEmpty
  | _ => false

/--
The database after a change and how many rows it touched; none if the database
refuses it.  A change that has nothing to write needs no table.
-/
def Change.apply? (change : Change) (database : Database) : Option (Nat × Database) :=
  if database.isReady || change.isVoid then
    match change.onRows? database.rejected database.rows with
    | some (touched, rows) => some (touched, { database with rows })
    | none => none
  else none

end FeedbackBoard
