/-!
# The schema of the database

The schema is brought up to date by migrations.  They run in their order, each
as a whole or not at all, and the database keeps a journal of those that have
run, so that none runs twice.

Main definitions:

- `Schema`: the journal, the columns of the feedback table, and the indexes.
- `Migration`, `migrations`: the known migrations.
- `Schema.migrate`: runs those that are not in the journal.
-/

namespace FeedbackBoard

/-- What the database holds besides its rows. -/
structure Schema where
  /-- The versions that have run and the times at which they did; none before the first run. -/
  journal : Option (List (String × Int64))
  /-- The columns of the feedback table, if there is one. -/
  columns : Option (List String)
  /-- The names of the indexes. -/
  indexes : List String
deriving DecidableEq

/-- A change of the schema that does nothing where its result already exists. -/
inductive SchemaChange
  | createTable (columns : List String)
  | createIndex (name column : String)
deriving DecidableEq, Repr

/-- A version of the schema and the changes that lead to it. -/
structure Migration where
  version : String
  changes : List SchemaChange
deriving DecidableEq, Repr

/-- The columns of the feedback table. -/
def feedbackColumns : List String :=
  ["id", "user_id", "version", "type", "data", "meta", "snapshot", "created_at", "updated_at"]

/-- The known migrations. -/
def migrations : List Migration :=
  [{ version := "0001_create_feedback"
     changes := [.createTable feedbackColumns] },
   { version := "0002_feedback_indexes"
     changes :=
      [.createIndex "idx_feedback_user_id" "user_id",
       .createIndex "idx_feedback_type" "type",
       .createIndex "idx_feedback_updated_at" "updated_at"] }]

/-- A migration could not run. -/
structure MigrationFailure where
  version : String
deriving DecidableEq, Repr

/-- The message of a failed migration. -/
def MigrationFailure.message (failure : MigrationFailure) : String :=
  "migration " ++ failure.version ++ " failed"

namespace Schema

/-- A database that has never been opened. -/
def empty : Schema := ⟨none, none, []⟩

/-- Whether two names of columns are the same, in letters of any case. -/
def sameName (a b : String) : Bool :=
  a.toList.map Char.toLower == b.toList.map Char.toLower

/-- Whether the feedback table has this column. -/
def hasColumn (schema : Schema) (column : String) : Bool :=
  (schema.columns.getD []).any (sameName column)

/-- The schema after a change; an index needs the table, and a new one its column. -/
def change? (schema : Schema) : SchemaChange → Option Schema
  | .createTable columns =>
    match schema.columns with
    | some _ => some schema
    | none => some { schema with columns := some columns }
  | .createIndex name column =>
    if schema.columns.isNone then none
    else if schema.indexes.contains name then some schema
    else if schema.hasColumn column then some { schema with indexes := schema.indexes ++ [name] }
    else none

/-- The schema after several changes, if all of them are possible. -/
def changeAll? (schema : Schema) (changes : List SchemaChange) : Option Schema :=
  changes.foldlM change? schema

/-- The journal; one that was never begun is empty. -/
def entries (schema : Schema) : List (String × Int64) :=
  schema.journal.getD []

/-- Whether the journal has this version. -/
def hasRun (schema : Schema) (version : String) : Bool :=
  schema.entries.any fun entry => entry.1 == version

/-- Writes a version into the journal. -/
def record (schema : Schema) (version : String) (now : Int64) : Schema :=
  { schema with journal := some (schema.entries ++ [(version, now)]) }

/--
Runs the migrations that are not in the journal.  The answer lists their
versions; a migration that fails leaves no trace and ends the run.
-/
def migrateAll (now : Int64) : List Migration → Schema → Except MigrationFailure (List String) × Schema
  | [], schema => (.ok [], schema)
  | migration :: rest, schema =>
    if schema.hasRun migration.version then migrateAll now rest schema
    else
      match schema.changeAll? migration.changes with
      | none => (.error ⟨migration.version⟩, schema)
      | some changed =>
        let (outcome, final) := migrateAll now rest (changed.record migration.version now)
        (outcome.map (migration.version :: ·), final)

/-- Begins the journal, if that has not been done. -/
def withJournal (schema : Schema) : Schema :=
  { schema with journal := some schema.entries }

/-- Brings the schema up to date. -/
def migrate (now : Int64) (schema : Schema) : Except MigrationFailure (List String) × Schema :=
  migrateAll now migrations schema.withJournal

/-- The names of all tables and indexes. -/
def objects (schema : Schema) : List String :=
  (if schema.columns.isSome then ["feedback"] else []) ++
    (if schema.journal.isSome then ["schema_migrations"] else []) ++ schema.indexes

/-- Whether the feedback table is the one that rows are stored in. -/
def isReady (schema : Schema) : Bool :=
  schema.columns == some feedbackColumns

end Schema

end FeedbackBoard
