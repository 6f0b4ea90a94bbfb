import FeedbackBoard.Command.Line

/-!
# The workspace of a command line

A command works on a tree of files.  What it looks at is put into the tree
before, and what it has changed is taken from the tree afterwards.  Outside the
tree a database is kept as the export of its rows.

Main definitions:

- `Arguments.outerPaths`, `Arguments.databaseFile?`: the files that a command line looks at.
- `FileTree.load`: puts a file into the tree.
- `FileTree.changesSince`: the files that a command has changed.
-/

namespace FeedbackBoard

/-! ## What is looked at -/

/-- The paths that a command line looks at whatever its settings are. -/
def Arguments.outerPaths : Arguments → List String
  | .run invocation =>
    invocation.settingsPath ::
      match invocation.command with
      | .importRows file => [file]
      | .exportRows (some output) => [output]
      | _ => []
  | _ => []

/-- The settings that a command line names, if they are in the tree and can be used. -/
def Arguments.settings? (arguments : Arguments) (tree : FileTree) : Option Settings :=
  match arguments with
  | .run invocation => (loadSettings tree invocation.settingsPath).toOption
  | _ => none

/-- The path of the file of the database that a command line works on. -/
def Arguments.databaseFile? (arguments : Arguments) (tree : FileTree) : Option String :=
  match (arguments.settings? tree).map fun settings => Location.ofPath settings.databasePath with
  | some (.ok (.file file)) => (tree.followPlainly? (FileTree.start file.path)
      (Path.steps file.path)).map Place.path
  | _ => none

/-! ## Databases as texts -/

/-- The text that a database is kept as. -/
def Database.keptText (database : Database) : String :=
  exportText (database.rows.map StoredRow.toFeedback)

/-- The database that is kept as a text, with its schema up to date. -/
def Database.ofKeptText? (now : Int64) (text : String) : Option Database :=
  (readExport text).map fun rows =>
    { (Database.empty.migrate now).2 with rows := rows.map StoredRow.ofFeedback }

/-- What is kept of an entry: the text of a file, or nothing of a directory. -/
def FileEntry.keptText? : FileEntry → Option String
  | .directory => none
  | .text content => some content
  | .database db _ => some db.keptText

/-- The entry of a database file with this text; a text that keeps no database stays a text. -/
def FileEntry.ofDatabaseText (now : Int64) (text : String) : FileEntry :=
  match Database.ofKeptText? now text with
  | some kept => .database kept true
  | none => .text text

/-! ## Loading and saving -/

namespace FileTree

/-- Puts an entry at the place of a path, together with the directories above it. -/
def load (tree : FileTree) (path : String) (entry : FileEntry) : FileTree :=
  let tree :=
    match Path.parent? path with
    | none => tree
    | some parent => (tree.makeDirectories parent).2
  match tree.place? path with
  | none => tree
  | some place => if tree.isDirectory place then tree else tree.put place entry

/-- The files that are new or different, directories before what lies in them. -/
def changesSince (after before : FileTree) : List (String × Option String) :=
  after.entries.reverse.filterMap fun (place, entry) =>
    match before.entry? place with
    | some other =>
      if other.keptText? = entry.keptText? then none else some (place.path, entry.keptText?)
    | none => some (place.path, entry.keptText?)

end FileTree

end FeedbackBoard
