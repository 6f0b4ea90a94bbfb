import FeedbackBoard.Command.Address
import FeedbackBoard.Command.Failure

/-!
# Opening the database

A command opens the database of its settings.  The directory is made if it is
missing, so is the file, and the schema is brought up to date.  A database that
may only be read has to be there already.

Main definitions:

- `Location.ofPath`: where the database of a path is kept.
- `OpenDatabase`, `FileTree.openDatabase`: an opened database.
- `FileTree.save`: keeps a database after a command.
-/

namespace FeedbackBoard

/-- Where the database of a path is kept. -/
def Location.ofPath (path : String) : Except Failure Location :=
  match Address.ofPath? path with
  | none => .error .database
  | some address =>
    match (DatabaseRequest.ofAddress? address).bind DatabaseRequest.location? with
    | none => .error (.unopenable path)
    | some location => .ok location

/-- Whether the file of a database may be changed. -/
def DatabaseFile.isWritable (file : DatabaseFile) : Bool :=
  file.rights != .read && !file.frozen

/-- An opened database, its place and way if it lies in a file, and whether it may be changed. -/
structure OpenDatabase where
  file : Option (Place × DatabaseFile)
  writable : Bool
  database : Database

namespace FileTree

/-- Keeps a database after a command, with a log from the first time that there can be one. -/
def save (tree : FileTree) (opened : OpenDatabase) : FileTree :=
  match opened.file with
  | some (place, file) =>
    if opened.writable then
      let logged :=
        match tree.entry? place with
        | some (.database _ logged) => logged
        | _ => false
      tree.put place (.database opened.database (logged || file.logs))
    else tree
  | none => tree

/-- Makes the directory that a database lies in. -/
def prepareDirectory (tree : FileTree) (path : String) : Except Failure Unit × FileTree :=
  match Path.parent? path with
  | none => (.ok (), tree)
  | some parent =>
    let (outcome, tree) := tree.makeDirectories parent
    (outcome.mapError fun _ => .noDirectory parent, tree)

/-- The greatest number of bytes of a path to a database; it leaves room for the way to its start. -/
def longestPath : Nat := 480

/-- Whether the journal beside a database can have its name. -/
def hasJournalName (place : Place) : Bool :=
  !Path.isTooLong (place.getLastD "" ++ "-journal")

/-- Whether a file with this text is taken for an empty one; a single byte does not count. -/
def countsAsEmpty (content : String) : Bool :=
  decide (content.utf8ByteSize ≤ 1)

/--
Opens a file without a database in it, which is none at all or an empty one.  A
file that never changes gets no schema; a file that may only be read does not
even get a log.
-/
def openFresh (file : DatabaseFile) (path : String) (place : Place) : Except Failure OpenDatabase :=
  if file.isWritable then
    if hasJournalName place then .ok ⟨some (place, file), true, .empty⟩
    else .error (.unopenable path)
  else if file.logs && !file.frozen then .error (.unopenable path)
  else .error .database

/--
Opens a file with a database in it.  A log that is there has to be read, and one
that can be there is begun, unless the file never changes.
-/
def openKept (file : DatabaseFile) (path : String) (place : Place) (database : Database)
    (logged : Bool) : Except Failure OpenDatabase :=
  let readable := file.logs || !logged
  let begun := logged || !file.logs || file.isWritable
  if file.frozen || (readable && begun) then .ok ⟨some (place, file), file.isWritable, database⟩
  else .error (.unopenable path)

/-- Opens the database in a file, before its schema is looked at; a missing file is made. -/
def openFile (tree : FileTree) (file : DatabaseFile) (path : String) :
    Except Failure OpenDatabase × FileTree :=
  match tree.plainPlace? file.path with
  | none => (.error (.unopenable path), tree)
  | some place =>
    if longestPath < place.path.utf8ByteSize then (.error (.unopenable path), tree)
    else
      match tree.entry? place with
      | none =>
        if file.rights = .create then (openFresh file path place, tree.put place (.text ""))
        else (.error (.unopenable path), tree)
      | some (.text content) =>
        if countsAsEmpty content then (openFresh file path place, tree)
        else (.error (.unopenable path), tree)
      | some (.database database logged) => (openKept file path place database logged, tree)
      | some .directory => (.error (.unopenable path), tree)

/-- Opens the database of a path, before its schema is looked at. -/
def locate (tree : FileTree) (path : String) : Except Failure OpenDatabase × FileTree :=
  match Location.ofPath path with
  | .error failure => (.error failure, tree)
  | .ok .transient => (.ok ⟨none, true, .empty⟩, tree)
  | .ok .scattered => (.error .database, tree)
  | .ok (.file file) => tree.openFile file path

/-- Opens the database of a path and brings its schema up to date. -/
def openDatabase (tree : FileTree) (path : String) (now : Int64) :
    Except Failure OpenDatabase × FileTree :=
  match tree.prepareDirectory path with
  | (.error failure, tree) => (.error failure, tree)
  | (.ok (), tree) =>
    match tree.locate path with
    | (.error failure, tree) => (.error failure, tree)
    | (.ok opened, tree) =>
      let (outcome, database) := opened.database.migrate now
      let opened := { opened with database }
      match outcome with
      | .ok _ => (.ok opened, tree.save opened)
      | .error failure => (.error (.migration failure), tree.save opened)

end FileTree

end FeedbackBoard
