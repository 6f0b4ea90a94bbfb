import FeedbackBoard.Command.Open
import FeedbackBoard.Report.Statistics

/-!
# Commands

What the commands print and which files they change.

Main definitions:

- `Output`: what a command prints, and why it fails if it does.
- `runInit`, `runReviews`, `runStatistics`, `runExport`, `runImport`, `runServe`: the commands.
-/

namespace FeedbackBoard

/-- What a command prints, and why it fails if it does. -/
structure Output where
  stdout : String
  stderr : String
  failure : Option Failure
deriving DecidableEq

namespace Output

/-- A command that prints something. -/
def print (text : String) : Output := ⟨text, "", none⟩

/-- A command that tells something without printing it. -/
def tell (text : String) : Output := ⟨"", text, none⟩

/-- A command that fails, after it has printed something. -/
def fail (failure : Failure) (printed : String) : Output := ⟨printed, "", some failure⟩

end Output

/-- Does something with the database of the settings. -/
def withDatabase (settings : Settings) (now : Int64) (tree : FileTree)
    (act : OpenDatabase → FileTree → Output × FileTree) : Output × FileTree :=
  let (opened, tree) := tree.openDatabase settings.databasePath now
  match opened with
  | .error failure => (.fail failure "", tree)
  | .ok opened => act opened tree

/-- Makes the database and brings its schema up to date. -/
def runInit (settings : Settings) (now : Int64) (tree : FileTree) : Output × FileTree :=
  withDatabase settings now tree fun _ tree => (.print "", tree)

/-- Opens the database and fails to listen. -/
def runServe (settings : Settings) (now : Int64) (tree : FileTree) : Output × FileTree :=
  withDatabase settings now tree fun _ tree => (.fail .cannotListen "", tree)

/-- The leaderboard of a database, as JSON or as a table. -/
def reviewsOutput (json : Bool) (store : Store) : Output :=
  match store.standings with
  | .error error => .fail (.ofStore error) ""
  | .ok lines =>
    if json then .print (Json.toIndentedText (Leaderboard.mk lines) ++ "\n")
    else .print (leaderboardTable lines)

/-- Prints the leaderboard. -/
def runReviews (json : Bool) (settings : Settings) (now : Int64) (tree : FileTree) :
    Output × FileTree :=
  withDatabase settings now tree fun opened tree =>
    (reviewsOutput json (.database opened.database), tree)

/-! ## Statistics -/

/-- How the time of the last change is shown. -/
def lastUpdateText (now : Int64) (time : Option Int64) : Except TimeOverflow String :=
  match time with
  | none => .ok "never"
  | some time => ageText now.toInt time.toInt

/--
The statistics of a database in a file of some size.  They end early if the time of the
last change cannot be shown, if the data of a rating are no JSON text, or at the first model
whose name cannot be shown.
-/
def statisticsOutput (path size : String) (now : Int64) (database : Database) : Output :=
  if database.isReady then
    let overview := Overview.ofRows database.rows
    let beginning := overviewText path size overview
    match lastUpdateText now overview.lastUpdate with
    | .error _ => .fail .timeOverflow beginning
    | .ok last =>
      let kinds := beginning ++ lastUpdateLine last ++ kindText (kindLines database.rows)
      match modelLines? database.rows with
      | none => .fail .database kinds
      | some models =>
        if ∀ line ∈ models, line.name?.isSome then .print (kinds ++ modelText models ++ "\n")
        else .fail .illegibleModel (kinds ++ modelText models)
  else .fail .database ""

/-- Prints the statistics. -/
def runStatistics (size : String) (settings : Settings) (now : Int64) (tree : FileTree) :
    Output × FileTree :=
  withDatabase settings now tree fun opened tree =>
    (statisticsOutput settings.databasePath size now opened.database, tree)

/-! ## Export and import -/

/-- The text of an export. -/
def exportText (rows : List Feedback) : String :=
  Json.toIndentedText rows

/-- Makes the directory that an export is written into. -/
def prepareExport (tree : FileTree) (path : String) : Except DirectoryFailure Unit × FileTree :=
  match Path.parent? path with
  | none => (.ok (), tree)
  | some parent => tree.makeDirectories parent

/-- Writes an export into a file. -/
def writeExport (rows : List Feedback) (path : String) (tree : FileTree) : Output × FileTree :=
  match prepareExport tree path with
  | (.error failure, tree) => (.fail (.system failure) "", tree)
  | (.ok (), tree) =>
    match tree.write? path (.text (exportText rows)) with
    | none => (.fail (.unwritable path) "", tree)
    | some tree =>
      (.tell ("Exported " ++ naturalText rows.length ++ " feedback rows to " ++ path ++ "\n"), tree)

/-- Writes all rows into a file, or prints them. -/
def runExport (output : Option String) (settings : Settings) (now : Int64) (tree : FileTree) :
    Output × FileTree :=
  withDatabase settings now tree fun opened tree =>
    match (Store.database opened.database).newest with
    | .error error => (.fail (.ofStore error) "", tree)
    | .ok rows =>
      match output with
      | none => (.print (exportText rows ++ "\n"), tree)
      | some path => writeExport rows path tree

/-- The rows of an export. -/
def readExport (text : String) : Option (List Feedback) :=
  (Json.ofText text).toOption

/-- The database of a store that is kept in one. -/
def Store.database? : Store → Option Database
  | memory _ => none
  | database db => some db

/-- Stores rows in an opened database; one that may only be read refuses them. -/
def importInto (opened : OpenDatabase) (rows : List Feedback) :
    Except Failure (Nat × OpenDatabase) :=
  match (Store.database opened.database).importAll rows with
  | (.error error, _) => .error (.ofStore error)
  | (.ok count, store) =>
    if opened.writable || rows.isEmpty then
      .ok (count, { opened with database := store.database?.getD opened.database })
    else .error .database

/-- Stores the rows of an export. -/
def runImport (file : String) (settings : Settings) (now : Int64) (tree : FileTree) :
    Output × FileTree :=
  match tree.text? file with
  | none => (.fail (.unreadable file) "", tree)
  | some text =>
    match readExport text with
    | none => (.fail (.noExport file) "", tree)
    | some rows =>
      withDatabase settings now tree fun opened tree =>
        match importInto opened rows with
        | .error failure => (.fail failure "", tree)
        | .ok (count, opened) =>
          (.print ("Imported " ++ naturalText count ++ " feedback rows.\n"), tree.save opened)

end FeedbackBoard
