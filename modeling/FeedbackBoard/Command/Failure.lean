import FeedbackBoard.Config.Settings
import FeedbackBoard.Files.Tree
import FeedbackBoard.Report.Calendar
import FeedbackBoard.Store.Basic

/-!
# Failures of commands

Main definitions:

- `Failure`: why a command fails.
- `Failure.message?`: what is said about it; failures of the database and of the system speak for
  themselves.
-/

namespace FeedbackBoard

/-- Why a command fails. -/
inductive Failure
  | unreadableSettings (path : String)
  | malformedSettings
  | badSettings (error : SettingsError)
  | noDirectory (path : String)
  | unopenable (path : String)
  | unreadable (path : String)
  | noExport (path : String)
  | unwritable (path : String)
  | migration (failure : MigrationFailure)
  | blankKey
  | database
  | system (failure : DirectoryFailure)
  | timeOverflow
  | illegibleModel
  | cannotListen
deriving DecidableEq, Repr

/-- The message of a row without an id or a user. -/
def blankKeyMessage : String :=
  "feedback rows must have a non-empty id and user_id"

/-- What is said about a failure. -/
def Failure.message? : Failure → Option String
  | unreadableSettings path => some ("Failed to read config file: " ++ path)
  | malformedSettings => some "Failed to parse config file"
  | badSettings error => some error.message
  | noDirectory path => some ("Failed to create " ++ path)
  | unopenable path => some ("Failed to open database " ++ path)
  | unreadable path => some ("Failed to read " ++ path)
  | noExport path => some (path ++ " is not a feedback export")
  | unwritable path => some ("Failed to write " ++ path)
  | migration failure => some failure.message
  | blankKey => some blankKeyMessage
  | database | system _ | timeOverflow | illegibleModel | cannotListen => none

/-- A failure of the store as a failure of a command. -/
def Failure.ofStore : StoreError → Failure
  | .refused => .database
  | .blankKey => .blankKey

end FeedbackBoard
