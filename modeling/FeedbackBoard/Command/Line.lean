import FeedbackBoard.Access.Digest
import FeedbackBoard.Command.Arguments
import FeedbackBoard.Command.Run
import FeedbackBoard.Config.File

/-!
# The command line

A command line is read, the settings are loaded unless the command needs none,
and the command is run.  The exit code tells success, failure, or mistaken
arguments.

Main definitions:

- `loadSettings`: the settings of a file.
- `Command.run`: a command with its settings.
- `CommandResult`, `runCommandLine`: a whole command line.
-/

namespace FeedbackBoard

/-- The settings of a file, if they can be used. -/
def loadSettings (tree : FileTree) (path : String) : Except Failure Settings :=
  match tree.text? path with
  | none => .error (.unreadableSettings path)
  | some text =>
    match Settings.ofText? text with
    | none => .error .malformedSettings
    | some settings =>
      match settings.validate with
      | .ok () => .ok settings
      | .error error => .error (.badSettings error)

/-- A command with its settings; the size of the database is shown as given. -/
def Command.run (command : Command) (size : String) (settings : Settings) (now : Int64)
    (tree : FileTree) : Output × FileTree :=
  match command with
  | .init =>
    let (output, tree) := runInit settings now tree
    match output.failure with
    | none => (.print "Database initialized successfully.\n", tree)
    | some _ => (output, tree)
  | .serve => runServe settings now tree
  | .reviews json => runReviews json settings now tree
  | .stats => runStatistics size settings now tree
  | .exportRows output => runExport output settings now tree
  | .importRows file => runImport file settings now tree
  | .hashToken token => (.print (secretDigest token ++ "\n"), tree)

/-- What a command line prints, and its exit code. -/
structure CommandResult where
  code : Nat
  stdout : String
  stderr : String
deriving DecidableEq, Repr

/-- What is said about a failure on the command line. -/
def Failure.text (failure : Failure) : String :=
  match failure, failure.message? with
  | _, some message => message
  | .system cause, none => cause.message
  | _, none => "the database or the system refused"

/-- The result of a command; where a time or a name cannot be shown, nothing is said about it. -/
def CommandResult.ofOutput (output : Output) : CommandResult :=
  match output.failure with
  | none => ⟨0, output.stdout, output.stderr⟩
  | some .timeOverflow | some .illegibleModel => ⟨101, output.stdout, output.stderr⟩
  | some failure => ⟨1, output.stdout, output.stderr ++ "Error: " ++ failure.text ++ "\n"⟩

/-- The name and version that are told. -/
def versionText : String := "evalboard 0.3.0\n"

/-- A command with the path of its settings. -/
def Invocation.run (invocation : Invocation) (size : String) (now : Int64) (tree : FileTree) :
    Output × FileTree :=
  match invocation.command with
  | .hashToken token => (.print (secretDigest token ++ "\n"), tree)
  | command =>
    match loadSettings tree invocation.settingsPath with
    | .error failure => (.fail failure "", tree)
    | .ok settings => command.run size settings now tree

/-- A whole command line. -/
def runCommandLine (arguments : List String) (size : String) (now : Int64) (tree : FileTree) :
    CommandResult × FileTree :=
  match Arguments.parse arguments with
  | .mistaken => (⟨2, "", ""⟩, tree)
  | .help => (⟨0, "", ""⟩, tree)
  | .version => (⟨0, versionText, ""⟩, tree)
  | .run invocation =>
    let (output, tree) := invocation.run size now tree
    (.ofOutput output, tree)

end FeedbackBoard
