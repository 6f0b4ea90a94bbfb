import FeedbackBoard.Command.Workspace
import Std.Time.DateTime.Timestamp

/-!
# The program

Loads the files that a command line looks at, runs it, and saves what it has
changed.
-/

namespace FeedbackBoard

/-- What lies at a path, if it can be read. -/
def readEntry? (path : String) : IO (Option FileEntry) := do
  let file := (← IO.currentDir) / path
  if ← file.isDir then return some .directory
  try return some (.text (← IO.FS.readFile file))
  catch _ => return none

/-- Puts what lies at a path into a tree. -/
def loadPath (path : String) (tree : FileTree) : IO FileTree := do
  match ← readEntry? path with
  | some entry => return tree.load path entry
  | none => return tree

/-- Makes a directory, or writes a file. -/
def saveChange (change : String × Option String) : IO Unit :=
  match change with
  | (path, none) => IO.FS.createDirAll path
  | (path, some text) => IO.FS.writeFile path text

/-- The tree that a command line works on, and the size of its database. -/
def loadTree (arguments : Arguments) (now : Int64) : IO (FileTree × Nat) := do
  let mut tree := FileTree.empty
  for path in arguments.outerPaths do
    tree ← loadPath path tree
  match arguments.databaseFile? tree with
  | none => return (tree, 0)
  | some path =>
    match ← readEntry? path with
    | some (.text text) =>
      return (tree.load path (.ofDatabaseText now text), text.utf8ByteSize)
    | some entry => return (tree.load path entry, 0)
    | none => return (tree, 0)

/-- Runs a command line; the answer is its exit code. -/
def runProgram (args : List String) : IO UInt32 := do
  let now := Int64.ofInt (← Std.Time.Timestamp.now).toSecondsSinceUnixEpoch.val
  let (before, size) ← loadTree (.parse args) now
  let (result, after) := runCommandLine args (sizeText size) now before
  (after.changesSince before).forM saveChange
  IO.print result.stdout
  IO.eprint result.stderr
  return UInt32.ofNat result.code

end FeedbackBoard

/-- The program. -/
def main (args : List String) : IO UInt32 :=
  FeedbackBoard.runProgram args
