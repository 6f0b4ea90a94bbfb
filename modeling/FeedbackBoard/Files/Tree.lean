import FeedbackBoard.Database.Statement
import FeedbackBoard.Files.Path

/-!
# Files

The files of a workspace: texts, databases and the directories that they lie in.

Main definitions:

- `FileTree`: the files by their places.
- `FileTree.text?`: the text of a file.
- `FileTree.makeDirectories`: makes a directory and all directories above it.
- `FileTree.write?`: writes a text into a file.
- `FileTree.plainPlace?`: the place of a path whose directories need not be there.
-/

namespace FeedbackBoard

/-- What lies at a place. -/
inductive FileEntry
  | directory
  | text (content : String)
  /-- A database, and whether its changes are collected in a log beside it. -/
  | database (db : Database) (logged : Bool)

/-- A place: the names that lead to it, from the workspace or from the root. -/
abbrev Place := List String

/-- The place above another; nothing is above the root. -/
def Place.above (place : Place) : Place :=
  if place = ["/"] then place
  else if place.all (· == "..") then place ++ [".."]
  else place.dropLast

/-- The path of a place. -/
def Place.path (place : Place) : String :=
  match place with
  | "/" :: names => "/" ++ "/".intercalate names
  | names => "/".intercalate names

/-- The files by their places. -/
structure FileTree where
  entries : List (Place × FileEntry)

/-- Why a directory cannot be made. -/
inductive DirectoryFailure
  | exists
  | noDirectory
  | nameTooLong
  | zeroInPath
deriving DecidableEq, Repr

/-- The message of such a failure. -/
def DirectoryFailure.message : DirectoryFailure → String
  | .exists => "File exists (os error 17)"
  | .noDirectory => "Not a directory (os error 20)"
  | .nameTooLong => "File name too long (os error 36)"
  | .zeroInPath => "file name contained an unexpected NUL byte"

namespace FileTree

/-- No files. -/
def empty : FileTree := ⟨[]⟩

/-- What lies at a place; the workspace, what is above it and the root are directories. -/
def entry? (tree : FileTree) (place : Place) : Option FileEntry :=
  if place.all (· == "..") ∨ place = ["/"] then some .directory else tree.entries.lookup place

/-- Whether a directory lies at a place. -/
def isDirectory (tree : FileTree) (place : Place) : Bool :=
  match tree.entry? place with
  | some .directory => true
  | _ => false

/-- Whether something other than a directory lies at a place. -/
def isFile (tree : FileTree) (place : Place) : Bool :=
  (tree.entry? place).isSome && !tree.isDirectory place

/-- Puts something at a place. -/
def put (tree : FileTree) (place : Place) (entry : FileEntry) : FileTree :=
  ⟨(place, entry) :: tree.entries.filter fun other => other.1 != place⟩

/-! ## Places -/

/-- The place where a path begins. -/
def start (path : String) : Place :=
  if Path.isAbsolute path then ["/"] else []

/-- The place that names lead to; all names but the last have to be directories'. -/
def follow? (tree : FileTree) (place : Place) : List String → Option Place
  | [] => some place
  | name :: rest =>
    if tree.isDirectory place && !Path.isTooLong name then
      follow? tree (if name = ".." then place.above else place ++ [name]) rest
    else none

/-- The place of a path, whose directory has to be there. -/
def place? (tree : FileTree) (path : String) : Option Place :=
  if path = "" || Path.hasZero path then none else tree.follow? (start path) (Path.steps path)

/-- The place that names lead to by themselves; no name may lie below a file. -/
def followPlainly? (tree : FileTree) (place : Place) : List String → Option Place
  | [] => some place
  | name :: rest =>
    if name = ".." then followPlainly? tree place.above rest
    else if tree.isFile place || Path.isTooLong name then none
    else followPlainly? tree (place ++ [name]) rest

/--
The place of a path where a file lies or can be made.  Two points cancel the
name before them, whether there is such a directory or not.
-/
def plainPlace? (tree : FileTree) (path : String) : Option Place :=
  match tree.followPlainly? (start path) (Path.steps path) with
  | some place =>
    if tree.isDirectory place.above && !tree.isDirectory place then some place else none
  | none => none

/-! ## Texts -/

/-- The text of a file. -/
def text? (tree : FileTree) (path : String) : Option String :=
  if Path.namesDirectory path then none
  else
    match (tree.place? path).bind tree.entry? with
    | some (.text content) => some content
    | _ => none

/-- Puts something at the place of a path, if a file can lie there. -/
def write? (tree : FileTree) (path : String) (entry : FileEntry) : Option FileTree :=
  if Path.namesDirectory path then none
  else
    match tree.place? path with
    | none => none
    | some place => if tree.isDirectory place then none else some (tree.put place entry)

/-! ## Directories -/

/-- Makes the directories that names lead to, up to the first that cannot be made. -/
def makeSteps (tree : FileTree) (place : Place) :
    List String → Except DirectoryFailure Unit × FileTree
  | [] => (.ok (), tree)
  | name :: rest =>
    if name = ".." then makeSteps tree place.above rest
    else
      let next := place ++ [name]
      match tree.entry? next with
      | some .directory => makeSteps tree next rest
      | some _ => (.error (if rest.isEmpty then .exists else .noDirectory), tree)
      | none =>
        if Path.isTooLong name then (.error .nameTooLong, tree)
        else makeSteps (tree.put next .directory) next rest

/-- Makes a directory and all directories above it. -/
def makeDirectories (tree : FileTree) (path : String) : Except DirectoryFailure Unit × FileTree :=
  if Path.hasZero path then (.error .zeroInPath, tree)
  else tree.makeSteps (start path) (Path.steps path)

end FileTree

end FeedbackBoard
