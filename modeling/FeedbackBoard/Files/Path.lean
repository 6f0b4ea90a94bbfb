/-!
# Paths

A path is a list of names with slashes between them.  A single point stands for
the same directory and two points for the one above.

Main definitions:

- `Path.steps`: the names of a path.
- `Path.parent?`: the path of the directory that a path lies in.
- `Path.namesDirectory`: whether a path can only be a directory's.
- `Path.hasZero`, `Path.isTooLong`: why nothing can have a path or a name.
-/

namespace FeedbackBoard.Path

/-! ## Names -/

/-- What stands between the slashes of a path. -/
def segments (path : List Char) : List (List Char) :=
  path.splitOn '/'

/-- Whether a segment says nothing: an empty one, or a single point. -/
def isSilent (segment : List Char) : Bool :=
  segment == [] || segment == ['.']

/-- The names of a path, in which two points may be one. -/
def steps (path : String) : List String :=
  ((segments path.toList).filter fun segment => !isSilent segment).map String.ofList

/-- Whether the path begins at the root. -/
def isAbsolute (path : String) : Bool :=
  path.toList.head? == some '/'

/-- Whether the path can only be a directory's, since its last segment is no name. -/
def namesDirectory (path : String) : Bool :=
  ((segments path.toList).getLast?.map isSilent).getD true

/-- Whether the path has a zero in it, so that nothing can have it. -/
def hasZero (path : String) : Bool :=
  path.toList.contains '\x00'

/-- The greatest number of bytes of a name. -/
def longestName : Nat := 255

/-- Whether the name has too many bytes. -/
def isTooLong (name : String) : Bool :=
  decide (longestName < name.utf8ByteSize)

/-! ## Directories -/

/-- The segments without the silent ones at their end. -/
def trimSilent (segments : List (List Char)) : List (List Char) :=
  (segments.reverse.dropWhile isSilent).reverse

/-- The beginning of a path that stands for its start: the root, or a leading point. -/
def startMark (path : List Char) : List Char :=
  match path with
  | '/' :: _ => ['/']
  | ['.'] => ['.']
  | '.' :: '/' :: _ => ['.']
  | _ => []

/--
The path of the directory that the path lies in, as it is written there.  The
root and the empty path lie in none, a single point lies in the empty path.
-/
def parent? (path : String) : Option String :=
  let mark := startMark path.toList
  match trimSilent (segments (path.toList.drop mark.length)) with
  | [] => if mark = ['.'] then some "" else none
  | names => some (String.ofList (mark ++ List.intercalate ['/'] (trimSilent names.dropLast)))

end FeedbackBoard.Path
