import FeedbackBoard.Toml.Line

/-!
# TOML documents

The lines of a settings file make up one table.  A table may be begun once, also
if it was implied by a longer path before, and a key may get a value once.

Main definitions:

- `Toml.Tree`: a document that is being put together.
- `Toml.Tree.take?`: takes the next line.
- `Toml.ofText?`: the table of a text.
-/

namespace FeedbackBoard.Toml

/-- Applies a change to the table at the end of a path; tables on the way are made where they are missing. -/
def changeAt (change : List (String × Item) → Option (List (String × Item))) :
    List String → List (String × Item) → Option (List (String × Item))
  | [], entries => change entries
  | name :: path, entries =>
    match entries.lookup name with
    | none =>
      (changeAt change path []).map fun inner => entries ++ [(name, .table true false inner)]
    | some (.table implied dotted inner) =>
      (changeAt change path inner).map fun inner =>
        setEntry name (.table implied dotted inner) entries
    | some (.tables (latest :: earlier)) =>
      (changeAt change path latest).map fun latest =>
        setEntry name (.tables (latest :: earlier)) entries
    | some _ => none

/-- A document that is being put together: all entries, and the path of the table that lines belong to. -/
structure Tree where
  root : List (String × Item)
  current : List String

/-- Begins a table, unless it has been begun or is something else. -/
def beginTable (name : String) (entries : List (String × Item)) : Option (List (String × Item)) :=
  match entries.lookup name with
  | none => some (entries ++ [(name, .table false false [])])
  | some (.table true false inner) => some (setEntry name (.table false false inner) entries)
  | some _ => none

/-- Begins a further table of an array, unless its name is something else. -/
def beginFurther (name : String) (entries : List (String × Item)) :
    Option (List (String × Item)) :=
  match entries.lookup name with
  | none => some (entries ++ [(name, .tables [[]])])
  | some (.tables earlier) => some (setEntry name (.tables ([] :: earlier)) entries)
  | some _ => none

/-- Takes the next line. -/
def Tree.take? (tree : Tree) : Line → Option Tree
  | .entry path value =>
    (changeAt (assign value path) tree.current tree.root).map fun root => { tree with root }
  | .table path =>
    (changeAt (beginTable (path.getLastD "")) path.dropLast tree.root).map fun root =>
      { root, current := path }
  | .further path =>
    (changeAt (beginFurther (path.getLastD "")) path.dropLast tree.root).map fun root =>
      { root, current := path }

/-- The table of a text. -/
def ofText? (text : String) : Option Value :=
  match readLines? text with
  | none => none
  | some lines =>
    match lines.foldlM Tree.take? ⟨[], []⟩ with
    | none => none
    | some tree => some (.table (Item.finishEntries tree.root))

end FeedbackBoard.Toml
