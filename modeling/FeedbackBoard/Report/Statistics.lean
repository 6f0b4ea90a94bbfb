import FeedbackBoard.Database.Statement
import FeedbackBoard.Report.Table

/-!
# Statistics

A summary of what a database holds: how many rows of which kinds, from how many
users, when the last of them changed, and what the ratings of each model are.
Every row that is a rating is counted for its model, also where reviews would
pass it over.  The database tells models apart by their code points, and only names
that are texts can be shown.

Main definitions:

- `Overview`, `KindLine`, `ModelLine`: the parts of the summary.
- `Overview.ofRows`, `kindLines`, `modelLines?`: the parts of the rows of a database.
- `ModelLine.name?`: the name of a model as it is shown.
- `overviewText`, `lastUpdateLine`, `kindText`, `modelText`: their texts.
-/

namespace FeedbackBoard

/-! ## Counting -/

/-- What concerns all rows. -/
structure Overview where
  rows : Nat
  users : Nat
  lastUpdate : Option Int64
deriving DecidableEq

/-- The later of two times. -/
def laterTime (a b : Int64) : Int64 :=
  if a.toInt ≤ b.toInt then b else a

/-- The overview of rows. -/
def Overview.ofRows (rows : List StoredRow) : Overview where
  rows := rows.length
  users := (rows.map StoredRow.userId).eraseDups.length
  lastUpdate := rows.foldl (fun last row =>
    some (match last with
      | none => row.updatedAt
      | some time => laterTime time row.updatedAt)) none

/-- How many rows are of a kind. -/
structure KindLine where
  kind : String
  rows : Nat
deriving DecidableEq, Repr

/-- The kinds of the rows: the most frequent first, and equally frequent ones by name. -/
def kindLines (rows : List StoredRow) : List KindLine :=
  let kinds := (rows.map StoredRow.kind).eraseDups
  (kinds.map fun kind => { kind, rows := rows.countP fun row => row.kind == kind }).mergeSort
    fun a b => ((compare b.rows a.rows).then (compare a.kind b.kind)).isLE

/-- What a rating says in a summary: the texts of its model and of its vote. -/
structure RatingTexts where
  model : Option CodePoints
  vote : Option CodePoints
deriving DecidableEq, Repr

/-- The texts of a row; none if its data are no JSON text. -/
def RatingTexts.ofRow? (row : StoredRow) : Option RatingTexts :=
  match row.dataMember? "model_id", row.dataMember? "rating" with
  | some model, some vote => some { model := model.text?, vote := vote.text? }
  | _, _ => none

/-- The ratings of a model; ratings without a model are a group of their own. -/
structure ModelLine where
  model : Option CodePoints
  rows : Nat
  up : Nat
  down : Nat
deriving DecidableEq, Repr

/-- The line of a model among the texts of all ratings. -/
def ModelLine.ofTexts (texts : List RatingTexts) (model : Option CodePoints) : ModelLine :=
  let own := texts.filter fun entry => entry.model == model
  { model
    rows := own.length
    up := own.countP fun entry => entry.vote == some (.ofString "1")
    down := own.countP fun entry => entry.vote == some (.ofString "-1") }

/-- The order of names, with a missing name before all others. -/
def compareNames : Option CodePoints → Option CodePoints → Ordering
  | none, none => .eq
  | none, some _ => .lt
  | some _, none => .gt
  | some a, some b => compare a b

/--
The models of all ratings: the most frequent first, and equally frequent ones by
name.  There are none if the data of a rating are no JSON text.
-/
def modelLines? (rows : List StoredRow) : Option (List ModelLine) :=
  match (rows.filter fun row => row.kind == Feedback.ratingKind).mapM RatingTexts.ofRow? with
  | none => none
  | some texts =>
    let models := (texts.map RatingTexts.model).eraseDups
    some ((models.map (ModelLine.ofTexts texts)).mergeSort fun a b =>
      ((compare b.rows a.rows).then (compareNames a.model b.model)).isLE)

/-! ## Texts -/

/-- The overview of a database in a file of some size, up to the time of the last change. -/
def overviewText (path size : String) (overview : Overview) : String :=
  joinLines
    ["evalboard: feedback stats",
     "=========================",
     "",
     "  Database:    " ++ path,
     "  Size:        " ++ size,
     "",
     "  Feedback:    " ++ naturalText overview.rows,
     "  Users:       " ++ naturalText overview.users]

/-- The line of the last change. -/
def lastUpdateLine (text : String) : String :=
  joinLines ["  Last update: " ++ text]

/-- The table of kinds; without rows there is none. -/
def kindText (lines : List KindLine) : String :=
  if lines.isEmpty then ""
  else
    joinLines (["", "  By type:"] ++ lines.map fun line =>
      "    " ++ padRight 20 line.kind ++ " " ++ padLeft 8 (naturalText line.rows))

/-- A line of the table of models. -/
def modelLineText (model rows up down : String) : String :=
  "    " ++ padRight 40 model ++ " " ++ padLeft 6 rows ++ " " ++ padLeft 6 up ++ " " ++
    padLeft 6 down

/-- The name in the line of a model; there is none if half of a pair stands alone in it. -/
def ModelLine.name? (line : ModelLine) : Option String :=
  match line.model with
  | none => some "(none)"
  | some codes => codes.text?

/-- The lines of the table of models, up to the first one whose name cannot be shown. -/
def modelLineTexts : List ModelLine → List String
  | [] => []
  | line :: rest =>
    match line.name? with
    | none => []
    | some name =>
      modelLineText name (naturalText line.rows) (naturalText line.up) (naturalText line.down) ::
        modelLineTexts rest

/-- The table of models, as far as it can be shown; without ratings there is none. -/
def modelText (lines : List ModelLine) : String :=
  if lines.isEmpty then ""
  else
    joinLines (["", "  By model:", modelLineText "MODEL" "ROWS" "UP" "DOWN", "    " ++ dashes 60] ++
      modelLineTexts lines)

end FeedbackBoard
