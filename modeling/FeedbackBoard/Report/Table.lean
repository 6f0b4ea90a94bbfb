import FeedbackBoard.Report.Calendar
import FeedbackBoard.Reviews.Leaderboard

/-!
# Tables

Cells of a table are padded with spaces to the width of their column; a cell
that is wider stays as it is.  The leaderboard is shown as a table with the rank
of every line.

Main definitions:

- `padRight`, `padLeft`: a cell at the left or right of its column.
- `joinLines`: lines, each with its end.
- `leaderboardTable`: the leaderboard with a rank in front of each line.
-/

namespace FeedbackBoard

/-! ## Columns -/

/-- The text with spaces after it, up to a width. -/
def padRight (width : Nat) (text : String) : String :=
  text ++ String.ofList (List.replicate (width - text.toList.length) ' ')

/-- The text with spaces before it, up to a width. -/
def padLeft (width : Nat) (text : String) : String :=
  String.ofList (List.replicate (width - text.toList.length) ' ') ++ text

/-- A rule of dashes. -/
def dashes (width : Nat) : String :=
  String.ofList (List.replicate width '-')

/-- Lines, each with its end. -/
def joinLines (lines : List String) : String :=
  String.join (lines.map fun line => line ++ "\n")

/-! ## The leaderboard -/

/-- A line of the table. -/
def rankedLine (rank model score total up down : String) : String :=
  padLeft 4 rank ++ "  " ++ padRight 40 model ++ " " ++ padLeft 7 score ++ " " ++
    padLeft 6 total ++ " " ++ padLeft 6 up ++ " " ++ padLeft 6 down

/-- A score with four places. -/
def scoreText (score : Binary64) : String :=
  (if score.negative then "-" else "") ++
    String.ofList (fixedPlaces 4 (Binary64.units score.rank) Binary64.one)

/-- The lines of the table from a rank on. -/
def rankedLines : (rank : Nat) → List Standing → List String
  | _, [] => []
  | rank, line :: rest =>
    rankedLine (naturalText rank) line.model (scoreText line.score) (naturalText line.total)
      (naturalText line.positive) (naturalText line.negative) :: rankedLines (rank + 1) rest

/-- The leaderboard with a rank in front of each line. -/
def leaderboardTable (lines : List Standing) : String :=
  if lines.isEmpty then "No rated feedback yet.\n"
  else
    joinLines ([rankedLine "RANK" "MODEL" "SCORE" "TOTAL" "UP" "DOWN", "  " ++ dashes 78] ++
      rankedLines 1 lines)

end FeedbackBoard
