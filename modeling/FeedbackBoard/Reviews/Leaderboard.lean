import FeedbackBoard.Feedback.Wire
import FeedbackBoard.Reviews.Rating
import FeedbackBoard.Reviews.Score

/-!
# The leaderboard

Votes are counted for each model, and the models are ranked by their rounded
scores.  Models with equal scores follow in the order of their names, so the
leaderboard does not depend on the order of the votes.

Main definitions:

- `Tally`: the votes of each model.
- `Standing`: a line of the leaderboard.
- `leaderboard`: the ranked lines.
-/

namespace FeedbackBoard

/-! ## Counting -/

/-- The votes for a model. -/
structure Votes where
  positive : Nat
  negative : Nat
deriving DecidableEq, Repr

namespace Votes

/-- No votes. -/
def zero : Votes := ⟨0, 0⟩

/-- The votes with one more. -/
def add (votes : Votes) : Rating → Votes
  | .positive => { votes with positive := votes.positive + 1 }
  | .negative => { votes with negative := votes.negative + 1 }

/-- How many votes there are. -/
def total (votes : Votes) : Nat :=
  votes.positive + votes.negative

end Votes

/-- The votes of each model, in ascending order of the models' names. -/
abbrev Tally := List (String × Votes)

/-- Counts a rating of a model. -/
def Tally.add (model : String) (rating : Rating) : Tally → Tally
  | [] => [(model, Votes.zero.add rating)]
  | (other, votes) :: rest =>
    if model < other then (model, Votes.zero.add rating) :: (other, votes) :: rest
    else if model = other then (other, votes.add rating) :: rest
    else (other, votes) :: Tally.add model rating rest

/-- The votes of all payloads; those without a vote are passed over. -/
def Tally.ofPayloads (payloads : List Feedback.Payload) : Tally :=
  (payloads.filterMap Vote.ofPayload?).foldl (fun tally vote => tally.add vote.model vote.rating) []

/-! ## Ranking -/

/-- A line of the leaderboard. -/
structure Standing where
  model : String
  score : Binary64
  total : Nat
  positive : Nat
  negative : Nat
deriving DecidableEq

/-- The line of a model with these votes. -/
def Standing.ofVotes (model : String) (votes : Votes) : Standing where
  model := model
  score := leaderboardScore votes.positive votes.total
  total := votes.total
  positive := votes.positive
  negative := votes.negative

/-- The order of the lines: by descending score, then by ascending name. -/
def Standing.order (a b : Standing) : Ordering :=
  (Binary64.totalOrder b.score a.score).then (compare a.model b.model)

/-- The ranked lines of all models that have a vote. -/
def leaderboard (payloads : List Feedback.Payload) : List Standing :=
  ((Tally.ofPayloads payloads).map fun (model, votes) => Standing.ofVotes model votes).mergeSort
    fun a b => (Standing.order a b).isLE

/-! ## JSON forms -/

/-- The fields of a line. -/
inductive Standing.Entry
  | model
  | score
  | total
  | positive
  | negative
deriving DecidableEq, Repr

/-- The format of a line. -/
def Standing.format : Json.RecordFormat Standing where
  name := "ReviewEntry"
  Field := Standing.Entry
  decEq := inferInstance
  order := [.model, .score, .total, .positive, .negative]
  key
    | .model => "model_id"
    | .score => "score"
    | .total => "total"
    | .positive => "positive"
    | .negative => "negative"
  Carrier
    | .model => String
    | .score => Binary64
    | .total | .positive | .negative => Nat
  form
    | .model => inferInstanceAs (Json.Wire String)
    | .score => inferInstanceAs (Json.Wire Binary64)
    | .total | .positive | .negative => inferInstanceAs (Json.Wire Nat)
  absence _ := .required
  build field := do
    let model ← field .model
    let score ← field .score
    let total ← field .total
    let positive ← field .positive
    let negative ← field .negative
    return { model, score, total, positive, negative }
  get line
    | .model => line.model
    | .score => line.score
    | .total => line.total
    | .positive => line.positive
    | .negative => line.negative

instance : Json.Wire Standing := Standing.format.wire

/-- The leaderboard as it is sent. -/
structure Leaderboard where
  entries : List Standing

/-- The format of the leaderboard. -/
def Leaderboard.format : Json.RecordFormat Leaderboard where
  name := "ReviewsResponse"
  Field := Unit
  decEq := inferInstance
  order := [()]
  key _ := "entries"
  Carrier _ := List Standing
  form _ := inferInstance
  absence _ := .required
  build field := do
    let entries ← field ()
    return { entries }
  get board _ := board.entries

instance : Json.Wire Leaderboard := Leaderboard.format.wire

end FeedbackBoard
