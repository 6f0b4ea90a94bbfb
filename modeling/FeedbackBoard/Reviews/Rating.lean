import FeedbackBoard.Feedback.Basic
import FeedbackBoard.Json.Number

/-!
# Ratings

A rating says whether a user liked an answer.  It is read from the payload of a
row, where it is the text `1` or `-1`, or one of these integers.

Main definitions:

- `Rating`, `Rating.ofText?`, `Rating.ofValue?`: ratings and their spellings.
- `Vote`, `Vote.ofPayload?`: a rating and the model that it is for.
-/

namespace FeedbackBoard

/-- Whether a user liked an answer. -/
inductive Rating
  | positive
  | negative
deriving DecidableEq, Repr

namespace Rating

/-- The rating that a text spells. -/
def ofText? (text : String) : Option Rating :=
  if text = "1" then some positive
  else if text = "-1" then some negative
  else none

/-- The rating that a value spells: texts as they are, and integers by their digits. -/
def ofValue? : Option Json.Value → Option Rating
  | some (.string text) => ofText? text
  | some (.number (.integer n _ _)) => ofText? (String.ofList (Json.integerText n))
  | _ => none

end Rating

/-- A rating of a model. -/
structure Vote where
  model : String
  rating : Rating
deriving DecidableEq, Repr

/-- The vote of a payload: an object that names a model and holds a rating. -/
def Vote.ofPayload? (payload : Feedback.Payload) : Option Vote :=
  match payload.data with
  | some (.object members) =>
    match members.lookup "model_id", Rating.ofValue? (members.lookup "rating") with
    | some (.string model), some rating => if model = "" then none else some { model, rating }
    | _, _ => none
  | _ => none

end FeedbackBoard
