import FeedbackBoard.Binary64.Basic

/-!
# Scores

The score of a model is its share of positive votes, smoothed toward one half
and blended with a neutral score that counts as much as ten votes.  A model with
few votes therefore stays close to one half.

All operations are binary64 operations: exact, then rounded once.

Main definitions:

- `confidence`: the score of `positive` votes out of `total`.
- `rounded`: a score with four places, a half going up.
-/

namespace FeedbackBoard

/-- How many votes the neutral score counts as much as. -/
def priorWeight : Nat := 10

/-- The score of a model without votes. -/
def neutralRank : Nat :=
  Binary64.ratioRank 1 2

/-- The share of positive votes, smoothed toward one half. -/
def smoothedRank (positive total : Nat) : Nat :=
  Binary64.quotientRank
    (Binary64.sumRank (Binary64.naturalRank positive) (Binary64.ratioRank 1 2))
    (Binary64.sumRank (Binary64.naturalRank total) (Binary64.naturalRank 1))

/-- The score of `positive` votes out of `total`. -/
def confidenceRank (positive total : Nat) : Nat :=
  let votes := Binary64.naturalRank total
  let prior := Binary64.naturalRank priorWeight
  let all := Binary64.sumRank votes prior
  Binary64.sumRank
    (Binary64.productRank (Binary64.quotientRank votes all) (smoothedRank positive total))
    (Binary64.productRank (Binary64.quotientRank prior all) neutralRank)

/-- The score of `positive` votes out of `total`, as a number. -/
def confidence (positive total : Nat) : Binary64 :=
  Binary64.ofRank false (confidenceRank positive total)

/-- How many steps of a rounded score make one. -/
def scoreSteps : Nat := 10000

/-- The nearest whole number, a half going up. -/
def nearestWhole (rank : Nat) : Nat :=
  (2 * Binary64.units rank + Binary64.one) / (2 * Binary64.one)

/-- The score with four places. -/
def roundedRank (rank : Nat) : Nat :=
  let steps := Binary64.naturalRank scoreSteps
  Binary64.quotientRank
    (Binary64.naturalRank (nearestWhole (Binary64.productRank rank steps))) steps

/-- The score on the leaderboard, with four places. -/
def leaderboardScore (positive total : Nat) : Binary64 :=
  Binary64.ofRank false (roundedRank (confidenceRank positive total))

end FeedbackBoard
