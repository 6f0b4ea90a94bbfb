import FeedbackBoard.Proofs.Binary64.Order
import FeedbackBoard.Proofs.Json.Digits
import FeedbackBoard.Proofs.Reviews.Counting
import FeedbackBoard.Proofs.Text.ByteOrder

/-!
# What the leaderboard says

The leaderboard is specified without the tally: which payloads rate which model
is read off their data, lines count such payloads, and the lines are strictly
ordered.  The specification leaves no choice, so it determines the leaderboard.

Main definitions:

- `Feedback.Payload.Rates`: a payload rates a model.
- `IsLeaderboard`: the lines that belong to a list of payloads.

Main results:

- `Vote.ofPayload?_eq_some_iff`: a vote is read exactly from a payload that rates.
- `IsLeaderboard.unique`: a list of payloads has one leaderboard.
- `leaderboard_spec`: it is the one that is computed, in whatever order the payloads come.
-/

namespace FeedbackBoard

/-! ## Usable payloads -/

/-- The values that spell a rating: the texts `1` and `-1`, and these integers. -/
inductive Rating.SpelledBy : Rating → Json.Value → Prop
  | text : SpelledBy .positive (.string "1")
  | negativeText : SpelledBy .negative (.string "-1")
  | integer (lower upper) : SpelledBy .positive (.number (.integer 1 lower upper))
  | negativeInteger (lower upper) : SpelledBy .negative (.number (.integer (-1) lower upper))

/-- A rating is read from the values that spell it, and from no other. -/
theorem Rating.ofValue?_eq_some_iff (value : Option Json.Value) (rating : Rating) :
    Rating.ofValue? value = some rating ↔ ∃ v, value = some v ∧ rating.SpelledBy v := by
  have hone : ∀ n : Int, String.ofList (Json.integerText n) = "1" ↔ n = 1 := by
    intro n
    rw [show "1" = String.ofList (Json.integerText 1) by rfl, String.ofList_inj]
    exact ⟨Json.integerText_injective, fun h => h ▸ rfl⟩
  have hminus : ∀ n : Int, String.ofList (Json.integerText n) = "-1" ↔ n = -1 := by
    intro n
    rw [show "-1" = String.ofList (Json.integerText (-1)) by rfl, String.ofList_inj]
    exact ⟨Json.integerText_injective, fun h => h ▸ rfl⟩
  constructor
  · intro h
    match value with
    | some (.string text) =>
        refine ⟨_, rfl, ?_⟩
        simp only [ofValue?, ofText?] at h
        split_ifs at h with h₁ h₂
        · cases h
          exact h₁ ▸ .text
        · cases h
          exact h₂ ▸ .negativeText
    | some (.number (.integer n lower upper)) =>
        refine ⟨_, rfl, ?_⟩
        simp only [ofValue?, ofText?, hone, hminus] at h
        split_ifs at h with h₁ h₂
        · cases h
          subst h₁
          exact .integer _ _
        · cases h
          subst h₂
          exact .negativeInteger _ _
  · rintro ⟨v, rfl, hspelled⟩
    cases hspelled <;> rfl

/-- A payload rates a model: its data are an object that names the model and spells the rating. -/
def Feedback.Payload.Rates (payload : Feedback.Payload) (model : String) (rating : Rating) : Prop :=
  model ≠ "" ∧ ∃ members value,
    payload.data = some (.object members) ∧ members.lookup "model_id" = some (.string model) ∧
      members.lookup "rating" = some value ∧ rating.SpelledBy value

/-- A vote is read exactly from a payload that rates. -/
theorem Vote.ofPayload?_eq_some_iff (payload : Feedback.Payload) (model : String)
    (rating : Rating) :
    Vote.ofPayload? payload = some ⟨model, rating⟩ ↔ payload.Rates model rating := by
  constructor
  · intro h
    unfold Vote.ofPayload? at h
    split at h
    next members hdata =>
      split at h
      next named found hmodel hrating =>
        split_ifs at h with hempty
        cases h
        obtain ⟨value, hvalue, hspelled⟩ := (Rating.ofValue?_eq_some_iff _ _).mp hrating
        exact ⟨hempty, members, value, hdata, hmodel, hvalue, hspelled⟩
      next => contradiction
    next => contradiction
  · rintro ⟨hne, members, value, hdata, hmodel, hvalue, hspelled⟩
    have hrating : Rating.ofValue? (members.lookup "rating") = some rating :=
      (Rating.ofValue?_eq_some_iff _ _).mpr ⟨value, hvalue, hspelled⟩
    simp [Vote.ofPayload?, hdata, hmodel, hrating, hne]

instance (payload : Feedback.Payload) (model : String) (rating : Rating) :
    Decidable (payload.Rates model rating) :=
  decidable_of_iff _ (Vote.ofPayload?_eq_some_iff payload model rating)

/-- A payload is usable if it rates some model. -/
def Feedback.Payload.IsUsable (payload : Feedback.Payload) : Prop :=
  ∃ model rating, payload.Rates model rating

theorem Vote.isSome_ofPayload?_iff (payload : Feedback.Payload) :
    (Vote.ofPayload? payload).isSome ↔ payload.IsUsable := by
  rw [Option.isSome_iff_exists]
  constructor
  · rintro ⟨⟨model, rating⟩, h⟩
    exact ⟨model, rating, (Vote.ofPayload?_eq_some_iff payload model rating).mp h⟩
  · rintro ⟨model, rating, h⟩
    exact ⟨_, (Vote.ofPayload?_eq_some_iff payload model rating).mpr h⟩

instance (payload : Feedback.Payload) : Decidable payload.IsUsable :=
  decidable_of_iff _ (Vote.isSome_ofPayload?_iff payload)

/-! ## Votes and payloads -/

/-- The votes that payloads bring. -/
def votesOf (payloads : List Feedback.Payload) : List Vote :=
  payloads.filterMap Vote.ofPayload?

theorem mem_votesOf_iff (payloads : List Feedback.Payload) (model : String) (rating : Rating) :
    (⟨model, rating⟩ : Vote) ∈ votesOf payloads ↔
      ∃ payload ∈ payloads, payload.Rates model rating := by
  simp only [votesOf, List.mem_filterMap, Vote.ofPayload?_eq_some_iff]

/-- A vote is counted as often as payloads bring it. -/
theorem count_votesOf (payloads : List Feedback.Payload) (model : String) (rating : Rating) :
    (votesOf payloads).count ⟨model, rating⟩ =
      payloads.countP fun payload => decide (payload.Rates model rating) := by
  rw [votesOf, List.count, List.countP_filterMap]
  apply List.countP_congr
  intro payload _
  rw [decide_eq_true_iff, ← Vote.ofPayload?_eq_some_iff]
  cases Vote.ofPayload? payload <;> simp

/-- Every usable payload brings one vote. -/
theorem length_votesOf (payloads : List Feedback.Payload) :
    (votesOf payloads).length = payloads.countP fun payload => decide payload.IsUsable := by
  rw [votesOf, List.length_filterMap_eq_countP]
  apply List.countP_congr
  intro payload _
  rw [decide_eq_true_iff]
  exact Vote.isSome_ofPayload?_iff payload

/-! ## The specification -/

/-- A line comes before another: it has the greater score, or this score and the lesser name. -/
def Standing.Precedes (a b : Standing) : Prop :=
  Binary64.totalOrder b.score a.score = .lt ∨
    a.score = b.score ∧ bytesOfText a.model < bytesOfText b.model

/-- The lines that belong to a list of payloads. -/
structure IsLeaderboard (payloads : List Feedback.Payload) (lines : List Standing) : Prop where
  /-- The models with a line are those that a payload rates. -/
  listed : ∀ model, (∃ line ∈ lines, line.model = model) ↔
    ∃ payload ∈ payloads, ∃ rating, payload.Rates model rating
  /-- No model has two lines. -/
  once : (lines.map Standing.model).Nodup
  /-- A line counts the payloads that rate its model. -/
  positive : ∀ line ∈ lines,
    line.positive = payloads.countP fun payload => decide (payload.Rates line.model .positive)
  negative : ∀ line ∈ lines,
    line.negative = payloads.countP fun payload => decide (payload.Rates line.model .negative)
  total : ∀ line ∈ lines, line.total = line.positive + line.negative
  score : ∀ line ∈ lines,
    line.score = .ofRank false (roundedRank (confidenceRank line.positive line.total))
  /-- Every usable payload is counted once. -/
  sum : (lines.map Standing.total).sum = payloads.countP fun payload => decide payload.IsUsable
  /-- The lines are strictly ordered. -/
  ranked : lines.Pairwise Standing.Precedes

theorem Standing.Precedes.asymm {a b : Standing} (hab : a.Precedes b) : ¬ b.Precedes a := by
  intro hba
  rcases hab with hlt | ⟨heq, hbytes⟩
  · rcases hba with hgt | ⟨heq, _⟩
    · have hswap : Binary64.totalOrder b.score a.score =
          (Binary64.totalOrder a.score b.score).swap := Std.OrientedCmp.eq_swap
      rw [hswap, hgt] at hlt
      contradiction
    · rw [heq, Binary64.totalOrder_self] at hlt
      contradiction
  · rcases hba with hgt | ⟨_, hbytes'⟩
    · rw [heq, Binary64.totalOrder_self] at hgt
      contradiction
    · exact List.lt_asymm hbytes hbytes'

namespace IsLeaderboard

variable {payloads other : List Feedback.Payload} {lines lines' : List Standing}

/-- A line of one leaderboard stands on every other of the same payloads. -/
theorem mem_of_mem (h : IsLeaderboard payloads lines) (h' : IsLeaderboard payloads lines')
    {line : Standing} (hline : line ∈ lines) : line ∈ lines' := by
  obtain ⟨line', hline', hmodel⟩ :=
    (h'.listed line.model).mpr ((h.listed line.model).mp ⟨line, hline, rfl⟩)
  have hpositive : line'.positive = line.positive := by
    rw [h'.positive line' hline', h.positive line hline, hmodel]
  have hnegative : line'.negative = line.negative := by
    rw [h'.negative line' hline', h.negative line hline, hmodel]
  have htotal : line'.total = line.total := by
    rw [h'.total line' hline', h.total line hline, hpositive, hnegative]
  have hscore : line'.score = line.score := by
    rw [h'.score line' hline', h.score line hline, hpositive, htotal]
  have heq : line' = line := by
    cases line
    cases line'
    simp_all
  exact heq ▸ hline'

/-- A list of payloads has one leaderboard. -/
theorem unique (h : IsLeaderboard payloads lines) (h' : IsLeaderboard payloads lines') :
    lines = lines' := by
  apply eq_of_strictly_sorted (fun a b => Standing.Precedes.asymm) h.ranked h'.ranked
  intro line
  exact ⟨h.mem_of_mem h', h'.mem_of_mem h⟩

/-- The order of the payloads does not matter. -/
theorem of_perm (hperm : payloads.Perm other) (h : IsLeaderboard payloads lines) :
    IsLeaderboard other lines where
  listed model := by
    rw [h.listed model]
    exact exists_congr fun payload => and_congr_left fun _ => hperm.mem_iff
  once := h.once
  positive line hline := (h.positive line hline).trans (hperm.countP_eq _)
  negative line hline := (h.negative line hline).trans (hperm.countP_eq _)
  total := h.total
  score := h.score
  sum := h.sum.trans (hperm.countP_eq _)
  ranked := h.ranked

end IsLeaderboard

/-! ## The computed lines -/

instance : Std.TransCmp Standing.order :=
  have : Std.TransCmp fun a b : Standing => Binary64.totalOrder b.score a.score :=
    transCmp_on Standing.score fun x y => Binary64.totalOrder y x
  have : Std.TransCmp fun a b : Standing => compare a.model b.model :=
    transCmp_on Standing.model compare
  transCmp_then (fun a b : Standing => Binary64.totalOrder b.score a.score)
    fun a b => compare a.model b.model

/-- Ordered lines of different models are strictly ordered. -/
theorem Standing.precedes_of_order {a b : Standing} (hne : a.model ≠ b.model)
    (hle : (Standing.order a b).isLE) : a.Precedes b := by
  rw [Standing.order, Ordering.isLE_then_iff_or] at hle
  rcases hle with hlt | ⟨heq, hmodel⟩
  · exact Or.inl hlt
  · refine Or.inr ⟨(Std.LawfulEqCmp.eq_of_compare heq).symm, ?_⟩
    rcases Ordering.isLE_iff_eq_lt_or_eq_eq.mp hmodel with hlt | hsame
    · exact (compare_eq_lt_iff_bytes a.model b.model).mp hlt
    · exact absurd (Std.LawfulEqCmp.eq_of_compare hsame) hne

/-- The lines before they are ranked. -/
def tallyLines (votes : List Vote) : List Standing :=
  (Tally.ofVotes votes).map fun entry => Standing.ofVotes entry.1 entry.2

/-- Ranking keeps the lines. -/
theorem leaderboard_perm (payloads : List Feedback.Payload) :
    (leaderboard payloads).Perm (tallyLines (votesOf payloads)) :=
  List.mergeSort_perm _ _

/-- The lines are those of the models with a vote, and they show the votes. -/
theorem mem_leaderboard_iff (payloads : List Feedback.Payload) (line : Standing) :
    line ∈ leaderboard payloads ↔
      line = Standing.ofVotes line.model (Votes.cast (votesOf payloads) line.model) ∧
        ∃ rating, (⟨line.model, rating⟩ : Vote) ∈ votesOf payloads := by
  rw [(leaderboard_perm payloads).mem_iff, tallyLines, List.mem_map]
  constructor
  · rintro ⟨⟨model, counted⟩, hentry, rfl⟩
    obtain ⟨rfl, hvoted⟩ := (Tally.mem_ofVotes_iff _ _ _).mp hentry
    exact ⟨rfl, hvoted⟩
  · rintro ⟨hline, hvoted⟩
    refine ⟨(line.model, Votes.cast (votesOf payloads) line.model), ?_, hline.symm⟩
    exact (Tally.mem_ofVotes_iff _ _ _).mpr ⟨rfl, hvoted⟩

/-- What a line shows. -/
theorem fields_of_mem_leaderboard {payloads : List Feedback.Payload} {line : Standing}
    (h : line ∈ leaderboard payloads) :
    line.positive = (Votes.cast (votesOf payloads) line.model).positive ∧
      line.negative = (Votes.cast (votesOf payloads) line.model).negative ∧
      line.total = line.positive + line.negative ∧
      line.score = .ofRank false (roundedRank (confidenceRank line.positive line.total)) := by
  have hline := ((mem_leaderboard_iff payloads line).mp h).1
  obtain ⟨model, score, total, positive, negative⟩ := line
  simp only [Standing.ofVotes, Standing.mk.injEq, true_and] at hline ⊢
  obtain ⟨hscore, htotal, hpositive, hnegative⟩ := hline
  refine ⟨hpositive, hnegative, ?_, ?_⟩
  · rw [htotal, hpositive, hnegative, Votes.total]
  · rw [hscore, htotal, hpositive, leaderboardScore]

/-- No model has two lines. -/
theorem nodup_models_leaderboard (payloads : List Feedback.Payload) :
    ((leaderboard payloads).map Standing.model).Nodup := by
  have hkeys : (tallyLines (votesOf payloads)).map Standing.model =
      (Tally.ofVotes (votesOf payloads)).map Prod.fst := by
    rw [tallyLines, List.map_map]
    rfl
  rw [((leaderboard_perm payloads).map Standing.model).nodup_iff, hkeys, List.Nodup,
    List.pairwise_map]
  exact (Tally.keysAscending_ofVotes _).imp String.ne_of_lt

/-- The computed lines meet the specification. -/
theorem isLeaderboard_leaderboard (payloads : List Feedback.Payload) :
    IsLeaderboard payloads (leaderboard payloads) where
  listed model := by
    constructor
    · rintro ⟨line, hline, rfl⟩
      obtain ⟨_, rating, hvote⟩ := (mem_leaderboard_iff payloads line).mp hline
      obtain ⟨payload, hpayload, hrates⟩ := (mem_votesOf_iff _ _ _).mp hvote
      exact ⟨payload, hpayload, rating, hrates⟩
    · rintro ⟨payload, hpayload, rating, hrates⟩
      refine ⟨Standing.ofVotes model (Votes.cast (votesOf payloads) model), ?_, rfl⟩
      rw [mem_leaderboard_iff]
      exact ⟨rfl, rating, (mem_votesOf_iff _ _ _).mpr ⟨payload, hpayload, hrates⟩⟩
  once := nodup_models_leaderboard payloads
  positive line hline := by
    rw [(fields_of_mem_leaderboard hline).1, ← count_votesOf, Votes.cast]
  negative line hline := by
    rw [(fields_of_mem_leaderboard hline).2.1, ← count_votesOf, Votes.cast]
  total line hline := (fields_of_mem_leaderboard hline).2.2.1
  score line hline := (fields_of_mem_leaderboard hline).2.2.2
  sum := by
    rw [((leaderboard_perm payloads).map Standing.total).sum_nat, tallyLines, List.map_map,
      ← length_votesOf]
    exact Tally.sum_ofVotes (votesOf payloads)
  ranked := by
    have hdistinct := List.pairwise_map.mp (nodup_models_leaderboard payloads)
    apply (hdistinct.and (pairwise_sorted Standing.order _)).imp
    rintro a b ⟨hne, hle⟩
    exact Standing.precedes_of_order hne hle

/-- Payloads in another order have the same leaderboard. -/
theorem leaderboard_eq_of_perm {payloads other : List Feedback.Payload}
    (hperm : payloads.Perm other) : leaderboard payloads = leaderboard other :=
  ((isLeaderboard_leaderboard payloads).of_perm hperm).unique (isLeaderboard_leaderboard other)

/--
The computed lines are the leaderboard of the payloads, there is no other one,
and it stays the same in whatever order the payloads come.
-/
theorem leaderboard_spec (payloads : List Feedback.Payload) :
    IsLeaderboard payloads (leaderboard payloads) ∧
      (∀ lines, IsLeaderboard payloads lines → lines = leaderboard payloads) ∧
      ∀ other, payloads.Perm other → leaderboard other = leaderboard payloads := by
  refine ⟨isLeaderboard_leaderboard payloads, ?_, ?_⟩
  · intro lines hlines
    exact hlines.unique (isLeaderboard_leaderboard payloads)
  · intro other hperm
    exact (leaderboard_eq_of_perm hperm).symm

end FeedbackBoard
