import FeedbackBoard.Command.Run
import FeedbackBoard.Proofs.Access.Gate
import FeedbackBoard.Proofs.Api.Changes
import FeedbackBoard.Proofs.Json.Documents
import FeedbackBoard.Proofs.Reviews.Ranking
import FeedbackBoard.Proofs.Store.SortKeys
import Mathlib.Data.List.Dedup

/-!
# The leaderboard and the rows

The leaderboard that the interface sends and the one that the command prints are one
function of the rows that the interface exports, whatever else the store holds.  One
row has at most one vote, so a request that adds, revises or removes one row moves the
counts of the models that the row names, by one at most.

Main definitions:

- `Vote.ofExported?`, `rankExported`: votes of exported rows, and their leaderboard.
- `countsOf`: the counts that a leaderboard shows for a model.
- `Action.rowId?`: the one row that an action is about.

Main results:

- `leaderboard_ratings`: the leaderboard of rows is that of their export.
- `Store.standings_of_newest`: the leaderboard of a store is that of the rows that it lists.
- `Board.counts_handle`: what a request that is about one row does to the counts.
- `Board.leaderboard_of_export`: all leaderboards of a store, and what becomes of them.
-/

namespace FeedbackBoard

open Json (Value)

/-! ## Exported rows -/

/-- The rating that is spelled by the texts `1` and `-1` and by these integers. -/
def Rating.ofExported? : Value → Option Rating
  | .string text =>
    if text = "1" then some .positive else if text = "-1" then some .negative else none
  | .number (.integer n _ _) =>
    if n = 1 then some .positive else if n = -1 then some .negative else none
  | _ => none

/-- The vote of an exported row of the kind of ratings: its data name a model and spell a rating. -/
def Vote.ofExported? (row : Value) : Option Vote :=
  match row.member? "type", row.member? "data" with
  | some (.string kind), some data =>
    match data.member? "model_id", data.member? "rating" with
    | some (.string model), some rating =>
      if kind = "rating" ∧ model ≠ "" then (Rating.ofExported? rating).map (Vote.mk model)
      else none
    | _, _ => none
  | _, _ => none

/--
The ranked lines of exported rows.  Every model with a vote has one, with its votes and its
rounded score; greater scores come first, and models of one score follow by name.
-/
def Standing.ofExported (rows : List Value) : List Standing :=
  let votes := rows.filterMap Vote.ofExported?
  let line (model : String) : Standing :=
    let positive := votes.count ⟨model, .positive⟩
    let negative := votes.count ⟨model, .negative⟩
    { model
      score := .ofRank false (roundedRank (confidenceRank positive (positive + negative)))
      total := positive + negative
      positive
      negative }
  ((votes.map Vote.model).dedup.map line).mergeSort fun a b =>
    b.score.amount < a.score.amount ∨ a.score.amount = b.score.amount ∧ a.model ≤ b.model

/-- The leaderboard of exported rows. -/
def rankExported (rows : List Value) : Value :=
  .object [("entries", .array ((Standing.ofExported rows).map fun line =>
    .object
      [("model_id", .string line.model), ("score", .number (.double line.score)),
       ("total", .number (Json.numberOfInt line.total)),
       ("positive", .number (Json.numberOfInt line.positive)),
       ("negative", .number (Json.numberOfInt line.negative))]))]

/-! ## Votes of rows -/

/-- The vote of a row. -/
def Vote.ofRow? (row : Feedback) : Option Vote :=
  if row.isRating then Vote.ofPayload? row.payload else none

/-- The votes of rows are those of their payloads. -/
theorem votesOf_ratings (rows : List Feedback) :
    votesOf (RowList.ratings rows) = rows.filterMap Vote.ofRow? := by
  rw [votesOf, RowList.ratings, List.filterMap_map, List.filterMap_filter]
  rfl

/-- An exported rating is read as the rating of a payload is. -/
theorem Rating.ofExported?_eq (value : Value) : ofExported? value = ofValue? (some value) := by
  apply Option.ext
  intro rating
  rw [Rating.ofValue?_eq_some_iff]
  constructor
  · intro h
    refine ⟨value, rfl, ?_⟩
    rw [ofExported?.eq_def] at h
    split at h
    · split_ifs at h with hone hminus <;> cases h
      · rw [hone]
        exact .text
      · rw [hminus]
        exact .negativeText
    · split_ifs at h with hone hminus <;> cases h
      · subst hone
        exact .integer _ _
      · subst hminus
        exact .negativeInteger _ _
    · cases h
  · rintro ⟨_, hvalue, hspelled⟩
    cases hvalue
    cases hspelled <;> rfl

/-- The vote of exported data is the vote of a payload with these data. -/
theorem Vote.ofPayload?_eq (id : String) (data : Option Value) :
    ofPayload? ⟨id, data⟩ =
      match data.bind (·.member? "model_id"), data.bind (·.member? "rating") with
      | some (.string model), some rating =>
        if model ≠ "" then (Rating.ofExported? rating).map (Vote.mk model) else none
      | _, _ => none := by
  rw [ofPayload?]
  cases data with
  | none => rfl
  | some value =>
      cases value with
      | object members =>
          simp only [Option.bind_some, Value.member?]
          cases members.lookup "model_id" with
          | none => rfl
          | some named =>
              cases named with
              | string model =>
                  cases members.lookup "rating" with
                  | none => rfl
                  | some rating =>
                      rw [← Rating.ofExported?_eq]
                      cases hspelled : Rating.ofExported? rating <;> simp [hspelled]
              | _ => rfl
      | _ => rfl

/-- The vote of an exported row is the vote of the row. -/
theorem Vote.ofExported?_encode (row : Feedback) : ofExported? (Json.encode row) = ofRow? row := by
  have hkind : (Json.encode row).member? "type" = some (.string row.kind) := rfl
  have hdata : (Json.encode row).member? "data" = some (Json.encode row.data) := rfl
  have hmember : ∀ key, (Json.encode row.data).member? key = row.data.bind (·.member? key) := by
    intro key
    cases row.data <;> rfl
  rw [ofExported?, hkind, hdata, ofRow?, Feedback.payload, ofPayload?_eq]
  simp only [hmember]
  by_cases hrating : row.kind = "rating"
  · have hcounted : row.isRating = true := beq_iff_eq.mpr hrating
    simp only [hrating, hcounted, true_and, if_true]
  · have hcounted : row.isRating = false := beq_eq_false_iff_ne.mpr hrating
    simp only [hrating, hcounted, false_and, if_false, Bool.false_eq_true]
    split <;> rfl

/-! ## Ranking -/

/-- The models of the tally are the models of the votes. -/
theorem Tally.keys_ofVotes_perm (votes : List Vote) :
    ((ofVotes votes).map Prod.fst).Perm (votes.map Vote.model).dedup := by
  have hnodup : ((ofVotes votes).map Prod.fst).Nodup := by
    rw [List.Nodup, List.pairwise_map]
    exact (keysAscending_ofVotes votes).imp String.ne_of_lt
  rw [List.perm_ext_iff_of_nodup hnodup (List.nodup_dedup _)]
  intro model
  rw [List.mem_dedup, List.mem_map, List.mem_map]
  constructor
  · rintro ⟨⟨key, counted⟩, hentry, rfl⟩
    obtain ⟨-, rating, hvote⟩ := (mem_ofVotes_iff _ _ _).mp hentry
    exact ⟨_, hvote, rfl⟩
  · rintro ⟨⟨key, rating⟩, hvote, rfl⟩
    exact ⟨(key, Votes.cast votes key), (mem_ofVotes_iff _ _ _).mpr ⟨rfl, rating, hvote⟩, rfl⟩

/-- The lines are those of the models of the votes. -/
theorem tallyLines_perm (votes : List Vote) :
    (tallyLines votes).Perm ((votes.map Vote.model).dedup.map fun model =>
      Standing.ofVotes model (Votes.cast votes model)) := by
  have hcounted : tallyLines votes = ((Tally.ofVotes votes).map Prod.fst).map fun model =>
      Standing.ofVotes model (Votes.cast votes model) := by
    rw [tallyLines, List.map_map]
    apply List.map_congr_left
    rintro ⟨model, counted⟩ hentry
    rw [((Tally.mem_ofVotes_iff _ _ _).mp hentry).1]
    rfl
  rw [hcounted]
  exact (Tally.keys_ofVotes_perm votes).map _

/-- Ranking does not depend on how the lines were found. -/
theorem ranked_tallyLines (votes : List Vote) :
    ((tallyLines votes).mergeSort fun a b => (Standing.order a b).isLE) =
      ((votes.map Vote.model).dedup.map fun model =>
        Standing.ofVotes model (Votes.cast votes model)).mergeSort
          fun a b => (Standing.order a b).isLE := by
  have hline : ∀ line ∈ tallyLines votes,
      line = Standing.ofVotes line.model (Votes.cast votes line.model) := by
    intro line hmem
    obtain ⟨model, -, rfl⟩ := List.mem_map.mp ((tallyLines_perm votes).mem_iff.mp hmem)
    rfl
  apply sorted_eq_of_perm Standing.order (tallyLines_perm votes)
  intro a ha b hb heq
  have hmodel : a.model = b.model := Std.LawfulEqCmp.eq_of_compare (Ordering.then_eq_eq.mp heq).2
  rw [hline a ha, hline b hb, hmodel]

/-- Scores are not negative. -/
theorem Standing.notMinusZero_ofVotes (model : String) (votes : Votes) :
    (ofVotes model votes).score.NotMinusZero := by
  intro _
  rw [ofVotes, leaderboardScore, Binary64.ofRank]
  split <;> rfl

/-- Lines are ordered by what their scores amount to, and then by their names. -/
theorem Standing.isLE_order {a b : Standing} (ha : a.score.NotMinusZero)
    (hb : b.score.NotMinusZero) : (order a b).isLE = decide
      (b.score.amount < a.score.amount ∨ a.score.amount = b.score.amount ∧ a.model ≤ b.model) := by
  have hname : (compare a.model b.model).isLE ↔ a.model ≤ b.model := by
    have hless : compare b.model a.model = .lt ↔ b.model < a.model := compareOfLessAndEq_eq_lt
    rw [Ordering.isLE_iff_ne_gt, Std.OrientedCmp.gt_iff_lt, hless, String.not_lt]
  rw [Bool.eq_iff_iff, decide_eq_true_iff, order, Binary64.totalOrder_eq_compare_amount hb ha,
    Ordering.isLE_then_iff_or, Int.compare_eq_lt, Int.compare_eq_eq, hname,
    eq_comm (a := a.score.amount)]

/-- The leaderboard of rows is that of their export, in whatever order they are exported. -/
theorem leaderboard_ratings {rows exported : List Feedback} (hperm : exported.Perm rows) :
    leaderboard (RowList.ratings rows) = Standing.ofExported (exported.map Json.encode) := by
  have hvotes : (exported.map Json.encode).filterMap Vote.ofExported? =
      votesOf (RowList.ratings exported) := by
    rw [votesOf_ratings, List.filterMap_map]
    exact List.filterMap_congr fun row _ => Vote.ofExported?_encode row
  have hratings : (RowList.ratings rows).Perm (RowList.ratings exported) :=
    (hperm.symm.filter _).map _
  rw [leaderboard_eq_of_perm hratings, Standing.ofExported, hvotes]
  refine (ranked_tallyLines _).trans (mergeSort_congr fun a ha b hb => ?_)
  obtain ⟨model, -, rfl⟩ := List.mem_map.mp ha
  obtain ⟨other, -, rfl⟩ := List.mem_map.mp hb
  exact Standing.isLE_order (Standing.notMinusZero_ofVotes _ _) (Standing.notMinusZero_ofVotes _ _)

/-- The leaderboard of a store is that of the rows that it lists. -/
theorem Store.standings_of_newest {store : Store} {listed : List Feedback}
    (hready : store.isReady = true) (hlisted : store.newest = .ok listed) :
    store.standings = .ok (Standing.ofExported (listed.map Json.encode)) := by
  cases (newest_of_isReady hready).symm.trans hlisted
  rw [standings_of_isReady hready]
  exact congrArg Except.ok (leaderboard_ratings (List.mergeSort_perm _ _))

/-! ## Counts of one row -/

/-- The counts that a leaderboard shows for a model: positive votes, negative ones, and all. -/
def countsOf (lines : List Standing) (model : String) : Nat × Nat × Nat :=
  match lines.find? fun line => line.model == model with
  | some line => (line.positive, line.negative, line.total)
  | none => (0, 0, 0)

/-- The counts that are shown are the votes that are cast. -/
theorem countsOf_leaderboard (payloads : List Feedback.Payload) (model : String) :
    countsOf (leaderboard payloads) model =
      let votes := Votes.cast (votesOf payloads) model
      (votes.positive, votes.negative, votes.total) := by
  rw [countsOf]
  cases hfind : (leaderboard payloads).find? fun line => line.model == model with
  | some line =>
      have hfound := List.find?_some hfind
      have hmodel : line.model = model := beq_iff_eq.mp hfound
      obtain ⟨hpositive, hnegative, htotal, -⟩ :=
        fields_of_mem_leaderboard (List.mem_of_find?_eq_some hfind)
      simp only [htotal, hpositive, hnegative, hmodel, Votes.total]
  | none =>
      have hnone : Votes.cast (votesOf payloads) model = .zero := by
        rw [Votes.cast_eq_zero_iff]
        intro rating hvote
        have hline : Standing.ofVotes model (Votes.cast (votesOf payloads) model) ∈
            leaderboard payloads := (mem_leaderboard_iff _ _).mpr ⟨rfl, rating, hvote⟩
        exact absurd BEq.rfl (List.find?_eq_none.mp hfind _ hline)
      rw [hnone]
      rfl

/-- The row names the model in its data. -/
def Feedback.Names (row : Feedback) (model : String) : Prop :=
  ∃ data, row.data = some data ∧ data.member? "model_id" = some (.string model)

/-- Two numbers differ by one at most. -/
def WithinOne (m n : Nat) : Prop :=
  m ≤ n + 1 ∧ n ≤ m + 1

/-- A row with a vote names the model that the vote is for. -/
theorem Vote.names_of_ofRow? {row : Feedback} {vote : Vote} (h : ofRow? row = some vote) :
    row.Names vote.model := by
  rw [ofRow?] at h
  split_ifs at h
  obtain ⟨-, members, value, hdata, hmodel, -⟩ := (ofPayload?_eq_some_iff _ _ _).mp h
  exact ⟨_, hdata, hmodel⟩

/-- The votes of the row of an id. -/
def votesAt (rows : List Feedback) (id : String) : List Vote :=
  (rows.filter fun row => row.id == id).filterMap Vote.ofRow?

/-- The votes of rows are those of one row and those of all others. -/
theorem count_votesOf_ratings (rows : List Feedback) (id : String) (vote : Vote) :
    (votesOf (RowList.ratings rows)).count vote =
      (votesAt rows id).count vote +
        ((rows.filter fun row => row.id != id).filterMap Vote.ofRow?).count vote := by
  have hperm := List.filter_append_perm (fun row : Feedback => row.id == id) rows
  rw [votesOf_ratings, votesAt, ← List.count_append, ← List.filterMap_append]
  exact ((hperm.filterMap Vote.ofRow?).count_eq vote).symm

/-- One row has at most one vote. -/
theorem length_votesAt {rows : List Feedback} (h : DistinctIds Feedback.id rows) (id : String) :
    (votesAt rows id).length ≤ 1 := by
  have hrows : (rows.filter fun row => row.id == id).length ≤ 1 := by
    have hcount := List.nodup_iff_count_le_one.mp h id
    rw [List.count, List.countP_map] at hcount
    rw [← List.countP_eq_length_filter]
    exact hcount
  exact (List.length_filterMap_le _ _).trans hrows

/-- A single vote is positive or negative, but not both. -/
theorem count_add_count_le {votes : List Vote} (h : votes.length ≤ 1) (model : String) :
    votes.count ⟨model, .positive⟩ + votes.count ⟨model, .negative⟩ ≤ 1 := by
  match votes, h with
  | [], _ => exact Nat.zero_le 1
  | [⟨named, rating⟩], _ =>
      by_cases hmodel : named = model
      · subst hmodel
        cases rating <;> simp
      · simp [hmodel]

/-- A row that does not name a model has no vote for it. -/
theorem count_votesAt_eq_zero {rows : List Feedback} {id : String} {vote : Vote}
    (h : ∀ row ∈ rows, row.id = id → ¬ row.Names vote.model) :
    (votesAt rows id).count vote = 0 := by
  rw [List.count_eq_zero, votesAt, List.mem_filterMap]
  rintro ⟨row, hrow, hvote⟩
  obtain ⟨hmem, hid⟩ := List.mem_filter.mp hrow
  exact h row hmem (beq_iff_eq.mp hid) (Vote.names_of_ofRow? hvote)

/-- Rows that differ in one row alone differ in one vote for each of the models it names. -/
theorem countsOf_of_filter_eq {rows after : List Feedback} (hrows : DistinctIds Feedback.id rows)
    (hafter : DistinctIds Feedback.id after) {id : String}
    (hothers : after.filter (fun row => row.id != id) = rows.filter fun row => row.id != id)
    (model : String) :
    let before := countsOf (leaderboard (RowList.ratings rows)) model
    let now := countsOf (leaderboard (RowList.ratings after)) model
    ((∀ row ∈ rows ++ after, row.id = id → ¬ row.Names model) → now = before) ∧
      WithinOne now.1 before.1 ∧ WithinOne now.2.1 before.2.1 ∧ WithinOne now.2.2 before.2.2 := by
  simp only [countsOf_leaderboard, Votes.cast, Votes.total, count_votesOf_ratings _ id, hothers]
  constructor
  · intro hunnamed
    have hzero : ∀ rating, (votesAt rows id).count ⟨model, rating⟩ = 0 ∧
        (votesAt after id).count ⟨model, rating⟩ = 0 := fun rating =>
      ⟨count_votesAt_eq_zero fun row hrow => hunnamed row (List.mem_append_left _ hrow),
        count_votesAt_eq_zero fun row hrow => hunnamed row (List.mem_append_right _ hrow)⟩
    simp only [hzero]
  · have hbefore := count_add_count_le (length_votesAt hrows id) model
    have hnow := count_add_count_le (length_votesAt hafter id) model
    simp only [WithinOne]
    omega

/-! ## Requests -/

/-- The id of the one row that an action adds, revises or removes. -/
def Action.rowId? (freshId : String) : Action → Option String
  | .create => some freshId
  | .revise path | .remove path => pathDecoded? path
  | _ => none

namespace Board

variable {board : Board} {now : Int64} {request : Request} {state : State}

/-- What an action that is about one row asks for is a change of that row. -/
theorem Asks.key?_eq {action : Action} {change : RowChange}
    (h : board.Asks now request state action change) {id : String}
    (hid : action.rowId? (board.freshId (state.issued + 1)) = some id) : change.key? = some id := by
  cases h with
  | create hcaller hform => exact hid
  | revise hcaller hnamed hform => exact hnamed.symm.trans hid
  | remove hcaller hnamed => exact hnamed.symm.trans hid
  | removeOwn hcaller => cases hid
  | removeAll hcaller => cases hid

section OneRow

variable {route : Route} {action : Action} {id : String} (hdistinct : state.store.ids.Nodup)
  (hroute : Route.ofPath? request.path = some route)
  (haction : route.action? request.method = some action)
  (hid : action.rowId? (board.freshId (state.issued + 1)) = some id)
  (hfresh : action = .create → id ∉ state.store.ids)
include hdistinct hroute haction hid hfresh

/-- A request that is about one row spares all others, and ids stay distinct. -/
theorem filter_handle (now : Int64) :
    (board.handle now request state).2.store.ids.Nodup ∧
      (board.handle now request state).2.store.shown.filter (fun row => row.id != id) =
        state.store.shown.filter fun row => row.id != id := by
  by_cases hmakes : ∃ action change, board.Makes now request state action change
  · obtain ⟨action', change, hmakes⟩ := hmakes
    obtain ⟨route', hroute', haction'⟩ := hmakes.place
    obtain rfl : route = route' := Option.some.inj (hroute.symm.trans hroute')
    obtain rfl : action = action' := Option.some.inj (haction.symm.trans haction')
    have hnew : action = .create → board.freshId (state.issued + 1) ∉ state.store.ids := by
      rintro rfl
      rw [Option.some.inj hid]
      exact hfresh rfl
    refine ⟨hmakes.distinct hdistinct hnew, ?_⟩
    rw [hmakes.shown hdistinct hnew]
    exact RowChange.filter_apply Store.id_readBack (hmakes.asks.key?_eq hid)
  · rw [store_of_not_makes fun action change h => hmakes ⟨action, change, h⟩]
    exact ⟨hdistinct, rfl⟩

/-- A request that is about one row moves the counts of the models that the row names. -/
theorem counts_handle (hready : state.store.isReady = true) :
    let after := (board.handle now request state).2.store
    ∃ lines lines', state.store.standings = .ok lines ∧ after.standings = .ok lines' ∧
      ∀ model, let counts := countsOf lines model
        let counts' := countsOf lines' model
        ((∀ row ∈ state.store.shown ++ after.shown, row.id = id → ¬ row.Names model) →
            counts' = counts) ∧
          WithinOne counts'.1 counts.1 ∧ WithinOne counts'.2.1 counts.2.1 ∧
            WithinOne counts'.2.2 counts.2.2 := by
  intro after
  obtain ⟨hdistinct', hothers⟩ := filter_handle hdistinct hroute haction hid hfresh now
  rw [← Store.map_id_shown] at hdistinct hdistinct'
  refine ⟨_, _, Store.standings_of_isReady hready,
    Store.standings_of_isReady (isReady_handle hready), ?_⟩
  exact countsOf_of_filter_eq hdistinct hdistinct' hothers

end OneRow

/-! ## Leaderboards -/

/--
The leaderboard that an administrator is sent and the one that the command prints are the
leaderboard of the rows that an administrator is sent, in the same JSON.  A request that
adds, revises or removes one row changes nothing but the counts of the models that the
data of this row name, before or after, and none of them by more than one.
-/
theorem leaderboard_of_export (board : Board) {state : State}
    (hready : state.store.isReady = true) (hdistinct : state.store.ids.Nodup) :
    ∃ (listed : List Feedback) (printed : String), state.store.newest = .ok listed ∧
      let exported : List Value := listed.map Json.encode
      (∀ (now : Int64) (request : Request), Route.ofPath? request.path = some .allExport →
        request.method = "GET" → board.Clears request .admin →
          (board.handle now request state).1 = .ofValue (.array exported)) ∧
      (∀ (now : Int64) (request : Request), Route.ofPath? request.path = some .reviews →
        request.method = "GET" → board.Clears request .admin →
          (board.handle now request state).1 = .ofValue (rankExported exported)) ∧
      Json.Document.ofString (rankExported exported).compact =
        ⟨.ofValue (rankExported exported), true⟩ ∧
      Json.Document.ofString printed = ⟨.ofValue (rankExported exported), true⟩ ∧
      reviewsOutput true state.store = .print printed ∧
      (∀ (settings : Settings) (now : Int64) (tree : FileTree) (opened : OpenDatabase),
        (tree.openDatabase settings.databasePath now).1 = .ok opened →
          state.store = .database opened.database →
            (runReviews true settings now tree).1 = .print printed) ∧
      ∀ (now : Int64) (request : Request) (route : Route) (action : Action) (id : String),
        Route.ofPath? request.path = some route → route.action? request.method = some action →
        action.rowId? (board.freshId (state.issued + 1)) = some id →
        (action = .create → id ∉ state.store.ids) →
          let after := (board.handle now request state).2.store
          ∃ lines lines', state.store.standings = .ok lines ∧ after.standings = .ok lines' ∧
            ∀ model, let counts := countsOf lines model
              let counts' := countsOf lines' model
              ((∀ row ∈ state.store.shown ++ after.shown, row.id = id → ¬ row.Names model) →
                  counts' = counts) ∧
                WithinOne counts'.1 counts.1 ∧ WithinOne counts'.2.1 counts.2.1 ∧
                  WithinOne counts'.2.2 counts.2.2 := by
  have hlisted := Store.newest_of_isReady hready
  have hlines := Store.standings_of_newest hready hlisted
  let ranked : Value := rankExported ((newestFirst state.store.shown).map Json.encode)
  have hprinted : reviewsOutput true state.store = .print (ranked.pretty ++ "\n") := by
    rw [reviewsOutput, hlines]
    rfl
  refine ⟨_, ranked.pretty ++ "\n", hlisted, ?_, ?_, ?_, ?_, hprinted, ?_, ?_⟩
  · intro now request hroute hmethod hclears
    rw [handle_exportAll hroute hmethod hclears hlisted]
    rfl
  · intro now request hroute hmethod hclears
    rw [handle_reviews hroute hmethod hclears hlines]
    rfl
  · exact Json.Document.ofString_compact _
  · exact Json.Document.ofString_pretty_append _
      (List.forall_mem_singleton.mpr (show Json.isSpace (some '\n') = true from rfl))
  · intro settings now tree opened hopened hstore
    rw [hstore] at hprinted
    rw [runReviews, withDatabase]
    generalize tree.openDatabase settings.databasePath now = result at hopened ⊢
    obtain ⟨found, tree'⟩ := result
    cases hopened
    exact hprinted
  · intro now request route action id hroute haction hid hfresh
    exact counts_handle hdistinct hroute haction hid hfresh hready

/--
Data that are no JSON have no vote.  The model of the other row has one line with its only
vote, and there is no line once the row has been removed.
-/
theorem leaderboard_of_export_damaged :
    let board : Board :=
      ⟨⟨[(secretDigest "s", ⟨"ann", "Ann", .admin⟩)]⟩, 10, fun n => toString n⟩
    let ask (method place : String) : Request :=
      { method := method
        target := "/api/v1/evaluations/" ++ place
        headers := [("authorization", "bearer s".toUTF8.toList)]
        body := [] }
    let row (id data : String) : StoredRow := ⟨id, "ann", 0, "rating", some data, none, none, 1, 1⟩
    let db : Database :=
      { schema := (Schema.empty.migrate 0).2
        rows := [row "a" "\x7bnot json", row "b" "\x7b\"model_id\":\"m\",\"rating\":1\x7d"]
        rejected := [] }
    let after := (board.handle 0 (ask "DELETE" "feedback/b") ⟨.database db, 0⟩).2.store
    (board.handle 0 (ask "GET" "reviews") ⟨.database db, 0⟩).1.body =
        .json (.object [("entries", .array [.object
          [("model_id", .string "m"),
           ("score", .number (.double (.ofRank false (Binary64.ratioRank 5227 10000)))),
           ("total", .number (Json.numberOfInt 1)), ("positive", .number (Json.numberOfInt 1)),
           ("negative", .number (Json.numberOfInt 0))]])]) ∧
      ∃ lines lines', (Store.database db).standings = .ok lines ∧ after.standings = .ok lines' ∧
        countsOf lines "m" = (1, 0, 1) ∧ countsOf lines' "m" = (0, 0, 0) ∧
          WithinOne (countsOf lines' "m").2.2 (countsOf lines "m").2.2 := by
  intro board ask row db after
  have hdistinct : (Store.database db).ids.Nodup := by decide
  have hsecret : (ask "GET" "reviews").secret? = some "s" := by decide +kernel
  have huser : board.registry.authenticate? "s" = some ⟨"ann", "Ann", .admin⟩ :=
    List.lookup_cons_self
  have hclears : board.Clears (ask "GET" "reviews") .admin := ⟨"s", _, hsecret, huser, rfl⟩
  have hreviews : Route.ofPath? (ask "GET" "reviews").path = some .reviews := by decide +kernel
  have hremoval : Route.ofPath? (ask "DELETE" "feedback/b").path = some (.row ['b']) := by
    decide +kernel
  have hnamed : pathDecoded? ['b'] = some "b" := by decide +kernel
  obtain ⟨listed, printed, hlisted, -, hsent, -, -, -, -, hmoved⟩ :=
    @leaderboard_of_export board ⟨.database db, 0⟩ rfl hdistinct
  have hbefore : (Store.database db).standings =
      .ok [⟨"m", .ofRank false (Binary64.ratioRank 5227 10000), 1, 1, 0⟩] := by decide +kernel
  have hafter : after.standings = .ok [] := by decide +kernel
  constructor
  · have hranked := Except.ok.inj ((Store.standings_of_newest rfl hlisted).symm.trans hbefore)
    rw [hsent 0 _ hreviews rfl hclears, rankExported, hranked]
    simp only [Response.body, Response.ofValue, Response.bare, List.map_cons, List.map_nil,
      Nat.cast_one, Nat.cast_zero, Bool.false_eq_true, if_false]
  · obtain ⟨lines, lines', hlines, hlines', hcounts⟩ :=
      hmoved 0 (ask "DELETE" "feedback/b") _ (.remove ['b']) "b" hremoval rfl hnamed
        fun hcreate => by cases hcreate
    obtain rfl := Except.ok.inj (hlines.symm.trans hbefore)
    obtain rfl := Except.ok.inj (hlines'.symm.trans hafter)
    exact ⟨_, _, hlines, hlines', rfl, rfl, (hcounts "m").2.2.2⟩

end Board

end FeedbackBoard
