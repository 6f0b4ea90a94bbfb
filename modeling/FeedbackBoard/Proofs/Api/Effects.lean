import FeedbackBoard.Proofs.Api.Answers
import FeedbackBoard.Proofs.Store.Operations

/-!
# What requests leave behind

A request that reads leaves the rows as they are, and so does a request that
fails, wherever it fails: whoever asks may lack the clearance, the path, the
query or the form may be wrong, the store may refuse a statement, or there may be
no row to change.  Nothing is assumed of the rows, so texts that are no JSON, ids
that cannot be stored and a missing table are covered.

Main definitions:

- `Action.isReading`: the actions that read.
- `Board.Kept`: an answer is given, or the store has stayed as it was.

Main results:

- `Store.insert_kept`, `Store.revise_kept`, `Store.remove_kept`, `Store.removeUser_kept`,
  `Store.removeAll_kept`: an operation confirms a change or makes none.
- `Board.perform_of_isReading`, `Board.perform_kept`: readings and failures of an action.
- `Board.handle_kept`: readings and failures of a request.
-/

namespace FeedbackBoard

/-! ## Operations of the store -/

namespace Store

/-- A row is added, or the store stays as it is. -/
theorem insert_kept (store : Store) (row : Feedback) :
    (∃ added, (store.insert row).1 = .ok added) ∨ (store.insert row).2 = store := by
  cases store with
  | memory rows => exact Or.inl ⟨row, rfl⟩
  | database db =>
      rw [insert_database]
      split
      · exact Or.inl ⟨row, rfl⟩
      · exact Or.inr rfl

/-- A row is found and revised, or the store stays as it is. -/
theorem revise_kept (store : Store) (id : String) (owner : Option String) (form : Feedback.Form)
    (now : Int64) :
    (∃ row, (store.revise id owner form now).1 = .ok (some row)) ∨
      (store.revise id owner form now).2 = store := by
  cases store with
  | memory rows =>
      rw [Store.revise]
      split
      · exact Or.inr rfl
      · exact Or.inl ⟨_, rfl⟩
  | database db =>
      rw [revise_database]
      split
      · cases hfound : db.rows.find? (RowFilter.row id owner).accepts with
        | some row => exact Or.inl ⟨_, rfl⟩
        | none =>
            rw [map_if_eq_self (List.find?_eq_none.mp hfound)]
            exact Or.inr rfl
      · exact Or.inr rfl

/-- Without a row to remove a list stays as it is. -/
theorem filter_not_of_any {ρ : Type} {p : ρ → Bool} {rows : List ρ} (h : rows.any p = false) :
    rows.filter (fun row => !p row) = rows := by
  rw [List.filter_eq_self]
  intro row hrow
  rw [Bool.not_eq_true', ← Bool.not_eq_true]
  intro hp
  rw [List.any_eq_true.mpr ⟨row, hrow, hp⟩] at h
  cases h

/-- A removal from a database removes a row, or the database stays as it is. -/
theorem execute_remove_kept (db : Database) (filter : RowFilter) :
    (execute (.remove filter) db).1 = .ok true ∨
      (execute (.remove filter) db).2 = .database db := by
  rw [execute_remove]
  split
  · cases hany : db.rows.any filter.accepts with
    | true => exact Or.inl rfl
    | false =>
        rw [filter_not_of_any hany]
        exact Or.inr rfl
  · exact Or.inr rfl

/-- A removal from a list removes a row, or the list stays as it is. -/
theorem memory_filter_kept (rows : RowList) (p : Feedback → Bool) :
    (Except.ok (rows.any p) : Except StoreError Bool) = .ok true ∨
      Store.memory (rows.filter fun row => !p row) = .memory rows := by
  cases hany : rows.any p with
  | true => exact Or.inl rfl
  | false => exact Or.inr (congrArg Store.memory (filter_not_of_any hany))

theorem remove_kept (store : Store) (id : String) (owner : Option String) :
    (store.remove id owner).1 = .ok true ∨ (store.remove id owner).2 = store := by
  cases store with
  | memory rows =>
      rw [remove_memory]
      exact memory_filter_kept rows _
  | database db => exact execute_remove_kept db (.row id owner)

theorem removeUser_kept (store : Store) (user : String) :
    (store.removeUser user).1 = .ok true ∨ (store.removeUser user).2 = store := by
  cases store with
  | memory rows =>
      rw [removeUser_memory]
      exact memory_filter_kept rows _
  | database db => exact execute_remove_kept db (.user user)

theorem removeAll_kept (store : Store) :
    store.removeAll.1 = .ok true ∨ store.removeAll.2 = store := by
  cases store with
  | memory rows =>
      cases rows with
      | nil => exact Or.inr rfl
      | cons row rest => exact Or.inl rfl
  | database db => exact execute_remove_kept db .all

end Store

/-! ## Readings -/

/-- Whether an action reads. -/
def Action.isReading : Action → Bool
  | .health | .reviews | .listAll | .listIds | .exportAll | .listPage | .listOwn | .read _ => true
  | .removeAll | .removeOwn | .create | .revise _ | .remove _ => false

/-- What is asked for by reading, or by asking for the headers, is a reading. -/
theorem Route.isReading_of_action? {route : Route} {method : String} {action : Action}
    (haction : route.action? method = some action) (hmethod : method = "GET" ∨ method = "HEAD") :
    action.isReading = true := by
  have hlisted : ∀ entry ∈ route.actions, entry.1 = "GET" → entry.2.isReading = true := by
    cases route <;> simp [actions, Action.isReading]
  apply hlisted _ (mem_actions haction)
  rcases hmethod with rfl | rfl <;> rfl

namespace Board

variable {board : Board} {now : Int64} {request : Request} {state : State}

/-- A reading leaves the rows as they are. -/
theorem perform_of_isReading {action : Action} (h : action.isReading = true) :
    (board.perform now request action state).2 = state := by
  cases action <;> cases h <;> rw [perform]
  case reviews | listAll | listIds | exportAll =>
      exact forAdmin_ind (P := fun outcome => outcome.2 = state) (fun _ => rfl) fun _ => rfl
  case listPage =>
      refine forAdmin_ind (P := fun outcome => outcome.2 = state) (fun _ => rfl) fun user => ?_
      split <;> rfl
  case listOwn =>
      exact forVerified_ind (P := fun outcome => outcome.2 = state) (fun _ => rfl) fun _ => rfl
  case read path =>
      exact forRow_ind (P := fun outcome => outcome.2 = state) (fun _ => rfl) rfl fun _ _ => rfl

/-! ## Failures -/

/-- An outcome is answered with the status 200, or the store has stayed as it was. -/
def Kept (state : State) (outcome : Reply × State) : Prop :=
  outcome.1.response.status = 200 ∨ outcome.2.store = state.store

theorem kept_refused (refusal : Refusal) : Kept state (.json (.error refusal), state) :=
  Or.inr rfl

theorem kept_json {answer : Answer} {after : State}
    (h : answer.status = 200 ∨ after.store = state.store) : Kept state (.json answer, after) := by
  rw [Kept, Reply.status_response_json]
  exact h

/-- Removing several rows is answered, or no row is removed. -/
theorem send_kept {result : Except StoreError Bool} {before after : Store}
    (h : result = .ok true ∨ after = before) :
    (Answer.ofStore Answer.send result).status = 200 ∨ after = before := by
  rw [Answer.status_ofStore_send_iff]
  exact h.imp_left fun hremoved => ⟨true, hremoved⟩

/-- Adding a row succeeds, or no row is added. -/
theorem create_kept (user : User) :
    (board.create now request state user).1.status = 200 ∨
      (board.create now request state user).2.store = state.store := by
  rw [create]
  split
  · exact Or.inr rfl
  · split
    · exact Or.inr rfl
    · rw [Answer.status_ofStore_send_iff]
      exact state.store.insert_kept _

/-- Changing a row succeeds, or no row is changed. -/
theorem revise_kept (user : User) (id : String) :
    (Board.revise now request state user id).1.status = 200 ∨
      (Board.revise now request state user id).2.store = state.store := by
  rw [Board.revise]
  split
  · exact Or.inr rfl
  · rw [Answer.status_ofStore_sendFound_iff]
    exact state.store.revise_kept id user.scope _ now

/-- An action succeeds, or it leaves the store as it is. -/
theorem perform_kept (board : Board) (now : Int64) (request : Request) (action : Action)
    (state : State) : Kept state (board.perform now request action state) := by
  by_cases hreading : action.isReading = true
  · exact Or.inr (congrArg State.store (perform_of_isReading hreading))
  · cases action <;> try exact absurd rfl hreading
    all_goals rw [perform]
    case removeAll =>
        exact forAdmin_ind kept_refused fun _ => kept_json (send_kept state.store.removeAll_kept)
    case removeOwn =>
        exact forVerified_ind kept_refused fun user =>
          kept_json (send_kept (state.store.removeUser_kept user.id))
    case create => exact forVerified_ind kept_refused fun user => kept_json (create_kept user)
    case revise path =>
        exact forRow_ind kept_refused (Or.inr rfl) fun user id => kept_json (revise_kept user id)
    case remove path =>
        refine forRow_ind kept_refused (Or.inr rfl) fun user id => kept_json ?_
        rw [Answer.status_ofStore_sendRemoved_iff]
        exact state.store.remove_kept id user.scope

/-! ## Requests -/

/--
A request that reads, asks for the headers or asks what may be done leaves the
store as it is, and so does every request that is not answered with the status 200.
-/
theorem handle_kept (board : Board) (now : Int64) (request : Request) (state : State)
    (h : request.method ∈ ["GET", "HEAD", "OPTIONS"] ∨
      (board.handle now request state).1.status ≠ 200) :
    (board.handle now request state).2.store = state.store := by
  rcases board.handle_cases now request state with ⟨route, action, hroute, haction⟩ | hstate
  · rw [handle_of_action hroute haction] at h ⊢
    rcases h with hmethod | hfailed
    · have hreading : action.isReading = true := by
        apply Route.isReading_of_action? haction
        rcases List.mem_cons.mp hmethod with hget | hmethod
        · exact Or.inl hget
        · rcases List.mem_cons.mp hmethod with hhead | hoptions
          · exact Or.inr hhead
          · rw [List.mem_singleton.mp hoptions, Route.action?_options] at haction
            cases haction
      rw [perform_of_isReading hreading]
    · exact (board.perform_kept now request action state).resolve_left hfailed
  · rw [hstate]

/-- A row whose id cannot be stored is not added, and a text that is no JSON stays where it is. -/
theorem handle_kept_rejected :
    let board : Board :=
      ⟨⟨[(secretDigest "s", ⟨"ann", "Ann", .user⟩)]⟩, 10, fun n => toString n⟩
    let request : Request :=
      { method := "POST"
        target := "/api/v1/evaluations/feedback"
        headers :=
          [("authorization", "bearer s".toUTF8.toList),
            ("content-type", "application/json".toUTF8.toList)]
        body := "\x7b\"type\":\"rating\"\x7d".toUTF8.toList }
    let row : StoredRow := ⟨"f", "bob", 0, "rating", some "[", none, none, 1, 1⟩
    let db : Database :=
      { schema := (Schema.empty.migrate 0).2, rows := [row], rejected := ["1"] }
    let reached := board.handle 0 request ⟨.database db, 0⟩
    reached.1.status = 500 ∧ reached.2.store = .database db := by
  intro board request row db reached
  have hstatus : reached.1.status = 500 := by decide +kernel
  have hfailed : reached.1.status ≠ 200 := by
    rw [hstatus]
    decide
  exact ⟨hstatus, board.handle_kept 0 request ⟨.database db, 0⟩ (Or.inr hfailed)⟩

end Board

end FeedbackBoard
