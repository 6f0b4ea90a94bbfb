import FeedbackBoard.Api.Board

/-!
# Statuses of responses

The status of a response follows from what is answered: an answer is sent with
the status 200, a refusal with its own.  What the store answers decides between
the two.  A request that asks for an action gets the response of that action, and
every other request leaves the rows as they are.

Main definitions:

- `Answer.status`: the status that an answer is sent with.

Main results:

- `Answer.status_ofStore_send_iff`, `Answer.status_ofStore_sendFound_iff`,
  `Answer.status_ofStore_sendRemoved_iff`: when the store's answer is sent.
- `Board.forAdmin_ind`, `Board.forVerified_ind`, `Board.forRow_ind`: what becomes of an act
  behind a guard.
- `Board.handle_of_action`, `Board.handle_cases`: what becomes of a request.
-/

namespace FeedbackBoard

/-! ## Answers -/

namespace Answer

/-- The status that an answer is sent with. -/
def status : Answer → Nat
  | .ok _ => 200
  | .error refusal => refusal.status

@[simp]
theorem status_send {α : Type} [Json.Wire α] (a : α) : status (send a) = 200 :=
  rfl

@[simp]
theorem status_sendFound (row : Option Feedback) :
    status (sendFound row) = if row.isSome then 200 else 404 := by
  cases row <;> rfl

@[simp]
theorem status_sendRemoved (removed : Bool) :
    status (sendRemoved removed) = if removed then 200 else 404 := by
  cases removed <;> rfl

/-! ### Answers of the store -/

variable {α : Type} {result : Except StoreError α}

/-- What the store answers is sent, and its failures have the status 500. -/
theorem status_ofStore (send : α → Answer) :
    status (ofStore send result) =
      match result with
      | .ok a => status (send a)
      | .error _ => 500 := by
  cases result <;> rfl

/-- An element is sent if the store answers. -/
theorem status_ofStore_send_iff [Json.Wire α] :
    status (ofStore send result) = 200 ↔ ∃ a, result = .ok a := by
  cases result <;> simp [status_ofStore]

/-- A row is sent if the store finds one. -/
theorem status_ofStore_sendFound_iff {result : Except StoreError (Option Feedback)} :
    status (ofStore sendFound result) = 200 ↔ ∃ row, result = .ok (some row) := by
  rcases result with _ | _ | row <;> simp [status_ofStore]

/-- A removal is confirmed if the store has removed a row. -/
theorem status_ofStore_sendRemoved_iff {result : Except StoreError Bool} :
    status (ofStore sendRemoved result) = 200 ↔ result = .ok true := by
  rcases result with _ | _ | _ <;> simp [status_ofStore]

end Answer

/-- A reply in JSON has the status of its answer. -/
@[simp]
theorem Reply.status_response_json (answer : Answer) :
    (Reply.json answer).response.status = answer.status := by
  cases answer <;> rfl

/-! ## Requests -/

/-- An action is listed with its method, where asking for the headers counts as reading. -/
theorem Route.mem_actions {route : Route} {method : String} {action : Action}
    (h : route.action? method = some action) :
    (if method = "HEAD" then "GET" else method, action) ∈ route.actions := by
  obtain ⟨before, after, hactions, _⟩ := List.lookup_eq_some_iff.mp h
  rw [hactions]
  exact List.mem_append_right before List.mem_cons_self

/-- No place has an action for asking what may be done there. -/
theorem Route.action?_options (route : Route) : route.action? "OPTIONS" = none := by
  cases route <;> rfl

namespace Board

variable {board : Board} {now : Int64} {request : Request} {state : State}

/-! ### Guards -/

section Guards

variable {P : Reply × State → Prop}
  (hrefused : ∀ refusal : Refusal, P (.json (.error refusal), state))
include hrefused

/-- What is for administrators is refused, or done for one. -/
theorem forAdmin_ind {act : User → Answer × State}
    (hact : ∀ user, P (.json (act user).1, (act user).2)) :
    P (board.forAdmin request state act) := by
  rw [forAdmin]
  split
  · exact hrefused _
  · exact hact _

/-- What is for approved accounts is refused, or done for one. -/
theorem forVerified_ind {act : User → Answer × State}
    (hact : ∀ user, P (.json (act user).1, (act user).2)) :
    P (board.forVerified request state act) := by
  rw [forVerified]
  split
  · exact hrefused _
  · exact hact _

/-- What is done with a row is refused, or the path names none, or it is done. -/
theorem forRow_ind {path : List Char} {act : User → String → Answer × State}
    (hpath : P (.badPath, state))
    (hact : ∀ user id, P (.json (act user id).1, (act user id).2)) :
    P (board.forRow request state path act) := by
  rw [forRow]
  split
  · exact hrefused _
  · split
    · exact hpath
    · exact hact _ _

end Guards

/-! ### Actions -/

/-- A request that asks for an action gets the response of its reply. -/
theorem handle_of_action {route : Route} {action : Action}
    (hroute : Route.ofPath? request.path = some route)
    (haction : route.action? request.method = some action) :
    board.handle now request state =
      ({ (board.perform now request action state).1.response with
          headersOnly := request.method = "HEAD" },
        (board.perform now request action state).2) := by
  have hoptions : request.method ≠ "OPTIONS" := by
    intro heq
    rw [heq, Route.action?_options] at haction
    cases haction
  rw [handle, if_neg hoptions, hroute]
  simp only [haction]

/-- A request asks for an action, or it leaves the rows as they are. -/
theorem handle_cases (board : Board) (now : Int64) (request : Request) (state : State) :
    (∃ route action, Route.ofPath? request.path = some route ∧
        route.action? request.method = some action) ∨
      (board.handle now request state).2 = state := by
  rw [handle]
  split
  · exact Or.inr rfl
  · split
    next => exact Or.inr rfl
    next route hroute =>
      split
      next => exact Or.inr rfl
      next action haction => exact Or.inl ⟨route, action, hroute, haction⟩

end Board

end FeedbackBoard
