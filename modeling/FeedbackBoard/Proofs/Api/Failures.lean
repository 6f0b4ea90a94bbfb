import FeedbackBoard.Proofs.Access.Gate

/-!
# What is told of a failure

Whatever goes wrong with a request is told as a JSON object with a code and a
message, and the code follows from the status.  One failure is told in another way:
a path whose id is no text gets a plain line, which has no code.  Why the store
fails is never told.

Main definitions:

- `failureCode?`: the code that goes with a status.
- `Response.TellsFailure`: a body that tells a failure with its code.
- `Board.NamesNoText`: a request of somebody with an approved account for the row of an id
  that is no text.

Main results:

- `Reply.response_cases`: how the replies are sent.
- `Board.perform_eq_badPath_iff`: the replies without a code.
- `Board.tellsFailure_handle_iff`: the requests whose failures are told with their codes.
-/

namespace FeedbackBoard

/-! ## Codes -/

/-- The code that goes with the status of a failure. -/
def failureCode? : Nat → Option String
  | 400 => some "bad_request"
  | 401 => some "unauthorized"
  | 404 => some "not_found"
  | 500 => some "internal"
  | _ => none

/-- The body is an object that tells the code of the status, and a message. -/
def Response.TellsFailure (response : Response) : Prop :=
  ∃ code message, failureCode? response.status = some code ∧
    response.body = .json (.object [("error",
      .object [("code", .string code), ("message", .string message)])])

/-- A refusal is told with the code of its status. -/
theorem Response.tellsFailure_ofRefusal (refusal : Refusal) : (ofRefusal refusal).TellsFailure := by
  refine ⟨refusal.code, refusal.message, ?_, rfl⟩
  cases refusal <;> rfl

/-- A text is no object. -/
theorem Response.not_tellsFailure_badPath : ¬ Reply.badPath.response.TellsFailure := by
  rintro ⟨code, message, -, hbody⟩
  cases hbody

/-- Why the store fails is not told. -/
theorem Refusal.eq_storeFailed {refusal : Refusal} (h : refusal.status = 500) :
    refusal = .storeFailed := by
  cases refusal <;> first | rfl | cases h

/-- An answer is sent as it is, a refusal tells its code, and a path that is no text has none. -/
theorem Reply.response_cases (reply : Reply) :
    (reply ≠ .badPath ∧ reply.response.status = 200) ∨
      (∃ refusal, reply = .json (.error refusal) ∧ reply.response = .ofRefusal refusal) ∨
        reply = .badPath := by
  cases reply with
  | json answer =>
      cases answer with
      | ok value => exact Or.inl ⟨nofun, rfl⟩
      | error refusal => exact Or.inr (Or.inl ⟨refusal, rfl, rfl⟩)
  | badPath => exact Or.inr (Or.inr rfl)

/-! ## Ids in paths -/

/-- The id in the path of a place. -/
def Route.path? : Route → Option (List Char)
  | .row path => some path
  | _ => none

/-- The id in the path of what is done with a row. -/
def Action.path? : Action → Option (List Char)
  | .read path | .revise path | .remove path => some path
  | _ => none

/-- What is done at the place of a row is done with that row. -/
theorem Route.path?_of_action? {route : Route} {method : String} {action : Action}
    (h : route.action? method = some action) : action.path? = route.path? := by
  have hlisted : ∀ entry ∈ route.actions, entry.2.path? = route.path? := by
    cases route <;> simp [actions, path?, Action.path?]
  exact hlisted _ (mem_actions h)

namespace Board

variable {board : Board} {now : Int64} {request : Request} {state : State} {route : Route}
  {action : Action}

/-- The path names a row by bytes that are no text, and whoever asks has been approved. -/
def NamesNoText (board : Board) (request : Request) : Prop :=
  ∃ path, Route.ofPath? request.path = some (.row path) ∧ pathDecoded? path = none ∧
    board.Clears request .approved

/-- A path is found to be no text after the account has been looked at. -/
theorem forRow_eq_badPath_iff {path : List Char} {act : User → String → Answer × State} :
    (board.forRow request state path act).1 = .badPath ↔
      pathDecoded? path = none ∧ board.Clears request .approved := by
  rw [clears_iff, forRow, admission]
  cases board.verifiedCaller request with
  | error refusal => simp
  | ok user => cases pathDecoded? path <;> simp

theorem forAdmin_ne_badPath {act : User → Answer × State} :
    (board.forAdmin request state act).1 ≠ .badPath :=
  forAdmin_ind (P := fun result => result.1 ≠ .badPath) nofun nofun

theorem forVerified_ne_badPath {act : User → Answer × State} :
    (board.forVerified request state act).1 ≠ .badPath :=
  forVerified_ind (P := fun result => result.1 ≠ .badPath) nofun nofun

/-- Only what is done with a row can meet a path that is no text. -/
theorem perform_eq_badPath_iff :
    (board.perform now request action state).1 = .badPath ↔
      ∃ path, action.path? = some path ∧ pathDecoded? path = none ∧
        board.Clears request .approved := by
  cases action <;> rw [perform]
  case health => simp [Action.path?]
  case reviews | listAll | removeAll | listIds | exportAll | listPage =>
      simp [Action.path?, forAdmin_ne_badPath]
  case listOwn | removeOwn | create => simp [Action.path?, forVerified_ne_badPath]
  case read path | revise path | remove path => simp [Action.path?, forRow_eq_badPath_iff]

/-- At the place that a request names, an id that is no text is an id in the path of its action. -/
theorem namesNoText_iff (now : Int64) (state : State)
    (hroute : Route.ofPath? request.path = some route)
    (haction : route.action? request.method = some action) :
    board.NamesNoText request ↔ (board.perform now request action state).1 = .badPath := by
  rw [perform_eq_badPath_iff, NamesNoText, hroute, Route.path?_of_action? haction]
  cases route <;> simp [Route.path?]

/-! ## Requests -/

/-- A request that does not ask for the headers alone gets all of its reply. -/
theorem response_of_action (hroute : Route.ofPath? request.path = some route)
    (haction : route.action? request.method = some action) (hbody : request.method ≠ "HEAD") :
    (board.handle now request state).1 =
      (board.perform now request action state).1.response := by
  have hwhole : ∀ reply : Reply, { reply.response with headersOnly := false } = reply.response := by
    rintro ((_ | _) | _) <;> rfl
  rw [handle_of_action hroute haction, decide_eq_false hbody]
  exact hwhole _

/--
Whatever the rows are, a request is answered with the status 200 or fails with one of
four statuses, and its failures are told with the codes of their statuses, except for a
path that names a row by bytes that are no text: whoever has been approved gets a plain
line for it.  All failures of the store are told alike.
-/
theorem tellsFailure_handle_iff (board : Board) (now : Int64) (state : State) {request : Request}
    {route : Route} (hroute : Route.ofPath? request.path = some route)
    (haction : (route.action? request.method).isSome = true) (hbody : request.method ≠ "HEAD") :
    let response := (board.handle now request state).1
    ((400 ≤ response.status → response.TellsFailure) ↔ ¬ board.NamesNoText request) ∧
      (board.NamesNoText request →
        response.status = 400 ∧ response.body = .text "Invalid URL: Invalid UTF-8 in `id`") ∧
      (response.status = 500 → response.body = .json Refusal.storeFailed.value) ∧
      response.status ∈ [200, 400, 401, 404, 500] := by
  intro response
  obtain ⟨action, haction⟩ := Option.isSome_iff_exists.mp haction
  rw [namesNoText_iff now state hroute haction]
  have hresponse : response = (board.perform now request action state).1.response :=
    response_of_action hroute haction hbody
  rw [hresponse]
  rcases Reply.response_cases (board.perform now request action state).1 with
    ⟨hreply, hstatus⟩ | ⟨refusal, hreply, hrefused⟩ | hreply
  · rw [hstatus]
    exact ⟨iff_of_true (fun h => absurd h (by decide)) hreply, fun h => absurd h hreply, nofun,
      by decide⟩
  · rw [hrefused, hreply]
    refine ⟨iff_of_true (fun _ => Response.tellsFailure_ofRefusal refusal) nofun, nofun, ?_, ?_⟩
    · intro hfailed
      rw [Refusal.eq_storeFailed hfailed]
      rfl
    · cases refusal <;> exact List.elem_iff.mp rfl
  · rw [hreply]
    refine ⟨iff_of_false (fun h => ?_) fun h => h rfl, fun _ => ⟨rfl, rfl⟩, nofun, by decide⟩
    exact Response.not_tellsFailure_badPath (h (by decide))

/-- The byte 255 is no text: whoever asks for the row of such an id is not told a code. -/
theorem tellsFailure_handle_iff_undecodable :
    let board : Board := ⟨⟨[(secretDigest "s", ⟨"ann", "Ann", .user⟩)]⟩, 10, fun n => toString n⟩
    let request : Request :=
      { method := "GET"
        target := "/api/v1/evaluations/feedback/%FF"
        headers := [("authorization", "bearer s".toUTF8.toList)]
        body := [] }
    request.method ≠ "HEAD" ∧ Route.ofPath? request.path = some (.row "%FF".toList) ∧
      ∀ now state, let response := (board.handle now request state).1
        response.status = 400 ∧ ¬ response.TellsFailure := by
  intro board request
  have hbody : request.method ≠ "HEAD" := by decide
  have hroute : Route.ofPath? request.path = some (.row "%FF".toList) := by decide +kernel
  have hundecodable : pathDecoded? "%FF".toList = none := by decide +kernel
  have hsecret : request.secret? = some "s" := by decide +kernel
  have huser : board.registry.authenticate? "s" = some ⟨"ann", "Ann", .user⟩ :=
    List.lookup_cons_self
  have hnamed : board.NamesNoText request :=
    ⟨_, hroute, hundecodable, "s", _, hsecret, huser, rfl⟩
  refine ⟨hbody, hroute, ?_⟩
  intro now state response
  obtain ⟨htold, hplain, -⟩ := board.tellsFailure_handle_iff now state hroute rfl hbody
  have hstatus : response.status = 400 := (hplain hnamed).1
  refine ⟨hstatus, fun htells => ?_⟩
  exact htold.mp (fun _ => htells) hnamed

end Board

end FeedbackBoard
