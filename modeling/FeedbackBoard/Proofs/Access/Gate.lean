import FeedbackBoard.Proofs.Api.Answers

/-!
# Who is let in

Every place of the interface asks for a clearance: some are for administrators,
the others for every approved account.  Whoever lacks it is refused before
anything else is looked at, so what is sent depends on the secret that is shown
and on nothing else; and whoever has it is never refused for lack of it.

Main definitions:

- `Clearance`, `Route.clearance`: what a place asks of whoever comes.
- `Request.AsksFor`: a request for an action at a place with a clearance.
- `Board.Clears`: whoever asks has a clearance.
- `Board.lackMessage`: what is said to whoever lacks it.

Main results:

- `Board.perform_of_refused`, `Board.status_perform_ne`: the gate of an action.
- `Board.handle_exportAll`, `Board.handle_reviews`: what administrators read.
- `Board.handle_gate`: the gate of a request.
-/

namespace FeedbackBoard

/-! ## Clearances -/

/-- What a place asks of whoever comes. -/
inductive Clearance
  | approved
  | admin
deriving DecidableEq, Repr

/-- Whether a role has a clearance. -/
def Clearance.coveredBy : Clearance → Role → Bool
  | .admin, role => role == .admin
  | .approved, role => role == .admin || role == .user

/-- What a place asks for; whether the interface is well is told to everybody. -/
def Route.clearance : Route → Option Clearance
  | .health => none
  | .reviews | .all | .allIds | .allExport | .list => some .admin
  | .user | .own | .create | .row _ => some .approved

/-- What an action asks for. -/
def Action.clearance : Action → Option Clearance
  | .health => none
  | .reviews | .listAll | .removeAll | .listIds | .exportAll | .listPage => some .admin
  | .listOwn | .removeOwn | .create | .read _ | .revise _ | .remove _ => some .approved

/-- Every action at a place asks for what the place asks for. -/
theorem Route.clearance_of_action? {route : Route} {method : String} {action : Action}
    (h : route.action? method = some action) : action.clearance = route.clearance := by
  have hlisted : ∀ entry ∈ route.actions, entry.2.clearance = route.clearance := by
    cases route <;> simp [actions, clearance, Action.clearance]
  exact hlisted _ (mem_actions h)

/-- The request asks for an action at a place with this clearance. -/
def Request.AsksFor (request : Request) (clearance : Clearance) : Prop :=
  ∃ route, Route.ofPath? request.path = some route ∧ route.clearance = some clearance ∧
    (route.action? request.method).isSome = true

namespace Board

variable {board : Board} {request other : Request} {clearance : Clearance}

/-- Whoever asks has shown a secret of the registry, and the user's role has the clearance. -/
def Clears (board : Board) (request : Request) (clearance : Clearance) : Prop :=
  ∃ secret user, request.secret? = some secret ∧ board.registry.authenticate? secret = some user ∧
    clearance.coveredBy user.role = true

/-- The asking user, if the user has the clearance. -/
def admission (board : Board) (request : Request) : Clearance → Except Refusal User
  | .admin => board.adminCaller request
  | .approved => board.verifiedCaller request

/-- Nothing of a request but its secret decides who is let in. -/
theorem admission_congr (h : other.secret? = request.secret?) :
    board.admission other clearance = board.admission request clearance := by
  cases clearance <;> simp only [admission, adminCaller, verifiedCaller, caller, h]

/-- Whoever has the clearance is let in. -/
theorem exists_admission (h : board.Clears request clearance) :
    ∃ user, board.admission request clearance = .ok user := by
  obtain ⟨secret, user, hsecret, huser, hrole⟩ := h
  refine ⟨user, ?_⟩
  cases clearance with
  | admin =>
      have hadmin : user.isAdmin = true := hrole
      simp only [admission, adminCaller, caller, hsecret, huser, hadmin, if_true]
  | approved =>
      have hverified : user.isVerified = true := hrole
      simp only [admission, verifiedCaller, caller, hsecret, huser, hverified, if_true]

/-- What is said to whoever lacks the clearance. -/
def lackMessage (board : Board) (request : Request) (clearance : Clearance) : String :=
  match request.secret? with
  | none => "missing bearer token"
  | some secret =>
    match board.registry.authenticate? secret, clearance with
    | none, _ => "invalid token"
    | some _, .admin => "admin access required"
    | some _, .approved => "account is pending approval"

/-- Whoever lacks the clearance is refused as unauthorized, and is told what is lacking. -/
theorem exists_refusal (h : ¬ board.Clears request clearance) :
    ∃ refusal : Refusal, board.admission request clearance = .error refusal ∧
      refusal.status = 401 ∧ refusal.code = "unauthorized" ∧
        refusal.message = board.lackMessage request clearance := by
  cases hsecret : request.secret? with
  | none =>
      refine ⟨.noSecret, ?_, rfl, rfl, by rw [lackMessage, hsecret]; rfl⟩
      cases clearance <;> simp only [admission, adminCaller, verifiedCaller, caller, hsecret]
  | some secret =>
      cases huser : board.registry.authenticate? secret with
      | none =>
          refine ⟨.unknownSecret, ?_, rfl, rfl, by simp only [lackMessage, hsecret, huser]; rfl⟩
          cases clearance <;>
            simp only [admission, adminCaller, verifiedCaller, caller, hsecret, huser]
      | some user =>
          have hrole : clearance.coveredBy user.role = false := by
            rw [← Bool.not_eq_true]
            exact fun hcovered => h ⟨secret, user, hsecret, huser, hcovered⟩
          cases clearance with
          | admin =>
              refine ⟨.adminOnly, ?_, rfl, rfl, ?_⟩
              · have hadmin : user.isAdmin = false := hrole
                simp [admission, adminCaller, caller, hsecret, huser, hadmin]
              · simp only [lackMessage, hsecret, huser]
                rfl
          | approved =>
              refine ⟨.pendingAccount, ?_, rfl, rfl, ?_⟩
              · have hverified : user.isVerified = false := hrole
                simp [admission, verifiedCaller, caller, hsecret, huser, hverified]
              · simp only [lackMessage, hsecret, huser]
                rfl

/-- Whoever has the clearance is let in, and nobody else. -/
theorem clears_iff :
    board.Clears request clearance ↔ ∃ user, board.admission request clearance = .ok user := by
  constructor
  · exact exists_admission
  · rintro ⟨user, huser⟩
    refine Classical.byContradiction fun hlacks => ?_
    obtain ⟨refusal, hrefused, -⟩ := exists_refusal hlacks
    rw [huser] at hrefused
    cases hrefused

/-! ## Refused -/

section Refused

variable {now : Int64} {state : State} {refusal : Refusal}

theorem forAdmin_of_refused (h : board.admission request .admin = .error refusal)
    (act : User → Answer × State) :
    board.forAdmin request state act = (.json (.error refusal), state) := by
  have hcaller : board.adminCaller request = .error refusal := h
  simp only [forAdmin, hcaller]

theorem forVerified_of_refused (h : board.admission request .approved = .error refusal)
    (act : User → Answer × State) :
    board.forVerified request state act = (.json (.error refusal), state) := by
  have hcaller : board.verifiedCaller request = .error refusal := h
  simp only [forVerified, hcaller]

/-- The path of a row is not even read for whoever is refused. -/
theorem forRow_of_refused (h : board.admission request .approved = .error refusal)
    (path : List Char) (act : User → String → Answer × State) :
    board.forRow request state path act = (.json (.error refusal), state) := by
  have hcaller : board.verifiedCaller request = .error refusal := h
  simp only [forRow, hcaller]

/-- Whoever is refused gets the refusal, and the rows stay as they are. -/
theorem perform_of_refused {action : Action} (hclearance : action.clearance = some clearance)
    (hrefused : board.admission request clearance = .error refusal) :
    board.perform now request action state = (.json (.error refusal), state) := by
  cases action <;> cases hclearance <;> rw [perform]
  case reviews | listAll | removeAll | listIds | exportAll | listPage =>
      exact forAdmin_of_refused hrefused _
  case listOwn | removeOwn | create => exact forVerified_of_refused hrefused _
  case read path | revise path | remove path => exact forRow_of_refused hrefused path _

end Refused

/-! ## Let in -/

section LetIn

variable {now : Int64} {state : State} {user : User}

/-- What is wrong with a query is no lack of clearance. -/
theorem status_pageQuery {refusal : Refusal} (h : board.pageQuery request = .error refusal) :
    refusal.status = 400 := by
  simp only [pageQuery] at h
  split at h
  · cases h
    rfl
  · split at h
    · cases h
    · cases h
      rfl

/-- What is wrong with a form is no lack of clearance. -/
theorem status_form {refusal : Refusal} (h : request.form = .error refusal) :
    refusal.status = 400 := by
  rw [Request.form] at h
  split at h
  · cases h
    rfl
  · split at h
    · cases h
      rfl
    · split at h <;> cases h <;> rfl

/-- A failure of the store is no lack of clearance. -/
theorem status_ofStore_ne {α : Type} {send : α → Answer} (hsend : ∀ a, (send a).status ≠ 401)
    (result : Except StoreError α) : (Answer.ofStore send result).status ≠ 401 := by
  cases result with
  | ok a => exact hsend a
  | error error => exact Nat.ne_of_beq_eq_false rfl

theorem status_send_ne {α : Type} [Json.Wire α] (a : α) : (Answer.send a).status ≠ 401 := by
  rw [Answer.status_send]
  decide

theorem status_sendFound_ne (row : Option Feedback) : (Answer.sendFound row).status ≠ 401 := by
  rw [Answer.status_sendFound]
  split <;> decide

theorem status_sendRemoved_ne (removed : Bool) : (Answer.sendRemoved removed).status ≠ 401 := by
  rw [Answer.status_sendRemoved]
  split <;> decide

theorem status_forAdmin_ne (h : board.admission request .admin = .ok user)
    {act : User → Answer × State} (hact : (act user).1.status ≠ 401) :
    (board.forAdmin request state act).1.response.status ≠ 401 := by
  have hcaller : board.adminCaller request = .ok user := h
  simp only [forAdmin, hcaller, Reply.status_response_json]
  exact hact

theorem status_forVerified_ne (h : board.admission request .approved = .ok user)
    {act : User → Answer × State} (hact : (act user).1.status ≠ 401) :
    (board.forVerified request state act).1.response.status ≠ 401 := by
  have hcaller : board.verifiedCaller request = .ok user := h
  simp only [forVerified, hcaller, Reply.status_response_json]
  exact hact

theorem status_forRow_ne (h : board.admission request .approved = .ok user) (path : List Char)
    {act : User → String → Answer × State} (hact : ∀ id, (act user id).1.status ≠ 401) :
    (board.forRow request state path act).1.response.status ≠ 401 := by
  have hcaller : board.verifiedCaller request = .ok user := h
  simp only [forRow, hcaller]
  cases pathDecoded? path with
  | none => exact Nat.ne_of_beq_eq_false rfl
  | some id =>
      simp only [Reply.status_response_json]
      exact hact id

/-- Adding a row is never unauthorized. -/
theorem status_create_ne : (board.create now request state user).1.status ≠ 401 := by
  rw [create]
  split
  next refusal hform =>
    intro hstatus
    rw [Answer.status, status_form hform] at hstatus
    exact absurd hstatus (by decide)
  next form _ =>
    split
    · exact Nat.ne_of_beq_eq_false rfl
    · exact status_ofStore_ne status_send_ne _

/-- Changing a row is never unauthorized. -/
theorem status_revise_ne (id : String) :
    (Board.revise now request state user id).1.status ≠ 401 := by
  rw [Board.revise]
  split
  next refusal hform =>
    intro hstatus
    rw [Answer.status, status_form hform] at hstatus
    exact absurd hstatus (by decide)
  next form _ => exact status_ofStore_ne status_sendFound_ne _

/-- Whoever has the clearance is not refused for lack of it, whatever the action. -/
theorem status_perform_ne {action : Action} (hclearance : action.clearance = some clearance)
    (hadmitted : board.admission request clearance = .ok user) :
    (board.perform now request action state).1.response.status ≠ 401 := by
  cases action <;> cases hclearance <;> rw [perform]
  case reviews | listAll | removeAll | listIds | exportAll =>
      exact status_forAdmin_ne hadmitted (status_ofStore_ne (fun _ => status_send_ne _) _)
  case listPage =>
      apply status_forAdmin_ne hadmitted
      split
      next refusal hquery =>
        intro hstatus
        rw [Answer.status, status_pageQuery hquery] at hstatus
        exact absurd hstatus (by decide)
      next query _ => exact status_ofStore_ne (fun _ => status_send_ne _) _
  case listOwn | removeOwn =>
      exact status_forVerified_ne hadmitted (status_ofStore_ne (fun _ => status_send_ne _) _)
  case create => exact status_forVerified_ne hadmitted status_create_ne
  case read path =>
      exact status_forRow_ne hadmitted path fun _ => status_ofStore_ne status_sendFound_ne _
  case revise path => exact status_forRow_ne hadmitted path status_revise_ne
  case remove path =>
      exact status_forRow_ne hadmitted path fun _ => status_ofStore_ne status_sendRemoved_ne _

end LetIn

/-! ## Readings of administrators -/

section Readings

variable {now : Int64} {state : State}

/-- An administrator who reads gets what is done for administrators. -/
theorem handle_of_admin {route : Route} {action : Action} {act : User → Answer × State}
    {value : Json.Value} (hroute : Route.ofPath? request.path = some route)
    (hmethod : request.method = "GET") (hclears : board.Clears request .admin)
    (haction : route.action? "GET" = some action)
    (hperform : board.perform now request action state = board.forAdmin request state act)
    (hact : ∀ user, act user = (.ok value, state)) :
    board.handle now request state = (.ofValue value, state) := by
  obtain ⟨user, huser⟩ := exists_admission hclears
  have hcaller : board.adminCaller request = .ok user := huser
  rw [← hmethod] at haction
  rw [handle_of_action hroute haction, hperform]
  simp only [forAdmin, hcaller, hact, hmethod]
  rfl

/-- An administrator who asks for all rows is sent them. -/
theorem handle_exportAll {rows : List Feedback}
    (hroute : Route.ofPath? request.path = some .allExport) (hmethod : request.method = "GET")
    (hclears : board.Clears request .admin) (hrows : state.store.newest = .ok rows) :
    board.handle now request state = (.ofValue (Json.encode rows), state) := by
  have hperform : board.perform now request .exportAll state =
      board.forAdmin request state fun _ =>
        (.ofStore Answer.send state.store.newest, state) := by
    rw [perform]
  refine handle_of_admin hroute hmethod hclears rfl hperform fun user => ?_
  rw [hrows]
  rfl

/-- An administrator who asks for the leaderboard is sent it. -/
theorem handle_reviews {lines : List Standing}
    (hroute : Route.ofPath? request.path = some .reviews) (hmethod : request.method = "GET")
    (hclears : board.Clears request .admin) (hlines : state.store.standings = .ok lines) :
    board.handle now request state = (.ofValue (Json.encode (Leaderboard.mk lines)), state) := by
  have hperform : board.perform now request .reviews state =
      board.forAdmin request state fun _ =>
        (.ofStore (fun lines => Answer.send (Leaderboard.mk lines)) state.store.standings,
          state) := by
    rw [perform]
  refine handle_of_admin hroute hmethod hclears rfl hperform fun user => ?_
  rw [hlines]
  rfl

end Readings

/-! ## Requests -/

/--
Whoever lacks the clearance of a place is sent one and the same response, with the status
401 and the code `unauthorized` in its JSON, whatever the rows, the row that is named, the
query, the body and all headers but the secret, and the rows stay as they are; whoever has
it is never refused for lack of it.
-/
theorem handle_gate (board : Board) {request : Request} {clearance : Clearance}
    (hasks : request.AsksFor clearance) :
    (¬ board.Clears request clearance →
      ∀ (now : Int64) (other : Request) (state : State), other.AsksFor clearance →
        other.method = request.method → other.secret? = request.secret? →
          board.handle now other state =
            ({ status := 401
               content := .json (.object [("error", .object [("code", .string "unauthorized"),
                 ("message", .string (board.lackMessage request clearance))])])
               headersOnly := request.method = "HEAD"
               allow := none
               preflight := false }, state)) ∧
      (board.Clears request clearance →
        ∀ (now : Int64) (state : State), (board.handle now request state).1.status ≠ 401) := by
  constructor
  · intro hlacks now other state hother hmethod hsecret
    obtain ⟨refusal, hrefused, hstatus, hcode, hmessage⟩ := exists_refusal hlacks
    obtain ⟨route, hroute, hclearance, haction⟩ := hother
    obtain ⟨action, haction⟩ := Option.isSome_iff_exists.mp haction
    have hasked : action.clearance = some clearance := by
      rw [Route.clearance_of_action? haction, hclearance]
    have hsame : board.admission other clearance = .error refusal := by
      rw [admission_congr hsecret, hrefused]
    rw [handle_of_action hroute haction, perform_of_refused hasked hsame, hmethod]
    simp only [Reply.response, Response.ofRefusal, Response.bare, Refusal.value, hstatus, hcode,
      hmessage]
  · intro hclears now state
    obtain ⟨user, hadmitted⟩ := exists_admission hclears
    obtain ⟨route, hroute, hclearance, haction⟩ := hasks
    obtain ⟨action, haction⟩ := Option.isSome_iff_exists.mp haction
    have hasked : action.clearance = some clearance := by
      rw [Route.clearance_of_action? haction, hclearance]
    rw [handle_of_action hroute haction]
    exact status_perform_ne hasked hadmitted

/-- Only administrators may remove all rows; other users are refused, and no row is lost. -/
theorem handle_gate_removeAll :
    let board (role : Role) : Board :=
      ⟨⟨[(secretDigest "s", ⟨"ann", "Ann", role⟩)]⟩, 10, fun n => toString n⟩
    let request (body : List UInt8) : Request :=
      { method := "DELETE"
        target := "/api/v1/evaluations/feedbacks/all"
        headers := [("authorization", [98, 101, 97, 114, 101, 114, 32, 115])]
        body := body }
    (∃ response : Response, response.status = 401 ∧
      response.body = .json (.object [("error", .object [("code", .string "unauthorized"),
        ("message", .string "admin access required")])]) ∧
      ∀ body now state, (board .user).handle now (request body) state = (response, state)) ∧
      ∀ now state, ((board .admin).handle now (request []) state).1.status ≠ 401 := by
  intro board request
  have hroute : Route.ofPath? (request []).path = some .all := by decide
  have hasks : ∀ body, (request body).AsksFor .admin := fun _ => ⟨.all, hroute, rfl, rfl⟩
  have hsecret : (request []).secret? = some "s" := by decide
  have huser : ∀ role, (board role).registry.authenticate? "s" = some ⟨"ann", "Ann", role⟩ :=
    fun _ => List.lookup_cons_self
  constructor
  · have hlacks : ¬ (board .user).Clears (request []) .admin := by
      rintro ⟨secret, user, hshown, hknown, hcovered⟩
      rw [hsecret] at hshown
      cases hshown
      rw [huser] at hknown
      cases hknown
      exact absurd hcovered (by decide)
    have hmessage : (board .user).lackMessage (request []) .admin = "admin access required" := by
      rw [lackMessage, hsecret]
      simp only [huser]
    have hsame := ((board .user).handle_gate (hasks [])).1 hlacks
    rw [hmessage] at hsame
    exact ⟨_, rfl, rfl, fun body now state => hsame now (request body) state (hasks body) rfl rfl⟩
  · have hclears : (board .admin).Clears (request []) .admin := ⟨"s", _, hsecret, huser .admin, rfl⟩
    exact ((board .admin).handle_gate (hasks [])).2 hclears

end Board

end FeedbackBoard
