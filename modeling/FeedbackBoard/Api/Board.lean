import FeedbackBoard.Access.Registry
import FeedbackBoard.Api.Request
import FeedbackBoard.Api.Response
import FeedbackBoard.Api.Route
import FeedbackBoard.Store.Basic

/-!
# The interface

The interface answers requests from the store.  Whoever asks must show a secret;
administrators reach all rows, other users only their own, and a row of somebody
else is as good as missing.  What is asked is looked at in a fixed order: the
secret, the id in the path, the query or the body, and the store last.

Main definitions:

- `Board`, `Board.State`: an installation, and its rows.
- `Board.caller`: who asks.
- `Board.perform`: what an action answers and changes.
- `Board.handle`: the response to a request.
-/

namespace FeedbackBoard

/-- An installation of the interface. -/
structure Board where
  registry : Registry
  pageSize : Int
  /-- The ids of fresh rows, in the order in which they are used. -/
  freshId : Nat → String

/-- The rows, and how many fresh ids have been used. -/
structure Board.State where
  store : Store
  issued : Nat

/-- The version that the interface tells. -/
def boardVersion : String := "0.3.0"

/-- The greatest length of a body, in bytes. -/
def bodyLimit : Nat := 2097152

/-! ## What a request brings -/

/-- Who asks. -/
def Board.caller (board : Board) (request : Request) : Except Refusal User :=
  match request.secret? with
  | none => .error .noSecret
  | some secret =>
    match board.registry.authenticate? secret with
    | none => .error .unknownSecret
    | some user => .ok user

/-- The asking user, if the account has been approved. -/
def Board.verifiedCaller (board : Board) (request : Request) : Except Refusal User :=
  match board.caller request with
  | .error refusal => .error refusal
  | .ok user => if user.isVerified then .ok user else .error .pendingAccount

/-- The asking user, if it is an administrator. -/
def Board.adminCaller (board : Board) (request : Request) : Except Refusal User :=
  match board.caller request with
  | .error refusal => .error refusal
  | .ok user => if user.isAdmin then .ok user else .error .adminOnly

/-- The form in the body of a request. -/
def Request.form (request : Request) : Except Refusal Feedback.Form :=
  if !request.hasJsonBody then .error (.bad .notJson)
  else if bodyLimit < request.body.length then .error (.bad .tooLong)
  else
    match Json.ofDocument (Json.Document.ofSymbols (symbolsOfBytes request.body)) with
    | .ok form => .ok form
    | .error .malformed => .error (.bad .malformedBody)
    | .error (.misshapen path problem) => .error (.bad (.misshapenBody path problem))

/-- The page that a request asks for; pages before the first count as the first. -/
def Board.pageQuery (board : Board) (request : Request) : Except Refusal PageQuery :=
  match ListParameters.ofQuery request.query with
  | .error fault => .error (.bad (.query fault))
  | .ok parameters =>
    let page := max 1 (parameters.page.getD 1)
    let skip := (page - 1) * board.pageSize
    if -0x8000000000000000 ≤ skip ∧ skip < 0x8000000000000000 then
      .ok
        { field := SortField.ofName parameters.orderBy
          direction := Direction.ofName parameters.direction
          skip := skip
          limit := board.pageSize }
    else .error (.bad .pageOutOfRange)

/-! ## Answers -/

/-- What is answered, or why not. -/
abbrev Answer := Except Refusal Json.Value

/-- What the store answers, as it is sent; why the store fails is not told. -/
def Answer.ofStore {α : Type} (send : α → Answer) : Except StoreError α → Answer
  | .ok a => send a
  | .error _ => .error .storeFailed

/-- Sends an element of a type with a JSON form. -/
def Answer.send {α : Type} [Json.Wire α] (a : α) : Answer :=
  .ok (Json.encode a)

/-- Sends a row, if there is one. -/
def Answer.sendFound (row : Option Feedback) : Answer :=
  match row with
  | some row => .ok (Json.encode row)
  | none => .error .noFeedback

/-- Sends that a row was removed, if there was one. -/
def Answer.sendRemoved (removed : Bool) : Answer :=
  if removed then .ok (Json.encode true) else .error .noFeedback

/-- A row with its author, as far as the registry knows. -/
def Board.sign (board : Board) (row : Feedback) : Feedback.Signed where
  outline := row.outline
  author := board.registry.author? row.userId

/-- A page as it is sent. -/
def Board.listing (board : Board) (page : Page) : Feedback.Listing where
  items := page.items.map board.sign
  total := Int64.ofNat page.total

/-- What is told about the installation. -/
def healthValue : Json.Value :=
  .object [("status", .string "ok"), ("version", .string boardVersion)]

/-! ## Actions -/

/-- What a response is made of: an answer in JSON, or a plain text for a path that is none. -/
inductive Reply
  | json (answer : Answer)
  | badPath

/-- The response of a reply. -/
def Reply.response : Reply → Response
  | .json (.ok value) => .ofValue value
  | .json (.error refusal) => .ofRefusal refusal
  | .badPath =>
    { Response.bare 400 with content := .text "Invalid URL: Invalid UTF-8 in `id`" }

/-- Does something for an administrator. -/
def Board.forAdmin (board : Board) (request : Request) (state : Board.State)
    (act : User → Answer × Board.State) : Reply × Board.State :=
  match board.adminCaller request with
  | .error refusal => (.json (.error refusal), state)
  | .ok user => let (answer, state) := act user; (.json answer, state)

/-- Does something for a user whose account has been approved. -/
def Board.forVerified (board : Board) (request : Request) (state : Board.State)
    (act : User → Answer × Board.State) : Reply × Board.State :=
  match board.verifiedCaller request with
  | .error refusal => (.json (.error refusal), state)
  | .ok user => let (answer, state) := act user; (.json answer, state)

/-- Does something for a user whose account has been approved with the row that the path names. -/
def Board.forRow (board : Board) (request : Request) (state : Board.State) (id : List Char)
    (act : User → String → Answer × Board.State) : Reply × Board.State :=
  match board.verifiedCaller request with
  | .error refusal => (.json (.error refusal), state)
  | .ok user =>
    match pathDecoded? id with
    | none => (.badPath, state)
    | some id => let (answer, state) := act user id; (.json answer, state)

/-- Adds a row for a user. -/
def Board.create (board : Board) (now : Int64) (request : Request) (state : Board.State)
    (user : User) : Answer × Board.State :=
  match request.form with
  | .error refusal => (.error refusal, state)
  | .ok form =>
    if isBlankText form.kind then (.error (.bad .blankKind), state)
    else
      let issued := state.issued + 1
      let (result, store) := state.store.insert (Feedback.ofForm (board.freshId issued) user.id form now)
      (.ofStore Answer.send result, { store, issued })

/-- Changes the row of an id within a user's reach. -/
def Board.revise (now : Int64) (request : Request) (state : Board.State)
    (user : User) (id : String) : Answer × Board.State :=
  match request.form with
  | .error refusal => (.error refusal, state)
  | .ok form =>
    let (result, store) := state.store.revise id user.scope form now
    (.ofStore Answer.sendFound result, { state with store })

/-- What an action answers, and the rows after it. -/
def Board.perform (board : Board) (now : Int64) (request : Request) (action : Action)
    (state : Board.State) : Reply × Board.State :=
  match action with
  | .health => (.json (.ok healthValue), state)
  | .reviews =>
    board.forAdmin request state fun _ =>
      (.ofStore (fun lines => Answer.send (Leaderboard.mk lines)) state.store.standings, state)
  | .listAll =>
    board.forAdmin request state fun _ =>
      (.ofStore (fun rows => Answer.send (rows.map Feedback.outline)) state.store.newest, state)
  | .removeAll =>
    board.forAdmin request state fun _ =>
      let (result, store) := state.store.removeAll
      (.ofStore Answer.send result, { state with store })
  | .listIds =>
    board.forAdmin request state fun _ => (.ofStore Answer.send state.store.stamps, state)
  | .exportAll =>
    board.forAdmin request state fun _ => (.ofStore Answer.send state.store.newest, state)
  | .listPage =>
    board.forAdmin request state fun _ =>
      match board.pageQuery request with
      | .error refusal => (.error refusal, state)
      | .ok query =>
        (.ofStore (fun page => Answer.send (board.listing page)) (state.store.page query), state)
  | .listOwn =>
    board.forVerified request state fun user =>
      (.ofStore (fun rows => Answer.send (rows.map board.sign)) (state.store.newestOf user.id),
        state)
  | .removeOwn =>
    board.forVerified request state fun user =>
      let (result, store) := state.store.removeUser user.id
      (.ofStore Answer.send result, { state with store })
  | .create => board.forVerified request state (board.create now request state)
  | .read id =>
    board.forRow request state id fun user id =>
      (.ofStore Answer.sendFound (state.store.find id user.scope), state)
  | .revise id => board.forRow request state id (Board.revise now request state)
  | .remove id =>
    board.forRow request state id fun user id =>
      let (result, store) := state.store.remove id user.scope
      (.ofStore Answer.sendRemoved result, { state with store })

/-! ## Requests -/

/--
The response to a request, and the rows after it.  Asking for the options of
any path is always answered; a path that names no place is not found, and a
method that the place does not admit is refused with those that it does.
-/
def Board.handle (board : Board) (now : Int64) (request : Request) (state : Board.State) :
    Response × Board.State :=
  let route := Route.ofPath? request.path
  if request.method = "OPTIONS" then
    ({ Response.bare 200 with allow := route.map Route.methods, preflight := true }, state)
  else
    match route with
    | none => (.bare 404, state)
    | some route =>
      match route.action? request.method with
      | none => ({ Response.bare 405 with allow := some route.methods }, state)
      | some action =>
        let (reply, state) := board.perform now request action state
        ({ reply.response with headersOnly := request.method = "HEAD" }, state)

/-- The responses to several requests, each at its time, one after the other. -/
def Board.handleAll (board : Board) : List (Int64 × Request) → Board.State →
    List Response × Board.State
  | [], state => ([], state)
  | (now, request) :: rest, state =>
    let (response, state) := board.handle now request state
    let (responses, state) := board.handleAll rest state
    (response :: responses, state)

end FeedbackBoard
