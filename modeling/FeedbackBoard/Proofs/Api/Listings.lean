import FeedbackBoard.Proofs.Api.Answers
import FeedbackBoard.Proofs.Store.Listings

/-!
# Listings that are sent

Five places of the interface send listings: the leaderboard, all rows, their ids, a page,
and the rows of whoever asks.  They read nothing of the store but its listings, so what
they send, and whether they fail, does not depend on conversations.

Main definitions:

- `Route.IsListing`: the places that send listings.
- `Store.SameButSnapshots`: stores with the same rows but for the conversations.

Main results:

- `Board.perform_eq_of_listings`: listings decide what is sent.
- `Board.handle_eq_of_sameButSnapshots`: conversations do not matter to listings.
-/

namespace FeedbackBoard

/-- The places that send listings when they are read. -/
def Route.IsListing : Route → Prop
  | .reviews | .all | .allIds | .list | .user => True
  | .health | .allExport | .own | .create | .row _ => False

/-- The actions that send listings. -/
def Action.IsListing : Action → Prop
  | .reviews | .listAll | .listIds | .listPage | .listOwn => True
  | .health | .removeAll | .exportAll | .removeOwn | .create | .read _ | .revise _ | .remove _ =>
    False

/-- Reading such a place sends a listing. -/
theorem Route.IsListing.exists_action {route : Route} (h : route.IsListing) :
    ∃ action : Action, action.IsListing ∧ route.action? "GET" = some action := by
  cases route with
  | reviews => exact ⟨.reviews, trivial, rfl⟩
  | all => exact ⟨.listAll, trivial, rfl⟩
  | allIds => exact ⟨.listIds, trivial, rfl⟩
  | list => exact ⟨.listPage, trivial, rfl⟩
  | user => exact ⟨.listOwn, trivial, rfl⟩
  | health | allExport | own | create | row => exact absurd h id

/-- A part of what the store answers can be taken before it is sent. -/
theorem Answer.ofStore_map {α β : Type} (f : α → β) (send : β → Answer)
    (result : Except StoreError α) :
    ofStore send (result.map f) = ofStore (fun a => send (f a)) result := by
  cases result <;> rfl

namespace Board

variable {board : Board} {now : Int64} {request : Request} {first second : State}

/-! ## Guards -/

/-- Administrators get the same reply if the same is answered to each of them. -/
theorem forAdmin_congr {act act' : User → Answer × State}
    (h : ∀ user, (act user).1 = (act' user).1) :
    (board.forAdmin request first act).1 = (board.forAdmin request second act').1 := by
  rw [forAdmin, forAdmin]
  cases board.adminCaller request with
  | error refusal => rfl
  | ok user => exact congrArg Reply.json (h user)

/-- Approved users get the same reply if the same is answered to each of them. -/
theorem forVerified_congr {act act' : User → Answer × State}
    (h : ∀ user, (act user).1 = (act' user).1) :
    (board.forVerified request first act).1 = (board.forVerified request second act').1 := by
  rw [forVerified, forVerified]
  cases board.verifiedCaller request with
  | error refusal => rfl
  | ok user => exact congrArg Reply.json (h user)

/-! ## Actions -/

/-- A row without its conversation, with its author. -/
def signOutline (board : Board) (outline : Feedback.Outline) : Feedback.Signed where
  outline := outline
  author := board.registry.author? outline.userId

/-- Rows are signed without looking at their conversations. -/
theorem ofStore_signed (result : Except StoreError (List Feedback)) :
    Answer.ofStore (fun rows => Answer.send (rows.map board.sign)) result =
      Answer.ofStore (fun outlines => Answer.send (outlines.map board.signOutline))
        (result.map (List.map Feedback.outline)) := by
  rw [Answer.ofStore_map]
  simp only [List.map_map]
  rfl

/-- A page is sent without looking at conversations. -/
theorem ofStore_listing (result : Except StoreError Page) :
    Answer.ofStore (fun page => Answer.send (board.listing page)) result =
      Answer.ofStore (fun page : List Feedback.Outline × Nat =>
          Answer.send (⟨page.1.map board.signOutline, Int64.ofNat page.2⟩ : Feedback.Listing))
        (result.map Store.outlinePage) := by
  rw [Answer.ofStore_map]
  simp only [Store.outlinePage, List.map_map]
  rfl

/-- Listings decide what is sent. -/
theorem perform_eq_of_listings {action : Action} (haction : action.IsListing)
    (h : first.store.listings = second.store.listings) :
    (board.perform now request action first).1 = (board.perform now request action second).1 := by
  have hall := congrArg Store.Listings.all h
  have hofUser := congrArg Store.Listings.ofUser h
  have hstamps := congrArg Store.Listings.stamps h
  have hstandings := congrArg Store.Listings.standings h
  have hpage := congrArg Store.Listings.page h
  simp only [Store.listings] at hall hofUser hstamps hstandings hpage
  cases action with
  | reviews =>
      rw [perform, perform]
      refine forAdmin_congr fun _ => ?_
      rw [hstandings]
  | listAll =>
      rw [perform, perform]
      refine forAdmin_congr fun _ => ?_
      rw [← Answer.ofStore_map (List.map Feedback.outline) Answer.send, hall, Answer.ofStore_map]
  | listIds =>
      rw [perform, perform]
      refine forAdmin_congr fun _ => ?_
      rw [hstamps]
  | listPage =>
      rw [perform, perform]
      refine forAdmin_congr fun _ => ?_
      cases board.pageQuery request with
      | error refusal => rfl
      | ok query =>
          simp only [ofStore_listing]
          rw [congrFun hpage query]
  | listOwn =>
      rw [perform, perform]
      refine forVerified_congr fun user => ?_
      simp only [ofStore_signed]
      rw [congrFun hofUser user.id]
  | health | removeAll | exportAll | removeOwn | create | read | revise | remove =>
      exact absurd haction id

end Board

/-! ## Requests -/

/-- Stores of one kind with the same rows in every column but the conversation. -/
def Store.SameButSnapshots (s t : Store) : Prop :=
  s.withoutSnapshots.HoldsSame t.withoutSnapshots

theorem Store.SameButSnapshots.listings_eq {s t : Store} (h : s.SameButSnapshots t) :
    s.listings = t.listings :=
  calc s.listings = s.withoutSnapshots.listings := s.listings_withoutSnapshots.symm
    _ = t.withoutSnapshots.listings := Store.listings_eq_of_holdsSame h
    _ = t.listings := t.listings_withoutSnapshots

/--
Whoever reads a place that sends listings gets the same response from any two stores of
one kind with the same rows but for the conversations, whatever texts stand for these:
the same status and the same body, also where the store fails.
-/
theorem Board.handle_eq_of_sameButSnapshots (board : Board) (now : Int64) (request : Request)
    {route : Route} {first second : Board.State} (hroute : Route.ofPath? request.path = some route)
    (hlisting : route.IsListing) (hmethod : request.method = "GET")
    (hsame : first.store.SameButSnapshots second.store) :
    (board.handle now request first).1 = (board.handle now request second).1 := by
  obtain ⟨action, haction, hasked⟩ := hlisting.exists_action
  rw [← hmethod] at hasked
  rw [handle_of_action hroute hasked, handle_of_action hroute hasked,
    perform_eq_of_listings haction hsame.listings_eq]

/-- A page shows a row whose conversation is no JSON text as if it had none. -/
theorem Board.handle_eq_of_sameButSnapshots_damaged :
    let board : Board :=
      ⟨⟨[(secretDigest "s", ⟨"ann", "Ann", .admin⟩)]⟩, 10, fun n => toString n⟩
    let request : Request :=
      { method := "GET"
        target := "/api/v1/evaluations/feedbacks/list?order_by=rating"
        headers := [("authorization", [98, 101, 97, 114, 101, 114, 32, 115])]
        body := [] }
    let row (snapshot : Option String) : StoredRow :=
      ⟨"f", "bob", 0, "rating", some "{}", none, snapshot, 1, 1⟩
    let state (snapshot : Option String) : Board.State :=
      ⟨.database { (Database.empty.migrate 0).2 with rows := [row snapshot] }, 0⟩
    (board.handle 0 request (state (some "\x7b"))).1 = (board.handle 0 request (state none)).1 := by
  intro board request row state
  have hroute : Route.ofPath? request.path = some .list := by decide
  exact board.handle_eq_of_sameButSnapshots 0 request hroute trivial rfl
    (.database rfl (Or.inl rfl))

end FeedbackBoard
