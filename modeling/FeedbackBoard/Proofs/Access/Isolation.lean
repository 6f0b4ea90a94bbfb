import FeedbackBoard.Api.Board
import FeedbackBoard.Proofs.Store.Confinement

/-!
# Users among themselves

Whoever is no administrator reaches nothing but the own rows.  The statement is
about two runs: whatever such a user asks for, the response and the user's own
rows afterwards are the same from all stores that agree on the user's own rows,
and the rows of everybody else stay as they are.

Main results:

- `Board.isolated_perform`: every action is confined to the rows of who asks.
- `Board.handle_isolated`: so is every request.
-/

namespace FeedbackBoard

namespace Board

variable {board : Board} {request : Request} {user : User}

/-! ## Who asks -/

/-- Users without administrative rights reach only their own rows. -/
theorem scope_of_role (hrole : user.role = .user) : user.scope = some user.id := by
  rw [User.scope, User.isAdmin, hrole]
  rfl

/-- A secret that the registry knows tells who asks. -/
theorem caller_of_secret {secret : String} (hsecret : request.secret? = some secret)
    (huser : board.registry.authenticate? secret = some user) :
    board.caller request = .ok user := by
  rw [caller, hsecret]
  simp only [huser]

theorem verifiedCaller_of_caller (hcaller : board.caller request = .ok user)
    (hrole : user.role = .user) : board.verifiedCaller request = .ok user := by
  rw [verifiedCaller, hcaller]
  simp only [User.isVerified, hrole]
  rfl

theorem adminCaller_of_caller (hcaller : board.caller request = .ok user)
    (hrole : user.role = .user) : board.adminCaller request = .error .adminOnly := by
  rw [adminCaller, hcaller]
  simp only [User.isAdmin, hrole]
  rfl

/-! ## Actions -/

/-- A run on the rows of a board, as a run on its store. -/
def onStore {β : Type} (run : State → β × State) (issued : Nat) (store : Store) :
    (β × Nat) × Store :=
  let (answer, state) := run ⟨store, issued⟩
  ((answer, state.issued), state.store)

variable {now : Int64} {issued : Nat}

/-- What becomes of the answer does not matter. -/
theorem isolated_map {α β : Type} {freshId : String} {run : State → α × State} (f : α → β)
    (h : Store.Isolated user.id freshId (onStore run issued)) :
    Store.Isolated user.id freshId
      (onStore (fun state => (f (run state).1, (run state).2)) issued) :=
  h.map (Prod.map f id)

/-- Leaving the rows alone is isolated. -/
theorem isolated_constant {β : Type} {freshId : String} (answer : β) :
    Store.Isolated user.id freshId (onStore (fun state => (answer, state)) issued) :=
  .constant (answer, issued)

/-- An operation of the store that is isolated stays so on a board. -/
theorem isolated_operation {α β : Type} {freshId : String} {operation : Store → α × Store}
    (f : α → β) (h : Store.Isolated user.id freshId operation) :
    Store.Isolated user.id freshId
      (onStore (fun state =>
        (f (operation state.store).1, { state with store := (operation state.store).2 }))
        issued) :=
  h.map fun a => (f a, issued)

section Caller

variable (hcaller : board.caller request = .ok user) (hrole : user.role = .user)
include hcaller hrole

/-- Whatever is for administrators is refused. -/
theorem isolated_forAdmin {freshId : String} (act : State → User → Answer × State) :
    Store.Isolated user.id freshId
      (onStore (fun state => board.forAdmin request state (act state)) issued) := by
  simp only [forAdmin, adminCaller_of_caller hcaller hrole]
  exact isolated_constant _

/-- What is done for a user with an approved account is done for who asks. -/
theorem isolated_forVerified {freshId : String} {act : State → User → Answer × State}
    (hact : Store.Isolated user.id freshId (onStore (fun state => act state user) issued)) :
    Store.Isolated user.id freshId
      (onStore (fun state => board.forVerified request state (act state)) issued) := by
  simp only [forVerified, verifiedCaller_of_caller hcaller hrole]
  exact isolated_map Reply.json hact

/-- What is done with the row of a path is done for who asks, if the path names one. -/
theorem isolated_forRow {freshId : String} {act : State → User → String → Answer × State}
    (path : List Char)
    (hact : ∀ id, Store.Isolated user.id freshId
      (onStore (fun state => act state user id) issued)) :
    Store.Isolated user.id freshId
      (onStore (fun state => board.forRow request state path (act state)) issued) := by
  simp only [forRow, verifiedCaller_of_caller hcaller hrole]
  cases pathDecoded? path with
  | none => exact isolated_constant _
  | some id => exact isolated_map Reply.json (hact id)

end Caller

/-- Adding a row under a fresh id is isolated. -/
theorem isolated_create :
    Store.Isolated user.id (board.freshId (issued + 1))
      (onStore (fun state => board.create now request state user) issued) := by
  simp only [create]
  cases request.form with
  | error refusal => exact isolated_constant _
  | ok form =>
      by_cases hblank : isBlankText form.kind
      · simp only [hblank, if_true]
        exact isolated_constant _
      · simp only [hblank]
        have hinsert : Store.Isolated user.id (board.freshId (issued + 1))
            (Store.insert (Feedback.ofForm (board.freshId (issued + 1)) user.id form now)) :=
          Store.isolated_insert _ rfl rfl
        exact hinsert.map fun result => (Answer.ofStore Answer.send result, issued + 1)

/-- Changing a row within the user's reach is isolated. -/
theorem isolated_revise {freshId : String} (hrole : user.role = .user) (id : String) :
    Store.Isolated user.id freshId
      (onStore (fun state => Board.revise now request state user id) issued) := by
  simp only [Board.revise, scope_of_role hrole]
  cases request.form with
  | error refusal => exact isolated_constant _
  | ok form => exact isolated_operation _ (Store.isolated_revise id form now)

/-- Every action is confined to the rows of who asks. -/
theorem isolated_perform (hcaller : board.caller request = .ok user) (hrole : user.role = .user)
    (action : Action) :
    Store.Isolated user.id (board.freshId (issued + 1))
      (onStore (fun state => board.perform now request action state) issued) := by
  cases action <;> simp only [perform]
  case health => exact isolated_constant _
  case reviews => exact isolated_forAdmin hcaller hrole _
  case listAll => exact isolated_forAdmin hcaller hrole _
  case removeAll => exact isolated_forAdmin hcaller hrole _
  case listIds => exact isolated_forAdmin hcaller hrole _
  case exportAll => exact isolated_forAdmin hcaller hrole _
  case listPage => exact isolated_forAdmin hcaller hrole _
  case listOwn =>
      apply isolated_forVerified hcaller hrole
      exact isolated_operation _ Store.isolated_newestOf
  case removeOwn =>
      apply isolated_forVerified hcaller hrole
      exact isolated_operation _ Store.isolated_removeUser
  case create => exact isolated_forVerified hcaller hrole isolated_create
  case read path =>
      apply isolated_forRow hcaller hrole
      intro id
      simp only [scope_of_role hrole]
      exact isolated_operation _ (Store.isolated_find id)
  case revise path => exact isolated_forRow hcaller hrole path (isolated_revise hrole)
  case remove path =>
      apply isolated_forRow hcaller hrole
      intro id
      simp only [scope_of_role hrole]
      exact isolated_operation _ (Store.isolated_remove id)

/-! ## Requests -/

/-- Every request is confined to the rows of who asks. -/
theorem isolated_handle (hcaller : board.caller request = .ok user) (hrole : user.role = .user) :
    Store.Isolated user.id (board.freshId (issued + 1))
      (onStore (fun state => board.handle now request state) issued) := by
  simp only [handle]
  by_cases hoptions : request.method = "OPTIONS"
  · simp only [if_pos hoptions]
    exact isolated_constant _
  · simp only [if_neg hoptions]
    cases Route.ofPath? request.path with
    | none => exact isolated_constant _
    | some route =>
        cases haction : route.action? request.method with
        | none =>
            simp only [haction]
            exact isolated_constant _
        | some action =>
            simp only [haction]
            exact isolated_map (fun reply : Reply =>
              { reply.response with headersOnly := request.method = "HEAD" })
              (isolated_perform hcaller hrole action)

/--
A user without administrative rights gets the same response from any two stores
with the same rows of that user, leaves the same rows of that user in both, and
leaves the rows of everybody else as they are.
-/
theorem handle_isolated (board : Board) (now : Int64) (request : Request) (issued : Nat)
    {secret : String} {user : User} {s t : Store} (hsecret : request.secret? = some secret)
    (huser : board.registry.authenticate? secret = some user) (hrole : user.role = .user)
    (hs : s.Admits (board.freshId (issued + 1))) (ht : t.Admits (board.freshId (issued + 1)))
    (halike : s.Alike user.id t) :
    let fromFirst := board.handle now request ⟨s, issued⟩
    let fromSecond := board.handle now request ⟨t, issued⟩
    fromFirst.1 = fromSecond.1 ∧ fromFirst.2.issued = fromSecond.2.issued ∧
      fromFirst.2.store.Alike user.id fromSecond.2.store ∧
      s.SparesOthers user.id fromFirst.2.store ∧ t.SparesOthers user.id fromSecond.2.store ∧
      fromFirst.2.store.ids.Nodup ∧ fromSecond.2.store.ids.Nodup := by
  intro fromFirst fromSecond
  have hisolated : Store.Isolated user.id (board.freshId (issued + 1))
      (onStore (fun state => board.handle now request state) issued) :=
    isolated_handle (caller_of_secret hsecret huser) hrole
  have hanswer := Prod.mk.inj (hisolated.answer hs ht halike)
  exact ⟨hanswer.1, hanswer.2, hisolated.alike hs ht halike, hisolated.spares hs,
    hisolated.spares ht, hisolated.distinct hs, hisolated.distinct ht⟩

/-- Removing a row of somebody else is answered as if there were no such row. -/
theorem handle_isolated_remove :
    let ann : User := ⟨"ann", "Ann", .user⟩
    let board : Board := ⟨⟨[(secretDigest "s", ann)]⟩, 10, fun n => toString n⟩
    let request : Request :=
      { method := "DELETE"
        target := "/api/v1/evaluations/feedback/f"
        headers := [("authorization", [98, 101, 97, 114, 101, 114, 32, 115])]
        body := [] }
    let row : Feedback := ⟨"f", "bob", 0, "rating", none, none, none, 1, 1⟩
    (board.handle 0 request ⟨.memory [row], 0⟩).1 = (board.handle 0 request ⟨.memory [], 0⟩).1 ∧
      (Store.memory [row]).SparesOthers "ann" (board.handle 0 request ⟨.memory [row], 0⟩).2.store := by
  intro ann board request row
  have hsecret : request.secret? = some "s" := by decide
  have huser : board.registry.authenticate? "s" = some ann := List.lookup_cons_self
  have hfirst : (Store.memory [row]).Admits (board.freshId 1) := by
    constructor
    · exact List.nodup_singleton _
    · simp only [Store.ids, List.map_singleton, List.mem_singleton]
      decide
  have hsecond : (Store.memory []).Admits (board.freshId 1) := ⟨List.nodup_nil, List.not_mem_nil⟩
  have halike : (Store.memory [row]).Alike ann.id (.memory []) := by
    apply Store.Alike.memory
    intro other hother
    simp only [List.mem_singleton, List.not_mem_nil, iff_false]
    rintro rfl
    exact absurd hother (by decide)
  obtain ⟨hresponse, _, _, hspares, _⟩ :=
    handle_isolated board 0 request 0 hsecret huser rfl hfirst hsecond halike
  exact ⟨hresponse, hspares⟩

end Board

end FeedbackBoard
