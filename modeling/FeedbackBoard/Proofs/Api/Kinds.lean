import FeedbackBoard.Proofs.Access.Admission
import FeedbackBoard.Proofs.Api.Effects

/-!
# Kinds of rows

A form with a blank kind adds no row.  A form that is applied to a row is not
looked at in this way, so rows get blank kinds by such forms, and by nothing else.

Main definitions:

- `Feedback.HasKind`: the kind of a row is not blank.
- `Board.SetsBlankKind`: a form with a blank kind is applied to a row.

Main results:

- `Board.hasKind_create`: a row that is added has a kind.
- `Board.hasKind_handle_iff`: which requests leave every row with a kind.
- `Board.hasKind_handleAll_iff`: which runs of requests do.
-/

namespace FeedbackBoard

/-- The kind of a row is not blank. -/
def Feedback.HasKind (row : Feedback) : Prop :=
  isBlankText row.kind = false

/-! ## Revisions -/

theorem RowList.mem_revise_of_find? {rows : RowList} {id : String} {owner : Option String}
    {row : Feedback} (h : rows.find? id owner = some row) (form : Feedback.Form) (now : Int64) :
    row.revise form now ∈ RowList.revise id owner form now rows := by
  induction rows with
  | nil => cases h
  | cons first rest ih =>
      rw [RowList.find?, List.find?_cons] at h
      rw [RowList.revise]
      split at h
      next htarget =>
        cases h
        rw [if_pos htarget]
        exact List.mem_cons_self
      next hother =>
        rw [if_neg (Bool.eq_false_iff.mp hother)]
        exact List.mem_cons_of_mem _ (ih h)

/-- What holds of every row after a revision holds of one with the kind of the form. -/
theorem Store.Holds.of_revise {P : Feedback → Prop} {store : Store} {id : String}
    {owner : Option String} {form : Feedback.Form} {now : Int64} {found : Feedback}
    (h : (store.revise id owner form now).2.Holds P)
    (hfound : (store.revise id owner form now).1 = .ok (some found)) :
    ∃ row, P row ∧ row.kind = form.kind := by
  cases store with
  | memory rows =>
      rw [Store.revise] at h hfound
      split at hfound
      next => cases hfound
      next row hrow =>
        simp only [hrow] at h
        exact ⟨row.revise form now, h _ (RowList.mem_revise_of_find? hrow form now), rfl⟩
  | database db =>
      rw [revise_database] at h hfound
      split at hfound
      next hready =>
        rw [if_pos hready] at h
        cases hstored : db.rows.find? (RowFilter.row id owner).accepts with
        | none =>
            rw [hstored] at hfound
            cases hfound
        | some stored =>
            have hmem : stored.revise form now ∈ db.rows.map fun row =>
                if (RowFilter.row id owner).accepts row then row.revise form now else row := by
              apply List.mem_map.mpr
              refine ⟨stored, List.mem_of_find?_eq_some hstored, ?_⟩
              rw [if_pos (List.find?_some hstored)]
            obtain ⟨row, hrow, heq⟩ := h.2 _ hmem
            exact ⟨row, hrow, congrArg StoredRow.kind heq⟩
      next => cases hfound

/-! ## Requests -/

/-- A revision is asked for by posting to the place of a row. -/
theorem Route.eq_row_of_action? {route : Route} {method : String} {path : List Char}
    (h : route.action? method = some (.revise path)) : route = .row path ∧ method = "POST" := by
  have hlisted : ∀ entry ∈ route.actions, entry.2 = .revise path →
      route = .row path ∧ entry.1 = "POST" := by
    cases route <;> simp [actions]
  obtain ⟨hroute, hmethod⟩ := hlisted _ (mem_actions h) rfl
  refine ⟨hroute, ?_⟩
  by_cases hhead : method = "HEAD"
  · rw [if_pos hhead] at hmethod
    exact absurd hmethod (by decide : "GET" ≠ "POST")
  · rwa [if_neg hhead] at hmethod

namespace Board

variable {board : Board} {now : Int64} {request : Request} {state : State}

/-- A request applies a form with a blank kind to a row, and is answered. -/
structure SetsBlankKind (board : Board) (now : Int64) (request : Request) (state : State) :
    Prop where
  place : ∃ path, Route.ofPath? request.path = some (.row path)
  method : request.method = "POST"
  form : ∃ form, request.form = .ok form ∧ isBlankText form.kind = true
  answered : (board.handle now request state).1.status = 200

/-- What is done with a row is answered only if the path names one and an approved user asks. -/
theorem forRow_answered {path : List Char} {act : User → String → Answer × State}
    (h : (board.forRow request state path act).1.response.status = 200) :
    ∃ user id, (act user id).1.status = 200 ∧
      (board.forRow request state path act).2 = (act user id).2 := by
  revert h
  refine forRow_ind (P := fun outcome => outcome.1.response.status = 200 →
    ∃ user id, (act user id).1.status = 200 ∧ outcome.2 = (act user id).2) ?_ ?_ ?_
  · intro refusal hstatus
    cases refusal <;> cases hstatus
  · intro hstatus
    cases hstatus
  · intro user id hstatus
    rw [Reply.status_response_json] at hstatus
    exact ⟨user, id, hstatus, rfl⟩

/-- A form with a blank kind that is applied leaves a row with a blank kind. -/
theorem SetsBlankKind.not_hasKind (h : board.SetsBlankKind now request state) :
    ¬ (board.handle now request state).2.store.Holds Feedback.HasKind := by
  intro hholds
  obtain ⟨path, hroute⟩ := h.place
  obtain ⟨form, hform, hblank⟩ := h.form
  have haction : (Route.row path).action? request.method = some (.revise path) := by
    rw [h.method]
    rfl
  have hanswered := h.answered
  rw [handle_of_action hroute haction] at hanswered hholds
  change (board.forRow request state path (Board.revise now request state)).1.response.status =
    200 at hanswered
  change (board.forRow request state path (Board.revise now request state)).2.store.Holds _
    at hholds
  obtain ⟨user, id, hstatus, hstate⟩ := forRow_answered hanswered
  rw [hstate] at hholds
  simp only [Board.revise, hform] at hstatus hholds
  obtain ⟨found, hfound⟩ := Answer.status_ofStore_sendFound_iff.mp hstatus
  obtain ⟨row, hrow, hkind⟩ := hholds.of_revise hfound
  rw [Feedback.HasKind, hkind, hblank] at hrow
  cases hrow

section Kept

variable (h : state.store.Holds Feedback.HasKind)
include h

/-- A row that is added has a kind. -/
theorem hasKind_create (user : User) :
    (board.create now request state user).2.store.Holds Feedback.HasKind := by
  rw [create]
  split
  · exact h
  next form _ =>
    split
    · exact h
    next hkind => exact h.insert (Bool.of_not_eq_true hkind)

/-- A row that is revised by a form with a kind has one. -/
theorem hasKind_revise
    (hform : ∀ form, request.form = .ok form → isBlankText form.kind = false) (user : User)
    (id : String) : (Board.revise now request state user id).2.store.Holds Feedback.HasKind := by
  rw [Board.revise]
  split
  · exact h
  next form hread => exact h.revise (fun _ _ => hform form hread) id user.scope

/-- Every action but a revision by a form with a blank kind leaves every row with a kind. -/
theorem hasKind_perform {action : Action}
    (hform : ∀ path form, action = .revise path → request.form = .ok form →
      isBlankText form.kind = false) :
    (board.perform now request action state).2.store.Holds Feedback.HasKind := by
  by_cases hreading : action.isReading = true
  · rw [perform_of_isReading hreading]
    exact h
  · cases action <;> try exact absurd rfl hreading
    all_goals rw [perform]
    case removeAll => exact holds_forAdmin h fun _ => h.removeAll
    case removeOwn => exact holds_forVerified h fun user _ => h.removeUser user.id
    case create => exact holds_forVerified h fun user _ => hasKind_create h user
    case revise path => exact holds_forRow h path (hasKind_revise h fun form => hform path form rfl)
    case remove path => exact holds_forRow h path fun user id => h.remove id user.scope

/-- A request leaves every row with a kind unless it applies a form with a blank kind. -/
theorem hasKind_handle_iff :
    (board.handle now request state).2.store.Holds Feedback.HasKind ↔
      ¬ board.SetsBlankKind now request state := by
  refine ⟨fun hholds hsets => hsets.not_hasKind hholds, fun hspared => ?_⟩
  by_cases hanswered : (board.handle now request state).1.status = 200
  · rcases board.handle_cases now request state with ⟨route, action, hroute, haction⟩ | hstate
    · rw [handle_of_action hroute haction]
      apply hasKind_perform h
      rintro path form rfl hform
      obtain ⟨rfl, hmethod⟩ := Route.eq_row_of_action? haction
      rw [← Bool.not_eq_true]
      exact fun hblank => hspared ⟨⟨path, hroute⟩, hmethod, ⟨form, hform, hblank⟩, hanswered⟩
    · rw [hstate]
      exact h
  · rw [board.handle_kept now request state (Or.inr hanswered)]
    exact h

end Kept

/-! ## Runs -/

/--
From a store whose rows all have kinds, a run of requests passes only through such
stores exactly if none of its requests applies a form with a blank kind.
-/
theorem hasKind_handleAll_iff (board : Board) {state : State}
    (hstart : state.store.Holds Feedback.HasKind) (requests : List (Int64 × Request)) :
    (∀ n, (board.handleAll (requests.take n) state).2.store.Holds Feedback.HasKind) ↔
      ∀ n now request, requests[n]? = some (now, request) →
        ¬ board.SetsBlankKind now request (board.handleAll (requests.take n) state).2 := by
  -- The first request decides whether the rest starts from rows with kinds.
  induction requests generalizing state with
  | nil =>
      simp only [List.take_nil, List.getElem?_nil, reduceCtorEq, false_implies, implies_true,
        iff_true]
      exact fun _ => hstart
  | cons step rest ih =>
      obtain ⟨now, request⟩ := step
      have hstep : (board.handle now request state).2.store.Holds Feedback.HasKind ↔
          ¬ board.SetsBlankKind now request state := hasKind_handle_iff hstart
      constructor
      · intro hholds
        have hrest := (ih (hholds 1)).mp fun n => hholds (n + 1)
        intro n time asked hasked
        cases n with
        | zero =>
            cases hasked
            exact hstep.mp (hholds 1)
        | succ n => exact hrest n time asked hasked
      · intro hspared
        have hnext := hstep.mpr (hspared 0 now request rfl)
        have hrest := (ih hnext).mpr fun n => hspared (n + 1)
        intro n
        cases n with
        | zero => exact hstart
        | succ n => exact hrest n

/-- A rating that is added has a kind; a second form with a blank kind takes it away. -/
theorem hasKind_handleAll_iff_blank :
    let board : Board :=
      ⟨⟨[(secretDigest "s", ⟨"ann", "Ann", .user⟩)]⟩, 10, fun n => toString n⟩
    let post (target body : String) : Request :=
      { method := "POST"
        target := "/api/v1/evaluations/" ++ target
        headers :=
          [("authorization", "bearer s".toUTF8.toList),
            ("content-type", "application/json".toUTF8.toList)]
        body := body.toUTF8.toList }
    let add : Int64 × Request := (1, post "feedback" "\x7b\"type\":\"rating\"\x7d")
    let blank : Int64 × Request := (2, post "feedback/1" "\x7b\"type\":\" \"\x7d")
    (∀ n, (board.handleAll ([add].take n) ⟨.emptyDatabase 0, 0⟩).2.store.Holds
        Feedback.HasKind) ∧
      ∃ n, ¬ (board.handleAll ([add, blank].take n) ⟨.emptyMemory, 0⟩).2.store.Holds
        Feedback.HasKind := by
  intro board post add blank
  constructor
  · have hempty : (Store.emptyDatabase 0).Holds Feedback.HasKind := ⟨rfl, List.forall_mem_nil _⟩
    rw [board.hasKind_handleAll_iff hempty]
    intro n now request hrequest hsets
    obtain ⟨path, hrow⟩ := hsets.place
    have hadd : request = add.2 :=
      congrArg Prod.snd (List.mem_singleton.mp (List.mem_of_getElem? hrequest))
    subst hadd
    have hcreate : Route.ofPath? add.2.path = some .create := by decide +kernel
    rw [hcreate] at hrow
    cases hrow
  · apply Classical.not_forall.mp
    have hempty : Store.emptyMemory.Holds Feedback.HasKind := List.forall_mem_nil _
    rw [board.hasKind_handleAll_iff hempty]
    intro hspared
    have hform : (blank.2.form.toOption.any fun form => isBlankText form.kind) = true := by
      decide +kernel
    apply hspared 1 2 blank.2 rfl
    constructor
    · exact ⟨['1'], by decide +kernel⟩
    · rfl
    · cases hread : blank.2.form with
      | error refusal =>
          rw [hread] at hform
          cases hform
      | ok form =>
          rw [hread] at hform
          exact ⟨form, rfl, hform⟩
    · decide +kernel

end Board

end FeedbackBoard
