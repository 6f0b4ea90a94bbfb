import FeedbackBoard.Proofs.Api.Effects
import FeedbackBoard.Proofs.Store.Shown

/-!
# What requests do to the rows

A request that is answered may add a row, apply a form to one, or remove rows; what
it does is determined by who asks and by the form in its body.  Every other request
leaves the rows alone.  So whatever is said about all requests has to be looked at
for three changes of a list of rows.

Main definitions:

- `RowChange`, `RowChange.apply`: the three changes.
- `Board.Asks`: what an action asks of the rows.
- `Board.Makes`: a request is answered and makes a change.

Main results:

- `RowChange.distinct_apply`, `RowChange.filter_apply`: ids stay distinct, and a change of one
  row spares all others.
- `Board.state_handle_ind`: what becomes of a state, operation by operation.
- `Board.Makes.shown`: the rows after a request that makes a change.
- `Board.store_of_not_makes`: the rows after every other request.
-/

namespace FeedbackBoard

/-! ## Changes of rows -/

/-- A change of the rows that a store shows. -/
inductive RowChange
  | add (row : Feedback)
  | revise (id : String) (owner : Option String) (form : Feedback.Form) (now : Int64)
  | remove (filter : RowFilter)

namespace RowChange

/-- The rows after a change; rows that are written are shown as they are read back. -/
def apply (readBack : Feedback → Feedback) : RowChange → List Feedback → List Feedback
  | add row, rows => rows ++ [readBack row]
  | revise id owner form now, rows =>
    rows.map fun row =>
      if RowList.isTarget id owner row then readBack (row.revise form now) else row
  | remove filter, rows => rows.filter fun row => !filter.covers row

/-- The id of the row that a change is about, unless it may be about several. -/
def key? : RowChange → Option String
  | add row => some row.id
  | revise id _ _ _ => some id
  | remove (.row id _) => some id
  | remove (.user _) | remove .all => none

variable {readBack : Feedback → Feedback} {change : RowChange} {rows : List Feedback}
  (hread : ∀ row, (readBack row).id = row.id)
include hread

/-- A form leaves the ids of all rows as they are. -/
theorem map_id_revise (id : String) (owner : Option String) (form : Feedback.Form) (now : Int64) :
    ((revise id owner form now).apply readBack rows).map Feedback.id = rows.map Feedback.id := by
  rw [apply, List.map_map]
  apply List.map_congr_left
  intro row _
  rw [Function.comp_apply]
  split
  · exact hread _
  · rfl

/-- A change keeps ids distinct if a row that is added brings a fresh one. -/
theorem distinct_apply (hfresh : ∀ row, change = .add row → row.id ∉ rows.map Feedback.id)
    (h : DistinctIds Feedback.id rows) : DistinctIds Feedback.id (change.apply readBack rows) := by
  cases change with
  | add row =>
      apply h.append_fresh
      rw [hread]
      exact hfresh row rfl
  | revise id owner form now =>
      rw [DistinctIds, map_id_revise hread]
      exact h
  | remove filter => exact h.filter _

/-- The id of a row after a change is the id of one before it, or of one that is added. -/
theorem mem_map_id_apply {id : String}
    (h : id ∈ (change.apply readBack rows).map Feedback.id) :
    id ∈ rows.map Feedback.id ∨ ∃ row, change = .add row ∧ row.id = id := by
  cases change with
  | add row =>
      rw [apply, List.map_append, List.map_singleton, hread, List.mem_append,
        List.mem_singleton] at h
      exact h.imp_right fun hid => ⟨row, rfl, hid.symm⟩
  | revise key owner form now =>
      rw [map_id_revise hread] at h
      exact Or.inl h
  | remove filter => exact Or.inl ((List.filter_sublist.map Feedback.id).subset h)

omit hread in
/-- A row after a change is one before it, or one that is added, or one with a new form. -/
theorem mem_apply {row : Feedback} (h : row ∈ change.apply readBack rows) :
    (row ∈ rows ∧ ∀ id owner form now, change = .revise id owner form now →
        ¬ RowList.isTarget id owner row) ∨
      (∃ first, change = .add first ∧ row = readBack first) ∨
        ∃ id owner form now, ∃ before ∈ rows, change = .revise id owner form now ∧
          RowList.isTarget id owner before ∧ row = readBack (before.revise form now) := by
  cases change with
  | add first =>
      rcases List.mem_append.mp h with hrow | hrow
      · exact Or.inl ⟨hrow, nofun⟩
      · exact Or.inr (Or.inl ⟨first, rfl, List.mem_singleton.mp hrow⟩)
  | revise id owner form now =>
      obtain ⟨before, hbefore, rfl⟩ := List.mem_map.mp h
      split
      next htarget =>
        exact Or.inr (Or.inr ⟨id, owner, form, now, before, hbefore, rfl, htarget, rfl⟩)
      next hspared =>
        refine Or.inl ⟨hbefore, ?_⟩
        rintro _ _ _ _ heq
        cases heq
        exact hspared
  | remove filter => exact Or.inl ⟨List.mem_of_mem_filter h, nofun⟩

/-- A change of one row spares the rows of all other ids. -/
theorem filter_apply {key : String} (hkey : change.key? = some key) :
    (change.apply readBack rows).filter (fun row => row.id != key) =
      rows.filter fun row => row.id != key := by
  cases change with
  | add row =>
      cases hkey
      rw [apply, List.filter_append, List.filter_cons_of_neg (by simp [hread]), List.filter_nil,
        List.append_nil]
  | revise id owner form now =>
      obtain rfl : id = key := Option.some.inj hkey
      have hspared : ∀ row ∈ rows.filter (fun row => row.id != id),
          ¬ RowList.isTarget id owner row := by
        intro row hrow htarget
        have hne := (List.mem_filter.mp hrow).2
        rw [bne_iff_ne] at hne
        exact hne (RowList.id_of_isTarget htarget)
      have hsame : (fun row : Feedback => row.id != id) ∘ (fun row =>
          if RowList.isTarget id owner row then readBack (row.revise form now) else row) =
          fun row => row.id != id := by
        funext row
        rw [Function.comp_apply]
        split
        · rw [hread]
          rfl
        · rfl
      rw [apply, List.filter_map, hsame]
      exact map_if_eq_self hspared
  | remove filter =>
      rw [apply, List.filter_filter]
      apply List.filter_congr
      intro row _
      cases filter with
      | row id owner =>
          obtain rfl : id = key := Option.some.inj hkey
          rw [RowFilter.covers_row]
          by_cases htarget : RowList.isTarget id owner row
          · simp [htarget, RowList.id_of_isTarget htarget]
          · simp [htarget]
      | user id => cases hkey
      | all => cases hkey

end RowChange

namespace Board

variable {board : Board} {now : Int64} {request : Request} {state : State} {action : Action}
  {change : RowChange}

/-! ## What may become of a state -/

section Induction

variable {P : State → Prop} (hkept : P state)
include hkept

theorem state_forAdmin_ind {act : User → Answer × State} (hact : ∀ user, P (act user).2) :
    P (board.forAdmin request state act).2 :=
  forAdmin_ind (P := fun outcome => P outcome.2) (fun _ => hkept) hact

theorem state_forVerified_ind {act : User → Answer × State} (hact : ∀ user, P (act user).2) :
    P (board.forVerified request state act).2 :=
  forVerified_ind (P := fun outcome => P outcome.2) (fun _ => hkept) hact

theorem state_forRow_ind {path : List Char} {act : User → String → Answer × State}
    (hact : ∀ user id, P (act user id).2) : P (board.forRow request state path act).2 :=
  forRow_ind (P := fun outcome => P outcome.2) (fun _ => hkept) hkept hact

/-- A request leaves a state as it is, or performs one operation that changes rows. -/
theorem state_handle_ind
    (hinsert : ∀ row, P ⟨(state.store.insert row).2, state.issued + 1⟩)
    (hrevise : ∀ id owner form, P ⟨(state.store.revise id owner form now).2, state.issued⟩)
    (hremove : ∀ id owner, P ⟨(state.store.remove id owner).2, state.issued⟩)
    (hremoveUser : ∀ user, P ⟨(state.store.removeUser user).2, state.issued⟩)
    (hremoveAll : P ⟨state.store.removeAll.2, state.issued⟩) :
    P (board.handle now request state).2 := by
  rcases board.handle_cases now request state with ⟨route, action, hroute, haction⟩ | hstate
  · rw [handle_of_action hroute haction]
    by_cases hreading : action.isReading = true
    · rw [perform_of_isReading hreading]
      exact hkept
    · cases action <;> try exact absurd rfl hreading
      all_goals rw [perform]
      case removeAll => exact state_forAdmin_ind hkept fun _ => hremoveAll
      case removeOwn => exact state_forVerified_ind hkept fun user => hremoveUser user.id
      case create =>
          refine state_forVerified_ind hkept fun user => ?_
          rw [create]
          split
          · exact hkept
          · split
            · exact hkept
            · exact hinsert _
      case revise path =>
          refine state_forRow_ind hkept fun user id => ?_
          rw [Board.revise]
          split
          · exact hkept
          · exact hrevise id user.scope _
      case remove path => exact state_forRow_ind hkept fun user id => hremove id user.scope
  · rw [hstate]
    exact hkept

end Induction

/-- Fresh ids are not given back. -/
theorem issued_handle (board : Board) (now : Int64) (request : Request) (state : State) :
    state.issued ≤ (board.handle now request state).2.issued :=
  state_handle_ind (P := fun after => state.issued ≤ after.issued) (Nat.le_refl _)
    (fun _ => Nat.le_succ _) (fun _ _ _ => Nat.le_refl _) (fun _ _ => Nat.le_refl _)
    (fun _ => Nat.le_refl _) (Nat.le_refl _)

/-- A store that can be read can still be read after a request. -/
theorem isReady_handle (h : state.store.isReady = true) :
    (board.handle now request state).2.store.isReady = true :=
  state_handle_ind (P := fun after => after.store.isReady = true) h (by simp [h]) (by simp [h])
    (by simp [h]) (by simp [h]) (by simp [h])

/-! ## What is asked -/

/-- What an action asks of the rows, by whom and with which form. -/
inductive Asks (board : Board) (now : Int64) (request : Request) (state : State) :
    Action → RowChange → Prop
  | create {user : User} {form : Feedback.Form} (caller : board.verifiedCaller request = .ok user)
      (read : request.form = .ok form) :
      Asks board now request state .create
        (.add (Feedback.ofForm (board.freshId (state.issued + 1)) user.id form now))
  | revise {user : User} {path : List Char} {id : String} {form : Feedback.Form}
      (caller : board.verifiedCaller request = .ok user) (named : pathDecoded? path = some id)
      (read : request.form = .ok form) :
      Asks board now request state (.revise path) (.revise id user.scope form now)
  | remove {user : User} {path : List Char} {id : String}
      (caller : board.verifiedCaller request = .ok user) (named : pathDecoded? path = some id) :
      Asks board now request state (.remove path) (.remove (.row id user.scope))
  | removeOwn {user : User} (caller : board.verifiedCaller request = .ok user) :
      Asks board now request state .removeOwn (.remove (.user user.id))
  | removeAll {user : User} (caller : board.adminCaller request = .ok user) :
      Asks board now request state .removeAll (.remove .all)

/-- A request asks for an action, is answered with the status 200, and so makes a change. -/
structure Makes (board : Board) (now : Int64) (request : Request) (state : State)
    (action : Action) (change : RowChange) : Prop where
  place : ∃ route, Route.ofPath? request.path = some route ∧
    route.action? request.method = some action
  asks : board.Asks now request state action change
  answered : (board.handle now request state).1.status = 200

/-- What a request that makes a change answers and leaves is what its action does. -/
theorem Makes.perform (h : board.Makes now request state action change) :
    (board.perform now request action state).1.response.status = 200 ∧
      (board.handle now request state).2 = (board.perform now request action state).2 := by
  obtain ⟨⟨route, hroute, haction⟩, -, hanswered⟩ := h
  rw [handle_of_action hroute haction] at hanswered ⊢
  exact ⟨hanswered, rfl⟩

/-- A form that is answered has a kind, and the store adds the row. -/
theorem insert_of_create {user : User} {form : Feedback.Form} (hform : request.form = .ok form)
    (hanswered : (board.create now request state user).1.status = 200) :
    ∃ added, (state.store.insert
        (Feedback.ofForm (board.freshId (state.issued + 1)) user.id form now)).1 = .ok added ∧
      (board.create now request state user).2 =
        ⟨(state.store.insert
          (Feedback.ofForm (board.freshId (state.issued + 1)) user.id form now)).2,
          state.issued + 1⟩ := by
  simp only [create, hform] at hanswered ⊢
  split at hanswered
  next => cases hanswered
  next hkind =>
    obtain ⟨added, hadded⟩ := Answer.status_ofStore_send_iff.mp hanswered
    rw [if_neg hkind]
    exact ⟨added, hadded, rfl⟩

/-- An action asks for one change. -/
theorem Asks.unique {other : RowChange} (h : board.Asks now request state action change)
    (h' : board.Asks now request state action other) : change = other := by
  cases h <;> cases h' <;> simp_all

/-- A request makes one change. -/
theorem Makes.unique {action' : Action} {change' : RowChange}
    (h : board.Makes now request state action change)
    (h' : board.Makes now request state action' change') :
    action = action' ∧ change = change' := by
  obtain ⟨⟨route, hroute, haction⟩, hasks, -⟩ := h
  obtain ⟨⟨route', hroute', haction'⟩, hasks', -⟩ := h'
  obtain rfl : route = route' := Option.some.inj (hroute.symm.trans hroute')
  obtain rfl : action = action' := Option.some.inj (haction.symm.trans haction')
  exact ⟨rfl, hasks.unique hasks'⟩

/-! ## What is done -/

/-- The rows after a request that makes a change; a row that is added needs a fresh id. -/
theorem Makes.shown (h : board.Makes now request state action change)
    (hdistinct : state.store.ids.Nodup)
    (hfresh : action = .create → board.freshId (state.issued + 1) ∉ state.store.ids) :
    (board.handle now request state).2.store.shown =
      change.apply state.store.readBack state.store.shown := by
  obtain ⟨hanswered, hstate⟩ := h.perform
  rw [hstate]
  cases h.asks with
  | create hcaller hform =>
      simp only [Board.perform, forVerified, hcaller, Reply.status_response_json] at hanswered ⊢
      obtain ⟨added, hadded, hafter⟩ := insert_of_create hform hanswered
      rw [hafter]
      exact Store.shown_insert (hfresh rfl) hadded
  | revise hcaller hnamed hform =>
      simp only [Board.perform, forRow, hcaller, hnamed, Reply.status_response_json, Board.revise,
        hform] at hanswered ⊢
      obtain ⟨row, hrow⟩ := Answer.status_ofStore_sendFound_iff.mp hanswered
      exact Store.shown_revise hdistinct hrow
  | remove hcaller hnamed =>
      simp only [Board.perform, forRow, hcaller, hnamed, Reply.status_response_json]
        at hanswered ⊢
      exact Store.shown_remove (Answer.status_ofStore_sendRemoved_iff.mp hanswered)
  | removeOwn hcaller =>
      simp only [Board.perform, forVerified, hcaller, Reply.status_response_json] at hanswered ⊢
      obtain ⟨removed, hremoved⟩ := Answer.status_ofStore_send_iff.mp hanswered
      exact Store.shown_removeUser hremoved
  | removeAll hcaller =>
      simp only [Board.perform, forAdmin, hcaller, Reply.status_response_json] at hanswered ⊢
      obtain ⟨removed, hremoved⟩ := Answer.status_ofStore_send_iff.mp hanswered
      exact Store.shown_removeAll hremoved

/-- Every row that is added uses one fresh id. -/
theorem Makes.issued (h : board.Makes now request state .create change) :
    (board.handle now request state).2.issued = state.issued + 1 := by
  obtain ⟨hanswered, hstate⟩ := h.perform
  rw [hstate]
  cases h.asks with
  | create hcaller hform =>
      simp only [Board.perform, forVerified, hcaller, Reply.status_response_json] at hanswered ⊢
      obtain ⟨added, -, hafter⟩ := insert_of_create hform hanswered
      rw [hafter]

/-- A form is applied to some row. -/
theorem Makes.exists_target {path : List Char} {id : String} {owner : Option String}
    {form : Feedback.Form} {time : Int64}
    (h : board.Makes now request state (.revise path) (.revise id owner form time)) :
    ∃ row ∈ state.store.shown, RowList.isTarget id owner row := by
  obtain ⟨hanswered, -⟩ := h.perform
  cases h.asks with
  | revise hcaller hnamed hform =>
      simp only [Board.perform, forRow, hcaller, hnamed, Reply.status_response_json, Board.revise,
        hform] at hanswered
      obtain ⟨row, hrow⟩ := Answer.status_ofStore_sendFound_iff.mp hanswered
      exact Store.exists_target_of_revise hrow

/-- A request leaves the store as it is unless it makes a change. -/
theorem store_of_not_makes
    (h : ∀ action change, ¬ board.Makes now request state action change) :
    (board.handle now request state).2.store = state.store := by
  by_cases hanswered : (board.handle now request state).1.status = 200
  · rcases board.handle_cases now request state with ⟨route, action, hroute, haction⟩ | hstate
    · have hidle : ∀ change, ¬ board.Asks now request state action change :=
        fun change hasks => h action change ⟨⟨route, hroute, haction⟩, hasks, hanswered⟩
      rw [handle_of_action hroute haction]
      by_cases hreading : action.isReading = true
      · rw [perform_of_isReading hreading]
      · cases action <;> try exact absurd rfl hreading
        all_goals rw [Board.perform]
        case removeAll =>
            cases hcaller : board.adminCaller request with
            | error refusal => simp only [forAdmin, hcaller]
            | ok user => exact absurd (.removeAll hcaller) (hidle _)
        case removeOwn =>
            cases hcaller : board.verifiedCaller request with
            | error refusal => simp only [forVerified, hcaller]
            | ok user => exact absurd (.removeOwn hcaller) (hidle _)
        case create =>
            cases hcaller : board.verifiedCaller request with
            | error refusal => simp only [forVerified, hcaller]
            | ok user =>
                cases hform : request.form with
                | error refusal => simp only [forVerified, hcaller, create, hform]
                | ok form => exact absurd (.create hcaller hform) (hidle _)
        case revise path =>
            cases hcaller : board.verifiedCaller request with
            | error refusal => simp only [forRow, hcaller]
            | ok user =>
                cases hnamed : pathDecoded? path with
                | none => simp only [forRow, hcaller, hnamed]
                | some id =>
                    cases hform : request.form with
                    | error refusal => simp only [forRow, hcaller, hnamed, Board.revise, hform]
                    | ok form => exact absurd (.revise hcaller hnamed hform) (hidle _)
        case remove path =>
            cases hcaller : board.verifiedCaller request with
            | error refusal => simp only [forRow, hcaller]
            | ok user =>
                cases hnamed : pathDecoded? path with
                | none => simp only [forRow, hcaller, hnamed]
                | some id => exact absurd (.remove hcaller hnamed) (hidle _)
    · rw [hstate]
  · exact board.handle_kept now request state (Or.inr hanswered)

/-- After a change ids are still distinct. -/
theorem Makes.distinct (h : board.Makes now request state action change)
    (hdistinct : state.store.ids.Nodup)
    (hfresh : action = .create → board.freshId (state.issued + 1) ∉ state.store.ids) :
    (board.handle now request state).2.store.ids.Nodup := by
  rw [← Store.map_id_shown, h.shown hdistinct hfresh]
  rw [← Store.map_id_shown] at hdistinct hfresh
  apply RowChange.distinct_apply Store.id_readBack _ hdistinct
  rintro row rfl
  cases h.asks
  exact hfresh rfl

/-- After a request ids are still distinct, if the next fresh id is fresh. -/
theorem distinct_handle (hdistinct : state.store.ids.Nodup)
    (hfresh : board.freshId (state.issued + 1) ∉ state.store.ids) :
    (board.handle now request state).2.store.ids.Nodup := by
  by_cases hmakes : ∃ action change, board.Makes now request state action change
  · obtain ⟨action, change, hmakes⟩ := hmakes
    exact hmakes.distinct hdistinct fun _ => hfresh
  · rw [store_of_not_makes fun action change h => hmakes ⟨action, change, h⟩]
    exact hdistinct

end Board

end FeedbackBoard
