import FeedbackBoard.Api.Board
import FeedbackBoard.Proofs.Database.StoredRows
import FeedbackBoard.Proofs.Store.Invariants

/-!
# Rows that the interface admits

Every row that the interface makes has an id, belongs to a user of the registry,
and has contents that the parser has read one level below the form around them.
No request changes that, so it holds of every row after any number of requests.

Main definitions:

- `Feedback.IsAdmitted`: a row as the interface makes it.

Main results:

- `Registry.exists_token_of_mem`: users of a registry are named by its entries.
- `Board.admitted_perform`, `Board.admitted_handle`: one action, one request.
- `Board.admitted_handleAll`: any number of requests.
-/

namespace FeedbackBoard

open Json (levelLimit)

/-! ## Users of a registry -/

namespace Registry

theorem mem_of_mem_setUser {digest : String} {user : User} {users : List (String × User)}
    {entry : String × User} (h : entry ∈ setUser digest user users) :
    entry.2 = user ∨ entry ∈ users := by
  induction users with
  | nil => exact Or.inl (congrArg Prod.snd (List.mem_singleton.mp h))
  | cons first rest ih =>
      rw [setUser] at h
      split at h
      · rcases List.mem_cons.mp h with rfl | h
        · exact Or.inl rfl
        · exact Or.inr (List.mem_cons_of_mem _ h)
      · rcases List.mem_cons.mp h with rfl | h
        · exact Or.inr List.mem_cons_self
        · exact (ih h).imp_right (List.mem_cons_of_mem _)

theorem userId_of_userOf {token : TokenEntry} {user : User} (h : userOf? token = some user) :
    token.userId = user.id := by
  obtain ⟨role, _, rfl⟩ := Option.map_eq_some_iff.mp h
  rfl

/-- Every user of a registry is named by one of the entries that it was made from. -/
theorem exists_token_of_mem {tokens : List TokenEntry} {entry : String × User}
    (h : entry ∈ (ofTokens tokens).users) : ∃ token ∈ tokens, token.userId = entry.2.id := by
  -- Entries are taken one after the other, so the last one is looked at first.
  induction tokens using List.reverseRecOn with
  | nil => cases h
  | append_singleton before token ih =>
      simp only [ofTokens, List.foldl_append, List.foldl_cons, List.foldl_nil] at h ih
      have hbefore : (∃ token ∈ before, token.userId = entry.2.id) →
          ∃ other ∈ before ++ [token], other.userId = entry.2.id := fun ⟨other, hother, hid⟩ =>
        ⟨other, List.mem_append_left _ hother, hid⟩
      split at h
      next user huser =>
        rcases mem_of_mem_setUser h with heq | h
        · refine ⟨token, List.mem_append_right before List.mem_cons_self, ?_⟩
          rw [heq]
          exact userId_of_userOf huser
        · exact hbefore (ih h)
      next => exact hbefore (ih h)

end Registry

/-! ## Rows -/

/-- A row as the interface makes it. -/
structure Feedback.IsAdmitted (registry : Registry) (row : Feedback) : Prop where
  id_ne : row.id ≠ ""
  known : ∃ entry ∈ registry.users, entry.2.id = row.userId
  read : ∀ value ∈ row.contents, value.IsContent (levelLimit - 1)

namespace Feedback.IsAdmitted

variable {registry : Registry} {row : Feedback}

/-- A form that has been read keeps a row admitted. -/
theorem revise (h : row.IsAdmitted registry) {form : Form} (now : Int64)
    (hform : ∀ value ∈ form.contents, value.IsContent (levelLimit - 1)) :
    (row.revise form now).IsAdmitted registry where
  id_ne := h.id_ne
  known := h.known
  read := hform

/-- An admitted row is stored and read back as one. -/
theorem toFeedback_ofFeedback (h : row.IsAdmitted registry) :
    (StoredRow.ofFeedback row).toFeedback.IsAdmitted registry := by
  have hread : (StoredRow.ofFeedback row).toFeedback = row.reread :=
    StoredRow.toFeedback_ofFeedback fun value hvalue =>
      (h.read value hvalue).mono (Nat.sub_le levelLimit 1)
  rw [hread]
  exact ⟨h.id_ne, h.known, isContent_reread h.read⟩

end Feedback.IsAdmitted

/-- The contents of the form in a body have been read one level below it. -/
theorem Request.isContent_of_form {request : Request} {form : Feedback.Form}
    (h : request.form = .ok form) :
    ∀ value ∈ form.contents, value.IsContent (levelLimit - 1) := by
  rw [Request.form] at h
  split at h
  · cases h
  · split at h
    · cases h
    · split at h
      next read hread =>
        cases h
        exact Feedback.Form.isContent_of_isParsed (Json.isParsed_of_ofDocument hread)
      next => cases h
      next => cases h

namespace Board

variable {board : Board} {request : Request} {state : State}

/-! ## Who asks -/

/-- Whoever has an approved account is in the registry. -/
theorem known_of_verifiedCaller {user : User} (h : board.verifiedCaller request = .ok user) :
    ∃ entry ∈ board.registry.users, entry.2.id = user.id := by
  have hcaller : board.caller request = .ok user := by
    rw [verifiedCaller] at h
    split at h
    next => cases h
    next found hfound =>
      split at h
      · cases h
        exact hfound
      · cases h
  rw [caller] at hcaller
  split at hcaller
  next => cases hcaller
  next secret _ =>
    split at hcaller
    next => cases hcaller
    next found hfound =>
      cases hcaller
      obtain ⟨before, after, husers, _⟩ := List.lookup_eq_some_iff.mp hfound
      refine ⟨(secretDigest secret, user), ?_, rfl⟩
      rw [husers]
      exact List.mem_append_right before List.mem_cons_self

/-! ## Actions -/

section Callers

variable {P : Feedback → Prop} (h : state.store.Holds P)
include h

theorem holds_forAdmin {act : User → Answer × State}
    (hact : ∀ user, (act user).2.store.Holds P) :
    (board.forAdmin request state act).2.store.Holds P := by
  rw [forAdmin]
  split
  · exact h
  · exact hact _

theorem holds_forVerified {act : User → Answer × State}
    (hact : ∀ user, board.verifiedCaller request = .ok user → (act user).2.store.Holds P) :
    (board.forVerified request state act).2.store.Holds P := by
  rw [forVerified]
  split
  next => exact h
  next user huser => exact hact user huser

theorem holds_forRow (path : List Char) {act : User → String → Answer × State}
    (hact : ∀ user id, (act user id).2.store.Holds P) :
    (board.forRow request state path act).2.store.Holds P := by
  rw [forRow]
  split
  · exact h
  · split
    · exact h
    · exact hact _ _

end Callers

variable (h : state.store.Holds (Feedback.IsAdmitted board.registry)) (now : Int64)
include h

/-- A row that is added is admitted. -/
theorem admitted_create (hfresh : ∀ n, board.freshId n ≠ "") {user : User}
    (huser : board.verifiedCaller request = .ok user) :
    (board.create now request state user).2.store.Holds (Feedback.IsAdmitted board.registry) := by
  rw [create]
  split
  next => exact h
  next form hform =>
    split
    · exact h
    · exact h.insert ⟨hfresh _, known_of_verifiedCaller huser, request.isContent_of_form hform⟩

/-- A row that is changed stays admitted. -/
theorem admitted_revise (user : User) (id : String) :
    (Board.revise now request state user id).2.store.Holds
      (Feedback.IsAdmitted board.registry) := by
  rw [Board.revise]
  split
  next => exact h
  next form hform =>
    exact h.revise (fun row hrow => hrow.revise now (request.isContent_of_form hform)) id _

/-- Whatever is asked for, all rows stay admitted. -/
theorem admitted_perform (hfresh : ∀ n, board.freshId n ≠ "") (action : Action) :
    (board.perform now request action state).2.store.Holds
      (Feedback.IsAdmitted board.registry) := by
  cases action <;> rw [perform]
  case health => exact h
  case reviews | listAll | listIds | exportAll => exact holds_forAdmin h fun _ => h
  case listPage =>
      refine holds_forAdmin h fun user => ?_
      split <;> exact h
  case removeAll => exact holds_forAdmin h fun _ => h.removeAll
  case listOwn => exact holds_forVerified h fun _ _ => h
  case removeOwn => exact holds_forVerified h fun user _ => h.removeUser user.id
  case create => exact holds_forVerified h fun _ huser => admitted_create h now hfresh huser
  case read path => exact holds_forRow h path fun _ _ => h
  case revise path => exact holds_forRow h path (admitted_revise h now)
  case remove path => exact holds_forRow h path fun user id => h.remove id user.scope

/-! ## Requests -/

/-- After a request all rows are still admitted. -/
theorem admitted_handle (hfresh : ∀ n, board.freshId n ≠ "") (request : Request) :
    (board.handle now request state).2.store.Holds (Feedback.IsAdmitted board.registry) := by
  rw [handle]
  by_cases hoptions : request.method = "OPTIONS"
  · simp only [if_pos hoptions]
    exact h
  · simp only [if_neg hoptions]
    split
    · exact h
    · split
      · exact h
      · exact admitted_perform h now hfresh _

omit now in
/-- After any number of requests all rows are still admitted. -/
theorem admitted_handleAll (hfresh : ∀ n, board.freshId n ≠ "")
    (requests : List (Int64 × Request)) :
    (board.handleAll requests state).2.store.Holds (Feedback.IsAdmitted board.registry) := by
  induction requests generalizing state with
  | nil => exact h
  | cons step rest ih =>
      obtain ⟨now, request⟩ := step
      rw [handleAll]
      exact ih (admitted_handle h now hfresh request)

end Board

end FeedbackBoard
