import FeedbackBoard.Proofs.Access.Admission
import FeedbackBoard.Proofs.Api.Changes
import FeedbackBoard.Proofs.Store.Mirror

/-!
# Histories of rows

Every row that a run of requests leaves has a history: one request has added it, for
its caller and at its time, and no request since has changed whose it is and when it
was added; the last request that has set its contents says what they are and when
they were set.  A row that is gone was removed by its owner or by an administrator.

Main definitions:

- `Board.reached`, `Board.MakesAt`: the states of a run, and the changes that its requests make.
- `Board.Drawn`: all ids of rows are fresh ids that have been used.
- `Board.History`: a row, the request that added it and the last one that set its contents.
- `Board.TakesAway`: a request removes a row, and its caller may.

Main results:

- `Board.Drawn.reached`: ids stay distinct and fresh ids fresh along a run.
- `Board.exists_history_reached`: every row has a history.
- `Board.takesAway_of_left`: how a row leaves.
- `Board.histories`: both for all runs from a store without rows.
-/

namespace FeedbackBoard

/-! ## Rows -/

namespace Feedback

/-- Rows that are one row at different times, as far as its origin goes. -/
structure SameOrigin (a b : Feedback) : Prop where
  id : a.id = b.id
  userId : a.userId = b.userId
  version : a.version = b.version
  createdAt : a.createdAt = b.createdAt

/-- The row has the contents of a form, and the time at which they were set. -/
structure Carries (row : Feedback) (form : Form) (now : Int64) : Prop where
  kind : row.kind = form.kind
  data : row.data = form.data
  info : row.info = form.info
  snapshot : row.snapshot = form.snapshot
  updatedAt : row.updatedAt = now

end Feedback

namespace Board

variable {board : Board} {run : List (Int64 × Request)} {start : State}

/-! ## States of a run -/

/-- The state before a request of a run. -/
def reached (board : Board) (run : List (Int64 × Request)) (start : State) (n : Nat) : State :=
  (board.handleAll (run.take n) start).2

/-- A request of a run makes a change. -/
def MakesAt (board : Board) (run : List (Int64 × Request)) (start : State) (n : Nat)
    (now : Int64) (request : Request) (action : Action) (change : RowChange) : Prop :=
  run[n]? = some (now, request) ∧
    board.Makes now request (board.reached run start n) action change

theorem handleAll_append (before after : List (Int64 × Request)) (state : State) :
    (board.handleAll (before ++ after) state).2 =
      (board.handleAll after (board.handleAll before state).2).2 := by
  induction before generalizing state with
  | nil => rfl
  | cons step rest ih => exact ih _

/-- The state after a request is what the request leaves. -/
theorem reached_succ {n : Nat} {now : Int64} {request : Request}
    (h : run[n]? = some (now, request)) :
    board.reached run start (n + 1) =
      (board.handle now request (board.reached run start n)).2 := by
  rw [reached, List.take_add_one, handleAll_append, h]
  rfl

/-- After the last request nothing happens. -/
theorem reached_succ_of_none {n : Nat} (h : run[n]? = none) :
    board.reached run start (n + 1) = board.reached run start n := by
  rw [reached, List.take_add_one, h, Option.toList_none, List.append_nil, ← reached]

/-- What every request keeps holds of every state of a run. -/
theorem reached_ind {P : State → Prop} (hstart : P start)
    (hstep : ∀ now request state, P state → P (board.handle now request state).2) (n : Nat) :
    P (board.reached run start n) := by
  induction n with
  | zero => exact hstart
  | succ n ih =>
      cases hrequest : run[n]? with
      | none =>
          rw [reached_succ_of_none hrequest]
          exact ih
      | some step =>
          rw [reached_succ hrequest]
          exact hstep _ _ _ ih

/-- Fresh ids are not given back along a run. -/
theorem issued_reached_mono (board : Board) (run : List (Int64 × Request)) (start : State) :
    Monotone fun n => (board.reached run start n).issued := by
  apply monotone_nat_of_le_succ
  intro n
  cases hrequest : run[n]? with
  | none => rw [reached_succ_of_none hrequest]
  | some step =>
      rw [reached_succ hrequest]
      exact board.issued_handle _ _ _

/-! ## Fresh ids -/

/-- The store can be read, no two rows have one id, and all ids are fresh ids that are used. -/
structure Drawn (board : Board) (state : State) : Prop where
  ready : state.store.isReady = true
  distinct : state.store.ids.Nodup
  drawn : ∀ id ∈ state.store.ids, ∃ k ≤ state.issued, board.freshId k = id

section Empty

variable {store : Store} (h : store = .emptyMemory ∨ ∃ migrated, store = .emptyDatabase migrated)
include h

/-- An empty store can be read, and shows nothing. -/
theorem isReady_and_shown_empty : store.isReady = true ∧ store.shown = [] := by
  rcases h with rfl | ⟨migrated, rfl⟩
  · exact ⟨rfl, rfl⟩
  · obtain ⟨db, hdb, hready, -, hrows⟩ := Store.exists_emptyDatabase migrated
    rw [hdb]
    exact ⟨hready, congrArg (List.map StoredRow.toFeedback) hrows⟩

/-- An empty store holds no ids. -/
theorem drawn_empty (issued : Nat) : board.Drawn ⟨store, issued⟩ := by
  obtain ⟨hready, hshown⟩ := isReady_and_shown_empty h
  have hids : store.ids = [] := by
    rw [← Store.map_id_shown, hshown, List.map_nil]
  refine ⟨hready, ?_, ?_⟩
  · rw [hids]
    exact List.nodup_nil
  · intro id hid
    rw [hids] at hid
    cases hid

end Empty

namespace Drawn

/-- Rows that are shown with one id are one row. -/
theorem eq_of_id_eq {state : State} (h : board.Drawn state) {a b : Feedback}
    (ha : a ∈ state.store.shown) (hb : b ∈ state.store.shown) (hid : a.id = b.id) : a = b := by
  have hdistinct : DistinctIds Feedback.id state.store.shown := by
    rw [DistinctIds, Store.map_id_shown]
    exact h.distinct
  exact hdistinct.eq_of_id_eq ha hb hid

variable {state : State} (h : board.Drawn state) (hfresh : Function.Injective board.freshId)
include h hfresh

/-- The next fresh id is the id of no row. -/
theorem fresh : board.freshId (state.issued + 1) ∉ state.store.ids := by
  intro hmem
  obtain ⟨k, hk, heq⟩ := h.drawn _ hmem
  have hsame : k = state.issued + 1 := hfresh heq
  omega

/-- A request draws its ids. -/
theorem handle (now : Int64) (request : Request) :
    board.Drawn (board.handle now request state).2 where
  ready := isReady_handle h.ready
  distinct := distinct_handle h.distinct (h.fresh hfresh)
  drawn := by
    have hkept : ∀ id ∈ state.store.ids,
        ∃ k ≤ (board.handle now request state).2.issued, board.freshId k = id := by
      intro id hid
      obtain ⟨k, hk, heq⟩ := h.drawn id hid
      exact ⟨k, hk.trans (board.issued_handle now request state), heq⟩
    intro id hid
    by_cases hmakes : ∃ action change, board.Makes now request state action change
    · obtain ⟨action, change, hmakes⟩ := hmakes
      rw [← Store.map_id_shown, hmakes.shown h.distinct fun _ => h.fresh hfresh] at hid
      rcases RowChange.mem_map_id_apply Store.id_readBack hid with hid | ⟨row, rfl, rfl⟩
      · rw [Store.map_id_shown] at hid
        exact hkept id hid
      · cases hmakes.asks
        exact ⟨state.issued + 1, hmakes.issued.ge, rfl⟩
    · rw [store_of_not_makes fun action change h => hmakes ⟨action, change, h⟩] at hid
      exact hkept id hid

/-- A run draws its ids. -/
theorem reached (run : List (Int64 × Request)) (n : Nat) :
    board.Drawn (board.reached run state n) :=
  reached_ind (P := board.Drawn) h (fun now request _ hdrawn => hdrawn.handle hfresh now request) n

end Drawn

/-! ## Histories -/

/--
What has happened to a row before a request of a run: one request has added it, and one
that is not earlier was the last to set its contents.
-/
structure History (board : Board) (run : List (Int64 × Request)) (start : State) (n : Nat)
    (row : Feedback) (added changed : Nat) : Prop where
  before : changed < n
  /-- The row was added for the caller, at the time of the request. -/
  origin : ∃ now request user form,
    board.MakesAt run start added now request .create
        (.add (Feedback.ofForm row.id user.id form now)) ∧
      board.verifiedCaller request = .ok user ∧
        row.userId = user.id ∧ row.version = 0 ∧ row.createdAt = now
  /-- No other request has added it. -/
  once : ∀ k now request first,
    board.MakesAt run start k now request .create (.add first) → first.id = row.id → k = added
  /-- It has been there since, with the same origin. -/
  kept : ∀ k, added < k → k ≤ n →
    ∃ earlier ∈ (board.reached run start k).store.shown, earlier.SameOrigin row
  /-- Its contents are those of the form of the last request that set them. -/
  contents : ∃ now request form, run[changed]? = some (now, request) ∧
    request.form = .ok form ∧ row.Carries form now
  /-- This was the request that added it, or a later one for its id. -/
  revised : changed = added ∨ added < changed ∧ ∃ now request path owner form time,
    board.MakesAt run start changed now request (.revise path) (.revise row.id owner form time)
  /-- No request since has set them. -/
  last : ∀ k, changed < k → k < n → ∀ now request path owner form time,
    ¬ board.MakesAt run start k now request (.revise path) (.revise row.id owner form time)

/-- A request removes a row, by its id or together with others, and its caller may. -/
inductive TakesAway (board : Board) (now : Int64) (request : Request) (state : State)
    (row : Feedback) : Prop
  | one {user : User} {path : List Char}
      (makes : board.Makes now request state (.remove path) (.remove (.row row.id user.scope)))
      (named : pathDecoded? path = some row.id) (caller : board.verifiedCaller request = .ok user)
      (permitted : user.id = row.userId ∨ user.isAdmin = true)
  | own {user : User} (makes : board.Makes now request state .removeOwn (.remove (.user user.id)))
      (caller : board.verifiedCaller request = .ok user) (permitted : user.id = row.userId)
  | all {user : User} (makes : board.Makes now request state .removeAll (.remove .all))
      (caller : board.adminCaller request = .ok user)

/-! ### Adding -/

/-- A row that is added is the fresh row of a form for its caller. -/
theorem Makes.add_cases {now : Int64} {request : Request} {state : State} {action : Action}
    {first : Feedback} (h : board.Makes now request state action (.add first)) :
    action = .create ∧ ∃ user form, board.verifiedCaller request = .ok user ∧
      request.form = .ok form ∧
        first = Feedback.ofForm (board.freshId (state.issued + 1)) user.id form now := by
  cases h.asks with
  | create hcaller hform => exact ⟨rfl, _, _, hcaller, hform, rfl⟩

/-- A form that is applied is the form of the request, and it is applied at its time. -/
theorem Makes.revise_cases {now time : Int64} {request : Request} {state : State}
    {action : Action} {id : String} {owner : Option String} {form : Feedback.Form}
    (h : board.Makes now request state action (.revise id owner form time)) :
    time = now ∧ request.form = .ok form ∧ ∃ path, action = .revise path := by
  cases h.asks with
  | revise hcaller hnamed hform => exact ⟨rfl, hform, _, rfl⟩

/-- Later requests use later fresh ids. -/
theorem issued_lt_of_create {i j : Nat} (hij : i < j) {now : Int64} {request : Request}
    {change : RowChange} (h : board.MakesAt run start i now request .create change) :
    (board.reached run start i).issued < (board.reached run start j).issued := by
  have hnext : (board.reached run start (i + 1)).issued =
      (board.reached run start i).issued + 1 := by
    rw [reached_succ h.1]
    exact h.2.issued
  have hmono := issued_reached_mono board run start (show i + 1 ≤ j from hij)
  simp only [hnext] at hmono
  omega

/-- No two requests add rows of one id. -/
theorem eq_of_id_eq_of_create (hfresh : Function.Injective board.freshId) {i j : Nat}
    {now now' : Int64} {request request' : Request} {first first' : Feedback}
    (h : board.MakesAt run start i now request .create (.add first))
    (h' : board.MakesAt run start j now' request' .create (.add first'))
    (hid : first.id = first'.id) : i = j := by
  obtain ⟨-, user, form, -, -, hfirst⟩ := h.2.add_cases
  obtain ⟨-, user', form', -, -, hfirst'⟩ := h'.2.add_cases
  rw [hfirst, hfirst'] at hid
  have hissued := hfresh hid
  rcases Nat.lt_trichotomy i j with hij | hij | hij
  · have hlt := issued_lt_of_create hij h
    omega
  · exact hij
  · have hlt := issued_lt_of_create hij h'
    omega

/-! ### One request more -/

section Step

variable {n : Nat} {row : Feedback} {added changed : Nat}

/-- A row that stays as it is keeps its history. -/
theorem History.stay (h : board.History run start n row added changed)
    (hrow : row ∈ (board.reached run start (n + 1)).store.shown)
    (hspared : ∀ now request path owner form time,
      ¬ board.MakesAt run start n now request (.revise path) (.revise row.id owner form time)) :
    board.History run start (n + 1) row added changed where
  before := Nat.lt_succ_of_lt h.before
  origin := h.origin
  once := h.once
  kept k hlower hupper := by
    rcases Nat.lt_or_eq_of_le hupper with hlt | rfl
    · exact h.kept k hlower (Nat.le_of_lt_succ hlt)
    · exact ⟨row, hrow, rfl, rfl, rfl, rfl⟩
  contents := h.contents
  revised := h.revised
  last k hlower hupper := by
    rcases Nat.lt_succ_iff_lt_or_eq.mp hupper with hlt | rfl
    · exact h.last k hlower hlt
    · exact hspared

/-- A request that applies a form to a row becomes the last one in its history. -/
theorem History.revise (h : board.History run start n row added changed) {now : Int64}
    {request : Request} {path : List Char} {owner : Option String} {form : Feedback.Form}
    (hmakes : board.MakesAt run start n now request (.revise path)
      (.revise row.id owner form now))
    (hform : request.form = .ok form)
    (hrow : row.revise form now ∈ (board.reached run start (n + 1)).store.shown) :
    board.History run start (n + 1) (row.revise form now) added n where
  before := Nat.lt_succ_self n
  origin := h.origin
  once := h.once
  kept k hlower hupper := by
    rcases Nat.lt_or_eq_of_le hupper with hlt | rfl
    · obtain ⟨earlier, hearlier, horigin⟩ := h.kept k hlower (Nat.le_of_lt_succ hlt)
      exact ⟨earlier, hearlier, horigin.id, horigin.userId, horigin.version, horigin.createdAt⟩
    · exact ⟨_, hrow, rfl, rfl, rfl, rfl⟩
  contents := ⟨now, request, form, hmakes.1, hform, rfl, rfl, rfl, rfl, rfl⟩
  revised := by
    have hle : added ≤ changed := by
      rcases h.revised with heq | ⟨hlt, -⟩
      · exact heq.ge
      · exact hlt.le
    exact Or.inr ⟨hle.trans_lt h.before, now, request, path, owner, form, now, hmakes⟩
  last k hlower hupper := by omega

/-- A row that is added begins its history. -/
theorem History.create (hfresh : Function.Injective board.freshId) {now : Int64}
    {request : Request} {user : User} {form : Feedback.Form}
    (hid : row = .ofForm row.id user.id form now)
    (hmakes : board.MakesAt run start n now request .create (.add row))
    (hcaller : board.verifiedCaller request = .ok user) (hform : request.form = .ok form)
    (hrow : row ∈ (board.reached run start (n + 1)).store.shown) :
    board.History run start (n + 1) row n n where
  before := Nat.lt_succ_self n
  origin := by
    refine ⟨now, request, user, form, hid ▸ hmakes, hcaller, ?_⟩
    rw [hid]
    exact ⟨rfl, rfl, rfl⟩
  once k now' request' first hfirst heq := eq_of_id_eq_of_create hfresh hfirst hmakes heq
  kept k hlower hupper := by
    obtain rfl : k = n + 1 := by omega
    exact ⟨row, hrow, rfl, rfl, rfl, rfl⟩
  contents := by
    refine ⟨now, request, form, hmakes.1, hform, ?_⟩
    rw [hid]
    exact ⟨rfl, rfl, rfl, rfl, rfl⟩
  revised := Or.inl rfl
  last k hlower hupper := by omega

/-- What a form says is shown as it was read, by whichever row. -/
theorem readBack_of_form {request : Request} {form : Feedback.Form}
    (hform : request.form = .ok form) (hstable : form.IsStable) {row : Feedback}
    (hcontents : row.contents = form.contents) (store : Store) : store.readBack row = row := by
  cases store with
  | memory rows => rfl
  | database db =>
      apply Feedback.isStorable_of_isContent
      · intro value hvalue
        rw [hcontents] at hvalue
        exact (request.isContent_of_form hform value hvalue).mono (Nat.sub_le _ _)
      · intro value hvalue
        rw [hcontents] at hvalue
        exact hstable value hvalue

variable (hfresh : Function.Injective board.freshId) (hstart : board.Drawn start)
  (hstable : ∀ step ∈ run, ∀ form, step.2.form = .ok form → form.IsStable)
include hfresh hstart hstable

/-- If the rows before a request have histories, so have those after it. -/
theorem exists_history_succ {now : Int64} {request : Request}
    (hrequest : run[n]? = some (now, request))
    (h : ∀ row ∈ (board.reached run start n).store.shown,
      ∃ added changed, board.History run start n row added changed) :
    ∀ row ∈ (board.reached run start (n + 1)).store.shown,
      ∃ added changed, board.History run start (n + 1) row added changed := by
  intro row hrow
  have hdrawn : board.Drawn (board.reached run start n) := hstart.reached hfresh run n
  have hread : ∀ form, request.form = .ok form → form.IsStable :=
    hstable _ (List.mem_of_getElem? hrequest)
  have hafter := hrow
  rw [reached_succ hrequest] at hafter
  by_cases hmakes : ∃ action change,
      board.Makes now request (board.reached run start n) action change
  · obtain ⟨action, change, hmakes⟩ := hmakes
    rw [hmakes.shown hdrawn.distinct fun _ => hdrawn.fresh hfresh] at hafter
    rcases RowChange.mem_apply hafter with ⟨hbefore, hspared⟩ | ⟨first, rfl, rfl⟩ |
      ⟨id, owner, form, time, before, hbefore, rfl, htarget, rfl⟩
    · obtain ⟨added, changed, hhistory⟩ := h row hbefore
      refine ⟨added, changed, hhistory.stay hrow ?_⟩
      rintro now' request' path owner form time ⟨hsame, hrevises⟩
      obtain ⟨rfl, rfl⟩ : now = now' ∧ request = request' :=
        Prod.mk.inj (Option.some.inj (hrequest.symm.trans hsame))
      obtain ⟨-, rfl⟩ := hmakes.unique hrevises
      -- The row whose id the request names is the one that it changes.
      obtain ⟨target, hmem, htarget⟩ := hrevises.exists_target
      rw [hdrawn.eq_of_id_eq hmem hbefore (RowList.id_of_isTarget htarget)] at htarget
      exact hspared _ _ _ _ rfl htarget
    · obtain ⟨rfl, user, form, hcaller, hform, hfirst⟩ := hmakes.add_cases
      have hsame : (board.reached run start n).store.readBack first = first :=
        readBack_of_form hform (hread form hform) (by rw [hfirst]; rfl) _
      rw [hsame] at hrow ⊢
      refine ⟨n, n, .create hfresh ?_ ⟨hrequest, hmakes⟩ hcaller hform hrow⟩
      rw [hfirst]
      rfl
    · obtain ⟨rfl, hform, path, rfl⟩ := hmakes.revise_cases
      have hsame : (board.reached run start n).store.readBack (before.revise form time) =
          before.revise form time := readBack_of_form hform (hread form hform) rfl _
      obtain rfl : before.id = id := RowList.id_of_isTarget htarget
      rw [hsame] at hrow ⊢
      obtain ⟨added, changed, hhistory⟩ := h before hbefore
      exact ⟨added, n, hhistory.revise ⟨hrequest, hmakes⟩ hform hrow⟩
  · rw [store_of_not_makes fun action change hm => hmakes ⟨action, change, hm⟩] at hafter
    obtain ⟨added, changed, hhistory⟩ := h row hafter
    refine ⟨added, changed, hhistory.stay hrow ?_⟩
    rintro now' request' path owner form time ⟨hsame, hrevises⟩
    obtain ⟨rfl, rfl⟩ : now = now' ∧ request = request' :=
      Prod.mk.inj (Option.some.inj (hrequest.symm.trans hsame))
    exact hmakes ⟨_, _, hrevises⟩

end Step

/-- Every row that a run leaves has a history. -/
theorem exists_history_reached (hfresh : Function.Injective board.freshId)
    (hstart : board.Drawn start) (hempty : start.store.shown = [])
    (hstable : ∀ step ∈ run, ∀ form, step.2.form = .ok form → form.IsStable) :
    ∀ {n : Nat}, n ≤ run.length → ∀ row ∈ (board.reached run start n).store.shown,
      ∃ added changed, board.History run start n row added changed := by
  intro n
  induction n with
  | zero =>
      intro _ row hrow
      have hnone : row ∈ start.store.shown := hrow
      rw [hempty] at hnone
      cases hnone
  | succ n ih =>
      intro hlt
      have hrequest : run[n]? = some run[n] := List.getElem?_eq_getElem hlt
      exact exists_history_succ hfresh hstart hstable hrequest (ih (Nat.le_of_succ_le hlt))

/-- If no clock goes back, a row is changed no earlier than it is added. -/
theorem History.createdAt_le {n : Nat} {row : Feedback} {added changed : Nat}
    (h : board.History run start n row added changed)
    (hclock : run.Pairwise fun earlier later => earlier.1 ≤ later.1) :
    row.createdAt ≤ row.updatedAt := by
  obtain ⟨now, request, user, form, ⟨hadded, -⟩, -, -, -, hcreated⟩ := h.origin
  obtain ⟨now', request', form', hchanged, -, hcarries⟩ := h.contents
  rw [hcreated, hcarries.updatedAt]
  rcases h.revised with rfl | ⟨hlt, -⟩
  · rw [hadded] at hchanged
    cases hchanged
    exact Int64.le_refl _
  · obtain ⟨hi, hstep⟩ := List.getElem?_eq_some_iff.mp hadded
    obtain ⟨hj, hstep'⟩ := List.getElem?_eq_some_iff.mp hchanged
    have hle := List.pairwise_iff_getElem.mp hclock added changed hi hj hlt
    rwa [hstep, hstep'] at hle

/-- The last time in a history is a time of the run. -/
theorem History.updatedAt_le {n : Nat} {row : Feedback} {added changed : Nat}
    (h : board.History run start n row added changed) {now : Int64}
    (hnow : ∀ step ∈ run, step.1 ≤ now) : row.updatedAt ≤ now := by
  obtain ⟨time, request, form, hchanged, -, hcarries⟩ := h.contents
  rw [hcarries.updatedAt]
  exact hnow _ (List.mem_of_getElem? hchanged)

/-! ## Leaving -/

/-- A row is within an administrator's reach, and within its owner's. -/
theorem permitted_of_isTarget {user : User} {id : String} {row : Feedback}
    (h : RowList.isTarget id user.scope row) :
    row.id = id ∧ (user.id = row.userId ∨ user.isAdmin = true) := by
  refine ⟨RowList.id_of_isTarget h, ?_⟩
  rw [User.scope] at h
  split at h
  next hadmin => exact Or.inr hadmin
  next =>
    simp only [RowList.isTarget, Feedback.ownedBy, Bool.and_eq_true, beq_iff_eq] at h
    exact Or.inl h.2.symm

/-- A row that is gone after a request was removed by it, and its caller may. -/
theorem takesAway_of_left {state : State} (hdrawn : board.Drawn state)
    (hfresh : Function.Injective board.freshId) {now : Int64} {request : Request} {row : Feedback}
    (hrow : row ∈ state.store.shown)
    (hleft : row.id ∉ (board.handle now request state).2.store.ids) :
    board.TakesAway now request state row := by
  have hid : row.id ∈ state.store.shown.map Feedback.id := List.mem_map_of_mem hrow
  by_cases hmakes : ∃ action change, board.Makes now request state action change
  · obtain ⟨action, change, hmakes⟩ := hmakes
    rw [← Store.map_id_shown, hmakes.shown hdrawn.distinct fun _ => hdrawn.fresh hfresh] at hleft
    have hcovered : ∀ filter, change = .remove filter → filter.covers row = true := by
      rintro filter rfl
      refine Classical.byContradiction fun hspared => hleft ?_
      rw [Bool.not_eq_true] at hspared
      exact List.mem_map_of_mem (List.mem_filter.mpr ⟨hrow, by rw [hspared]; rfl⟩)
    cases hmakes.asks with
    | create hcaller hform =>
        refine absurd ?_ hleft
        rw [RowChange.apply, List.map_append]
        exact List.mem_append_left _ hid
    | revise hcaller hnamed hform =>
        rw [RowChange.map_id_revise Store.id_readBack] at hleft
        exact absurd hid hleft
    | remove hcaller hnamed =>
        have htarget := hcovered _ rfl
        rw [RowFilter.covers_row] at htarget
        obtain ⟨rfl, hpermitted⟩ := permitted_of_isTarget htarget
        exact .one hmakes hnamed hcaller hpermitted
    | removeOwn hcaller => exact .own hmakes hcaller (beq_iff_eq.mp (hcovered _ rfl)).symm
    | removeAll hcaller => exact .all hmakes hcaller
  · rw [store_of_not_makes fun action change hm => hmakes ⟨action, change, hm⟩,
      ← Store.map_id_shown] at hleft
    exact absurd hid hleft

/-! ## Runs from a store without rows -/

/--
After any run of requests from a store without rows, wherever rows are held, every row
that is listed has a history, it was not changed before it was added or after the
present, and every row that any of the requests took away was removed by its owner or by
an administrator.
-/
theorem histories (board : Board) (hfresh : Function.Injective board.freshId) {store : Store}
    (hstore : store = .emptyMemory ∨ ∃ migrated, store = .emptyDatabase migrated) (issued : Nat)
    {run : List (Int64 × Request)}
    (hclock : run.Pairwise fun earlier later => earlier.1 ≤ later.1)
    (hstable : ∀ step ∈ run, ∀ form, step.2.form = .ok form → form.IsStable) :
    (∃ rows, (board.reached run ⟨store, issued⟩ run.length).store.newest = .ok rows ∧
      ∀ row ∈ rows, ∃ added changed,
        board.History run ⟨store, issued⟩ run.length row added changed ∧
          row.createdAt ≤ row.updatedAt ∧
            ∀ now, (∀ step ∈ run, step.1 ≤ now) → row.updatedAt ≤ now) ∧
      ∀ n now request, run[n]? = some (now, request) →
        ∀ row ∈ (board.reached run ⟨store, issued⟩ n).store.shown,
          row.id ∉ (board.reached run ⟨store, issued⟩ (n + 1)).store.ids →
            board.TakesAway now request (board.reached run ⟨store, issued⟩ n) row := by
  have hstart : board.Drawn ⟨store, issued⟩ := drawn_empty hstore issued
  constructor
  · have hdrawn := hstart.reached hfresh run run.length
    refine ⟨_, Store.newest_of_isReady hdrawn.ready, ?_⟩
    intro row hrow
    obtain ⟨added, changed, hhistory⟩ := exists_history_reached hfresh hstart
      (isReady_and_shown_empty hstore).2 hstable (Nat.le_refl _) row (List.mem_mergeSort.mp hrow)
    exact ⟨added, changed, hhistory, hhistory.createdAt_le hclock, fun _ => hhistory.updatedAt_le⟩
  · intro n now request hrequest row hrow hleft
    rw [reached_succ hrequest] at hleft
    exact takesAway_of_left (hstart.reached hfresh run n) hfresh hrow hleft

/-- A rating that was added and then revised has a history, and its owner may take it away. -/
theorem histories_revised :
    let board : Board :=
      ⟨⟨[(secretDigest "s", ⟨"ann", "Ann", .user⟩)]⟩, 10,
        fun n => String.ofList (List.replicate n 'i')⟩
    let ask (method target body : String) : Request :=
      { method := method
        target := "/api/v1/evaluations/" ++ target
        headers :=
          [("authorization", "bearer s".toUTF8.toList),
            ("content-type", "application/json".toUTF8.toList)]
        body := body.toUTF8.toList }
    let run : List (Int64 × Request) :=
      [(1, ask "POST" "feedback" "\x7b\"type\":\"rating\"\x7d"),
        (3, ask "POST" "feedback/i" "\x7b\"type\":\"note\"\x7d"), (4, ask "DELETE" "feedbacks" "")]
    let start : State := ⟨.emptyDatabase 0, 0⟩
    (∃ row added changed, board.History (run.take 2) start 2 row added changed) ∧
      ∃ row ∈ (board.reached run start 2).store.shown,
        board.TakesAway 4 (ask "DELETE" "feedbacks" "") (board.reached run start 2) row := by
  intro board ask run start
  have hfresh : Function.Injective board.freshId := by
    intro m n heq
    have hlength := congrArg List.length (String.ofList_injective heq)
    simpa using hlength
  have hclock : run.Pairwise fun earlier later => earlier.1 ≤ later.1 := by decide
  have hempty : ∀ step ∈ run,
      (step.2.form.toOption.all fun form => form.contents.isEmpty) = true := by decide +kernel
  have hstable : ∀ step ∈ run, ∀ form, step.2.form = .ok form → form.IsStable := by
    intro step hstep form hform value hvalue
    have hnone := hempty step hstep
    rw [hform] at hnone
    rw [List.isEmpty_iff.mp hnone] at hvalue
    cases hvalue
  have hstore : Store.emptyDatabase 0 = .emptyMemory ∨
      ∃ migrated, Store.emptyDatabase 0 = .emptyDatabase migrated := Or.inr ⟨0, rfl⟩
  have hids : (board.reached run start 2).store.ids = ["i"] := by decide +kernel
  have hgone : (board.reached run start 3).store.ids = [] := by decide +kernel
  rw [← Store.map_id_shown, List.map_eq_cons_iff] at hids
  obtain ⟨row, rest, hshown, -⟩ := hids
  have hrow : row ∈ (board.reached run start 2).store.shown := by
    rw [hshown]
    exact List.mem_cons_self
  constructor
  · obtain ⟨⟨rows, hrows, hhistories⟩, -⟩ := board.histories hfresh hstore 0
      (hclock.sublist (List.take_sublist 2 run))
      fun step hstep => hstable step (List.mem_of_mem_take hstep)
    have hready : (board.reached (run.take 2) start 2).store.isReady = true :=
      ((drawn_empty hstore 0).reached hfresh (run.take 2) 2).ready
    have hlisted : (board.reached (run.take 2) start 2).store.newest = .ok rows := hrows
    rw [Store.newest_of_isReady hready] at hlisted
    cases hlisted
    obtain ⟨added, changed, hhistory, -⟩ := hhistories row (List.mem_mergeSort.mpr hrow)
    exact ⟨row, added, changed, hhistory⟩
  · refine ⟨row, hrow, ?_⟩
    refine (board.histories hfresh hstore 0 hclock hstable).2 2 4 _ rfl row hrow ?_
    rw [hgone]
    exact List.not_mem_nil

end Board

end FeedbackBoard
