import FeedbackBoard.Proofs.Store.Turns
import Mathlib.Data.List.Nodup

/-!
# The order of statements in turns

A call changes rows with its first statement or not at all, so whatever the turns were,
the rows are in the end as if the calls had run one after another: a page at its last
statement, every other call at its first.  In this order a call of one statement answers
what it has answered.  A revision reads its row with a second statement, and a page
counts the rows before it reads them; their answers are those of the order exactly if
nothing has come in between that shows.

Main definitions:

- `Answered`: the answer of a call and its answer in the order.
- `Stage`, `Explained`: how far a call has come, and an order for all calls so far.
- `StoreCall.Undisturbed`: nothing has come in between that shows.

Main results:

- `Stage.step`: what one statement does to its call and to the order.
- `Explained.turn`, `Explained.foldl_turn`: what a turn, and any turns, do to the order.
- `Pool.hasEnded_of_two_le_count`: two turns of each call end it.
- `Pool.exists_order`: the order of a whole run, and when a call answers as in it.
- `Pool.appears_serial`: undisturbed calls run as if one after another.
-/

namespace FeedbackBoard

/-! ## Stages of a call -/

/--
The answer of a call that has found these databases, and its answer in the order.  A
call of one statement answers what it answers in the order.  In the order a revision
answers the row as it has left it, and otherwise as it has found it again; a page has
its rows in the order, and has counted them before.
-/
inductive Answered : StoreCall → (found : List Database) →
    (serial answer : Except DatabaseFailure Outcome) → Prop
  | whole (call : StoreCall) (d : Database) :
    Answered call [d] (call.program.run d).1 (call.program.run d).1
  | reread (id : String) (owner : Option String) (form : Feedback.Form) (now : Int64)
    (d e : Database) :
    Answered (.revise id owner form now) [d, e]
      (((Call.find id owner).map Outcome.rowOrNone).run
        ((Call.revise id owner form now).run d).2).1
      (((Call.find id owner).map Outcome.rowOrNone).run e).1
  | counted (query : PageQuery) (d e : Database) :
    Answered (.page query) [d, e] ((StoreCall.page query).program.run e).1
      (((Call.pageItems query d.rows.length).map Outcome.page).run e).1

/-- How far a call has come, and its answer if it has got its place in the order. -/
inductive Stage : StoreCall → (found : List Database) →
    (serial? : Option (Except DatabaseFailure Outcome)) → Call.State Outcome → Prop
  | waiting (call : StoreCall) : Stage call [] none (.ok call.program)
  | revised (id : String) (owner : Option String) (form : Feedback.Form) (now : Int64)
    (d : Database) :
    Stage (.revise id owner form now) [d]
      (some (((Call.find id owner).map Outcome.rowOrNone).run
        ((Call.revise id owner form now).run d).2).1)
      (.ok ((Call.find id owner).map .rowOrNone))
  | counting (query : PageQuery) (d : Database) :
    Stage (.page query) [d] none (.ok ((Call.pageItems query d.rows.length).map .page))
  | ended {call : StoreCall} {found : List Database}
    {serial answer : Except DatabaseFailure Outcome} {state : Call.State Outcome}
    (hanswer : Call.answer? state = some answer) (hanswered : Answered call found serial answer) :
    Stage call found (some serial) state

/-- The first statement of a call ends it, revises a row, or counts the rows. -/
theorem StoreCall.step_cases {call : StoreCall} {d after : Database} {state : Call.State Outcome}
    (h : call.program.step? d = some (state, after)) :
    (∃ answer, Call.answer? state = some answer) ∨
      (∃ id owner form now, call = .revise id owner form now ∧
        state = .ok ((Call.find id owner).map .rowOrNone)) ∨
      ∃ query, call = .page query ∧ after = d ∧
        state = .ok ((Call.pageItems query d.rows.length).map .page) := by
  cases call with
  | insert row => exact .inl (Call.step?_change h)
  | restoreAll batch => exact .inl (Call.step?_change h)
  | remove filter => exact .inl (Call.step?_change h)
  | revise id owner form now =>
      rw [program, Call.revise, Call.map, Call.step?] at h
      cases hresult : Change.apply? (.revise id owner form now) d with
      | none =>
          rw [hresult] at h
          cases h
          exact .inl ⟨_, rfl⟩
      | some result =>
          rw [hresult] at h
          cases h
          by_cases hnone : result.1 = 0
          · rw [if_pos hnone]
            exact .inl ⟨_, rfl⟩
          · rw [if_neg hnone]
            exact .inr (.inl ⟨id, owner, form, now, rfl, rfl⟩)
  | page query =>
      rw [program, Call.page, Call.map, Call.step?, Query.answer?] at h
      cases hready : d.isReady <;> rw [hready] at h <;> cases h
      · exact .inl ⟨_, rfl⟩
      · exact .inr (.inr ⟨query, rfl, rfl, rfl⟩)

/-- A reading leaves the database as it was. -/
theorem StoreCall.run_page (query : PageQuery) (d : Database) :
    ((StoreCall.page query).program.run d).2 = d := by
  rw [program, Call.run_map, Call.page, Call.run]
  cases Query.count.answer? d with
  | none => rfl
  | some total =>
      dsimp only
      rw [Call.run]
      cases (Query.page query).answer? d <;> rfl

/-- Finding a row leaves the database as it was. -/
theorem Call.run_find (id : String) (owner : Option String) (d : Database) :
    ((Call.find id owner).run d).2 = d := by
  rw [find, run]
  cases (Query.one id owner).answer? d <;> rfl

/-- After its first statement a call leaves the database as the whole call would. -/
theorem StoreCall.eq_run_of_step? {call : StoreCall} {d after : Database}
    {state : Call.State Outcome} (h : call.program.step? d = some (state, after)) :
    after = (call.program.run d).2 := by
  rw [Call.run_of_step? h]
  rcases call.step_cases h with ⟨answer, hanswer⟩ | ⟨id, owner, form, now, rfl, rfl⟩ |
      ⟨query, rfl, rfl, rfl⟩
  · rw [Call.resume_of_answer? hanswer]
  · rw [Call.resume, Call.run_map, Call.run_find]
  · rw [← Call.run_of_step? h, StoreCall.run_page]

/--
A statement either gives its call the next place in the order, with the rows that the
whole call would leave behind; or it leaves the rows and the places as they were.
-/
theorem Stage.step {call : StoreCall} {found : List Database}
    {serial? : Option (Except DatabaseFailure Outcome)} {rest : Call Outcome}
    {state : Call.State Outcome} {d after : Database} (hstage : Stage call found serial? (.ok rest))
    (hstep : rest.step? d = some (state, after)) :
    (serial? = none ∧ after = (call.program.run d).2 ∧
        Stage call (found ++ [d]) (some (call.program.run d).1) state) ∨
      (after = d ∧ Stage call (found ++ [d]) serial? state) := by
  cases hstage with
  | waiting call =>
      have hrun := Call.run_of_step? hstep
      have hafter := StoreCall.eq_run_of_step? hstep
      rcases call.step_cases hstep with ⟨answer, hanswer⟩ | ⟨id, owner, form, now, rfl, rfl⟩ |
          ⟨query, rfl, rfl, rfl⟩
      · refine .inl ⟨rfl, hafter, .ended hanswer ?_⟩
        have hwhole := Answered.whole call d
        rw [hrun, Call.resume_of_answer? hanswer] at hwhole ⊢
        exact hwhole
      · refine .inl ⟨rfl, hafter, ?_⟩
        have hrevised := Stage.revised id owner form now d
        rw [StoreCall.program, Call.run_map] at hafter
        rw [hrun, hafter]
        exact hrevised
      · exact .inr ⟨rfl, .counting query after⟩
  | revised id owner form now before =>
      obtain ⟨rfl, answer, hanswer⟩ := Call.step?_query hstep
      have hrun := Call.run_of_step? hstep
      rw [Call.resume_of_answer? hanswer] at hrun
      have hreread := Answered.reread id owner form now before after
      rw [hrun] at hreread
      exact .inr ⟨rfl, .ended hanswer hreread⟩
  | counting query before =>
      obtain ⟨rfl, answer, hanswer⟩ := Call.step?_query hstep
      have hrun := Call.run_of_step? hstep
      rw [Call.resume_of_answer? hanswer] at hrun
      have hcounted := Answered.counted query before after
      rw [hrun] at hcounted
      exact .inl ⟨rfl, (StoreCall.run_page query after).symm, .ended hanswer hcounted⟩
  | ended hanswer _ =>
      rw [Call.step?_of_answer? hanswer] at hstep
      cases hstep

/-- A call that has ended has an answer in the order. -/
theorem Stage.answered {call : StoreCall} {found : List Database}
    {serial? : Option (Except DatabaseFailure Outcome)} {state : Call.State Outcome}
    {answer : Except DatabaseFailure Outcome} (hstage : Stage call found serial? state)
    (hanswer : Call.answer? state = some answer) :
    ∃ serial, serial? = some serial ∧ Answered call found serial answer := by
  cases hstage with
  | waiting call => cases call <;> cases hanswer
  | revised => cases hanswer
  | counting => cases hanswer
  | @ended _ _ serial other _ hother hanswered =>
      rw [hanswer] at hother
      obtain rfl := Option.some.inj hother
      exact ⟨serial, rfl, hanswered⟩

/-! ## The order of a run -/

section Order

variable {calls : List StoreCall} {database : Database} {order turns : List Nat} {pool : Pool}
  {k : Nat} {call : StoreCall} {state : Call.State Outcome}

/-- Every call is as far as its answer in an order tells, which it may not have got yet. -/
def Pool.AtStages (calls : List StoreCall)
    (serial? : Nat → Option (Except DatabaseFailure Outcome)) (pool : Pool) : Prop :=
  ∀ k call state, calls[k]? = some call → pool.calls[k]? = some state →
    Stage call (pool.foundBy k) (serial? k) state

/-- A statement of one call brings this call to another stage, and no other. -/
theorem Pool.AtStages.executed {serial? next? : Nat → Option (Except DatabaseFailure Outcome)}
    {after : Database} (h : pool.AtStages calls serial?) (hcall : calls[k]? = some call)
    (hstage : Stage call (pool.foundBy k ++ [pool.database]) (next? k) state)
    (hother : ∀ j, j ≠ k → next? j = serial? j) :
    (pool.executed k state after).AtStages calls next? := by
  intro j other otherState hj hstate
  by_cases hjk : j = k
  · subst hjk
    rw [hcall] at hj
    rw [Pool.executed, List.getElem?_set_self'] at hstate
    obtain rfl := Option.some.inj hj
    obtain ⟨_, _, rfl⟩ := Option.map_eq_some_iff.mp hstate
    rw [pool.foundBy_executed]
    exact hstage
  · rw [Pool.executed, List.getElem?_set_ne (Ne.symm hjk)] at hstate
    rw [pool.foundBy_executed_of_ne hjk, hother j hjk]
    exact h j other otherState hj hstate

/--
Calls in turns are explained by an order: one after another in it they leave the same
database, and every call is as far as its place in the order tells.
-/
structure Explained (calls : List StoreCall) (database : Database) (order : List Nat)
    (pool : Pool) : Prop where
  database_eq : (serially calls order database).2 = pool.database
  nodup : order.Nodup
  lt_length : ∀ k ∈ order, k < calls.length
  length_eq : pool.calls.length = calls.length
  stages : pool.AtStages calls (serialAnswer? calls order database)

namespace Explained

/-- Before the first statement no call has a place. -/
theorem start (calls : List StoreCall) (database : Database) :
    Explained calls database [] (Pool.start calls database) where
  database_eq := rfl
  nodup := List.nodup_nil
  lt_length := by simp
  length_eq := List.length_map _
  stages := by
    intro k call state hcall hstate
    rw [Pool.start, List.getElem?_map, hcall] at hstate
    cases hstate
    exact .waiting call

/-- What is being executed is one of the calls. -/
theorem exists_call (h : Explained calls database order pool)
    (hstate : pool.calls[k]? = some state) : ∃ call, calls[k]? = some call := by
  have hk : k < calls.length := by
    rw [← h.length_eq]
    exact (List.getElem?_eq_some_iff.mp hstate).1
  exact ⟨calls[k], List.getElem?_eq_getElem hk⟩

/-- A statement extends the order by its call, or keeps it. -/
theorem executed {rest : Call Outcome} {after : Database}
    (h : Explained calls database order pool) (hrest : pool.calls[k]? = some (.ok rest))
    (hstep : rest.step? pool.database = some (state, after)) :
    ∃ order, Explained calls database order (pool.executed k state after) := by
  obtain ⟨call, hcall⟩ := h.exists_call hrest
  have hk : k < calls.length := (List.getElem?_eq_some_iff.mp hcall).1
  have hlength : (pool.executed k state after).calls.length = calls.length :=
    (List.length_set ..).trans h.length_eq
  obtain ⟨hnone, hafter, hstage⟩ | ⟨rfl, hstage⟩ :=
    (h.stages _ _ _ hcall hrest).step hstep
  · have hnew : k ∉ order := by
      rw [← isSome_serialAnswer? hk, hnone]
      exact Bool.false_ne_true
    rw [← h.database_eq] at hafter hstage
    refine ⟨order ++ [k], ?_, ?_, ?_, hlength, h.stages.executed hcall ?_ ?_⟩
    · rw [serially_append hcall, hafter]
      rfl
    · exact List.nodup_append'.mpr ⟨h.nodup, List.nodup_singleton k, by simpa using hnew⟩
    · intro j hj
      obtain hold | hnew := List.mem_append.mp hj
      · exact h.lt_length j hold
      · rw [List.mem_singleton.mp hnew]
        exact hk
    · rw [serialAnswer?_append hcall, hnone, if_pos rfl, ← h.database_eq]
      exact hstage
    · intro j hjk
      rw [serialAnswer?_append hcall, if_neg hjk, Option.or_none]
  · exact ⟨order, h.database_eq, h.nodup, h.lt_length, hlength,
      h.stages.executed hcall hstage fun _ _ => rfl⟩

/-- A turn extends the order or keeps it. -/
theorem turn (h : Explained calls database order pool) (k : Nat) :
    ∃ order, Explained calls database order (pool.turn k) := by
  obtain hsame | ⟨rest, state, after, hrest, hstep, hturn⟩ := pool.turn_cases k
  · rw [hsame]
    exact ⟨order, h⟩
  · rw [hturn]
    exact h.executed hrest hstep

/-- Any turns extend the order or keep it. -/
theorem foldl_turn (h : Explained calls database order pool) (turns : List Nat) :
    ∃ order, Explained calls database order (turns.foldl Pool.turn pool) := by
  induction turns generalizing order pool with
  | nil => exact ⟨order, h⟩
  | cons k turns ih =>
      obtain ⟨next, hnext⟩ := h.turn k
      exact ih hnext

/-- A call that has ended has its answer in the order. -/
theorem exists_answered (h : Explained calls database order pool) (hended : pool.HasEnded)
    (hcall : calls[k]? = some call) :
    ∃ serial answer, serialAnswer? calls order database k = some serial ∧
      pool.answer? k = some answer ∧ Answered call (pool.foundBy k) serial answer := by
  have hk : k < pool.calls.length := by
    rw [h.length_eq]
    exact (List.getElem?_eq_some_iff.mp hcall).1
  have hstate : pool.calls[k]? = some pool.calls[k] := List.getElem?_eq_getElem hk
  obtain ⟨answer, hanswer⟩ := Option.isSome_iff_exists.mp
    (hended pool.calls[k] (List.getElem_mem hk))
  obtain ⟨serial, hserial, hanswered⟩ := (h.stages _ _ _ hcall hstate).answered hanswer
  refine ⟨serial, answer, hserial, ?_, hanswered⟩
  rw [Pool.answer?, hstate]
  exact hanswer

/-- The order of calls that have ended has a place for each of them. -/
theorem perm (h : Explained calls database order pool) (hended : pool.HasEnded) :
    order.Perm (List.range calls.length) := by
  refine (List.perm_ext_iff_of_nodup h.nodup List.nodup_range).mpr fun k => ?_
  rw [List.mem_range]
  refine ⟨h.lt_length k, fun hk => ?_⟩
  obtain ⟨serial, _, hserial, _⟩ := h.exists_answered hended (List.getElem?_eq_getElem hk)
  rw [← isSome_serialAnswer? hk, hserial]
  rfl

end Explained

/-- A call of two statements has ended. -/
theorem Stage.isSome_answer? {found : List Database}
    {serial? : Option (Except DatabaseFailure Outcome)} (hstage : Stage call found serial? state)
    (hlength : 2 ≤ found.length) : (Call.answer? state).isSome := by
  cases hstage with
  | waiting call => exact absurd hlength (by simp)
  | revised => exact absurd hlength (by simp)
  | counting => exact absurd hlength (by simp)
  | ended hanswer _ =>
      rw [hanswer]
      rfl

/-- Two turns of each call end it, wherever among the turns they are. -/
theorem Pool.hasEnded_of_two_le_count (h : ∀ k < calls.length, 2 ≤ turns.count k) :
    (Pool.interleave calls database turns).HasEnded := by
  have hstart := Explained.start calls database
  obtain ⟨order, hexplained⟩ := hstart.foldl_turn turns
  intro state hmem
  obtain ⟨k, hstate⟩ := List.mem_iff_getElem?.mp hmem
  obtain ⟨call, hcall⟩ := hexplained.exists_call hstate
  have hk : k < calls.length := (List.getElem?_eq_some_iff.mp hcall).1
  have hcount := Pool.ended_or_count_le (hstart.length_eq.symm ▸ hk)
    (.inr (Nat.zero_le _)) turns
  obtain hended | hle := hcount
  · rw [Pool.answer?, ← Pool.interleave, hstate] at hended
    exact hended
  · refine (hexplained.stages k call state hcall hstate).isSome_answer? ?_
    exact (h k hk).trans ((Nat.zero_add _).symm.le.trans hle)

/-- After any turns that end the calls there is an order with a place for each of them. -/
theorem Pool.exists_explained (hended : (Pool.interleave calls database turns).HasEnded) :
    ∃ order, order.Perm (List.range calls.length) ∧
      Explained calls database order (Pool.interleave calls database turns) := by
  obtain ⟨order, h⟩ := (Explained.start calls database).foldl_turn turns
  exact ⟨order, h.perm hended, h⟩

end Order

/-! ## Answers of the order -/

/--
Nothing has come in between that shows: a revision finds its row as it has left it, and
a page finds as many rows as it has counted.
-/
def StoreCall.Undisturbed : StoreCall → (found : List Database) → Prop
  | .revise id owner form now, [d, e] =>
    (Store.database e).find id owner = ((Store.database d).revise id owner form now).2.find id owner
  | .page query, [d, e] =>
    ∀ page, (Store.database e).page query = .ok page → page.total = d.rows.length
  | _, _ => True

/-- An answer in another form is the same exactly if it was the same before. -/
theorem Except.map_inj {ε α β : Type} {f : α → β} (hf : Function.Injective f) {x y : Except ε α} :
    x.map f = y.map f ↔ x = y := by
  cases x <;> cases y <;> simp [Except.map, hf.eq_iff]

/-- Calls answer the same exactly if they do so as operations of the store. -/
theorem Store.answerOf_inj {α : Type} {one other : Call α} {d e : Database} :
    answerOf one d = answerOf other e ↔ (one.run d).1 = (other.run e).1 := by
  rw [answerOf, answerOf]
  cases (one.run d).1 <;> cases (other.run e).1 <;> simp [Except.mapError]

theorem Store.answerOf_eq_ok_iff {α : Type} {call : Call α} {d : Database} {result : α} :
    answerOf call d = .ok result ↔ (call.run d).1 = .ok result := by
  rw [answerOf]
  cases (call.run d).1 <;> simp [Except.mapError]

/-- Rows that have been counted before make the page with another total. -/
theorem Call.run_pageItems (query : PageQuery) (total : Nat) (e : Database) :
    ((Call.pageItems query total).run e).1 =
      ((Call.page query).run e).1.map fun page => { page with total } := by
  rw [pageItems, page, run, run]
  cases hready : e.isReady with
  | false =>
      have hrefused : ∀ query : Query, query.answer? e = none := fun _ => if_neg (by simp [hready])
      rw [hrefused, hrefused]
      rfl
  | true =>
      have hcount : Query.count.answer? e = some e.rows.length := if_pos hready
      rw [hcount]
      dsimp only
      rw [run]
      cases (Query.page query).answer? e <;> rfl

/-- A page has its total exactly if it has as many rows as have been counted. -/
theorem Call.run_pageItems_eq_iff (query : PageQuery) (total : Nat) (e : Database) :
    ((Call.pageItems query total).run e).1 = ((Call.page query).run e).1 ↔
      ∀ page, (Store.database e).page query = .ok page → page.total = total := by
  simp only [run_pageItems, Store.page, Store.answerOf_eq_ok_iff]
  cases ((Call.page query).run e).1 with
  | error failure => simp [Except.map]
  | ok page =>
      obtain ⟨items, count⟩ := page
      simp [Except.map, eq_comm]

/-- A call answers as in the order exactly if nothing has come in between that shows. -/
theorem Answered.eq_iff {call : StoreCall} {found : List Database}
    {serial answer : Except DatabaseFailure Outcome} (h : Answered call found serial answer) :
    answer = serial ↔ call.Undisturbed found := by
  cases h with
  | whole call d =>
      cases call <;> simp [StoreCall.Undisturbed]
  | reread id owner form now d e =>
      rw [Call.run_map, Call.run_map, Except.map_inj fun _ _ heq => Outcome.rowOrNone.inj heq]
      exact Store.answerOf_inj.symm
  | counted query d e =>
      rw [StoreCall.program, Call.run_map, Call.run_map,
        Except.map_inj fun _ _ heq => Outcome.page.inj heq]
      exact Call.run_pageItems_eq_iff query d.rows.length e

/-! ## Main results -/

section Runs

variable {calls : List StoreCall} {database : Database} {turns : List Nat}

/-- If nothing has come in between that shows, the calls answer as one after another. -/
theorem Pool.appears_serial (hended : (Pool.interleave calls database turns).HasEnded)
    (hundisturbed : ∀ (k : Nat) (call : StoreCall), calls[k]? = some call →
      call.Undisturbed ((Pool.interleave calls database turns).foundBy k)) :
    ∃ order, order.Perm (List.range calls.length) ∧
      (serially calls order database).2 = (Pool.interleave calls database turns).database ∧
      ∀ k < calls.length, (Pool.interleave calls database turns).answer? k =
        serialAnswer? calls order database k := by
  obtain ⟨order, hperm, h⟩ := Pool.exists_explained hended
  refine ⟨order, hperm, h.database_eq, fun k hk => ?_⟩
  have hcall : calls[k]? = some calls[k] := List.getElem?_eq_getElem hk
  obtain ⟨serial, answer, hserial, hanswer, hanswered⟩ := h.exists_answered hended hcall
  rw [hserial, hanswer, hanswered.eq_iff.mpr (hundisturbed k calls[k] hcall)]

/--
Calls in turns leave the database as one after another in some order, in which every
call does what it promises.  A call answers as in this order exactly if nothing has come
in between that shows.
-/
theorem Pool.exists_order (hended : (Pool.interleave calls database turns).HasEnded) :
    ∃ order, order.Perm (List.range calls.length) ∧
      (serially calls order database).2 = (Pool.interleave calls database turns).database ∧
      ∀ k call, calls[k]? = some call → ∃ serial answer,
        serialAnswer? calls order database k = some serial ∧ call.Fulfils serial ∧
        (Pool.interleave calls database turns).answer? k = some answer ∧
        Answered call ((Pool.interleave calls database turns).foundBy k) serial answer ∧
        (answer = serial ↔
          call.Undisturbed ((Pool.interleave calls database turns).foundBy k)) := by
  obtain ⟨order, hperm, h⟩ := Pool.exists_explained hended
  refine ⟨order, hperm, h.database_eq, fun k call hcall => ?_⟩
  obtain ⟨serial, answer, hserial, hanswer, hanswered⟩ := h.exists_answered hended hcall
  exact ⟨serial, answer, hserial, StoreCall.fulfils_of_serialAnswer? hcall hserial, hanswer,
    hanswered, hanswered.eq_iff⟩

end Runs

/-- Two revisions of one row, a page, and a fresh row. -/
def crossingCalls : List StoreCall :=
  let form (kind : String) : Feedback.Form := ⟨kind, none, none, none⟩
  [.revise "a" none (form "first") 1, .revise "a" none (form "second") 2,
    .page ⟨.createdAt, .descending, 0, 10⟩, .insert (Feedback.ofForm "b" "ann" (form "rating") 0)]

/-- A database with one row. -/
def oneRowDatabase : Database :=
  { (Database.empty.migrate 0).2 with
    rows := [StoredRow.ofFeedback (Feedback.ofForm "a" "ann" ⟨"rating", none, none, none⟩ 0)] }

/--
The first revision answers the row of the second, and the page has two rows but a total
of one.  No order gives these answers, although there is one that leaves the same rows.
-/
theorem Pool.exists_order_crossing :
    let pool := Pool.interleave crossingCalls oneRowDatabase [0, 1, 0, 1, 2, 3, 2]
    pool.HasEnded ∧
      (∃ order, order.Perm (List.range 4) ∧
        (serially crossingCalls order oneRowDatabase).2 = pool.database ∧
        ∀ k call, crossingCalls[k]? = some call →
          (pool.answer? k = serialAnswer? crossingCalls order oneRowDatabase k ↔
            call.Undisturbed (pool.foundBy k))) ∧
      (∃ row, pool.answer? 0 = some (.ok (.rowOrNone (some row))) ∧ row.kind = "second") ∧
      (∃ page, pool.answer? 2 = some (.ok (.page page)) ∧ page.total = 1 ∧
        page.items.length = 2) ∧
      ∀ order, pool.answer? 0 ≠ serialAnswer? crossingCalls order oneRowDatabase 0 ∧
        pool.answer? 2 ≠ serialAnswer? crossingCalls order oneRowDatabase 2 := by
  intro pool
  have hended : pool.HasEnded := by
    rw [HasEnded]
    decide
  have hrow : ∃ row, pool.answer? 0 = some (.ok (.rowOrNone (some row))) ∧ row.kind = "second" :=
    ⟨_, rfl, rfl⟩
  have hpage : ∃ page, pool.answer? 2 = some (.ok (.page page)) ∧ page.total = 1 ∧
      page.items.length = 2 := ⟨_, rfl, rfl, by simp [pageSlice]⟩
  obtain ⟨order, hperm, hdatabase, hcalls⟩ := Pool.exists_order hended
  refine ⟨hended, ⟨order, hperm, hdatabase, fun k call hcall => ?_⟩, hrow, hpage,
    fun order => ⟨fun hserial => ?_, fun hserial => ?_⟩⟩
  · obtain ⟨serial, answer, hserial, _, hanswer, _, hiff⟩ := hcalls k call hcall
    rw [hserial, hanswer, Option.some.injEq]
    exact hiff
  · -- In an order the first revision would answer its own form.
    obtain ⟨row, hanswer, hkind⟩ := hrow
    rw [hanswer] at hserial
    have hform := StoreCall.fulfils_of_serialAnswer? rfl hserial.symm row rfl
    rw [hform.1] at hkind
    exact absurd hkind (by decide)
  · -- In an order the page would have counted its rows.
    obtain ⟨page, hanswer, htotal, hlength⟩ := hpage
    rw [hanswer] at hserial
    have hcounted := StoreCall.fulfils_of_serialAnswer? rfl hserial.symm page rfl
    rw [htotal, hlength] at hcounted
    exact absurd hcounted (by decide)

end FeedbackBoard
