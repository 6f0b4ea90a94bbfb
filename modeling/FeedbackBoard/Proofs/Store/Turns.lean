import FeedbackBoard.Proofs.Store.Pages
import FeedbackBoard.Store.Operation
import Mathlib.Data.List.Induction

/-!
# Calls in turns and one after another

Calls of the store that run at the same time execute their statements on one database in
turns.  This module has both ways to execute several calls, and what a call promises when
nothing interrupts it.

Main definitions:

- `StoreCall`, `StoreCall.program`: the calls and their statements.
- `Pool`, `Pool.interleave`: calls whose statements are executed in turns.
- `serially`, `serialAnswer?`: calls one after another.
- `StoreCall.Fulfils`: a revision answers its form, and a page has no more rows than its total.

Main results:

- `Call.run_of_step?`: a call is its first statement and the statements that are left.
- `Pool.ended_or_count_le`: at its turns a call executes statements until it has ended.
- `serialAnswer?_append`, `isSome_serialAnswer?`: the answers of an order.
- `StoreCall.fulfils_run`, `StoreCall.fulfils_of_serialAnswer?`: without interruption every call
  does what it promises.
-/

namespace FeedbackBoard

/-! ## Calls and their statements -/

namespace Call

variable {α β : Type}

/-- The call with its result in another form. -/
def map (f : α → β) : Call α → Call β
  | done result => done (f result)
  | query q next => query q fun reply => (next reply).map f
  | change c next => change c fun touched => (next touched).map f

theorem run_map (f : α → β) (call : Call α) (db : Database) :
    (call.map f).run db = ((call.run db).1.map f, (call.run db).2) := by
  induction call generalizing db with
  | done result => rfl
  | query q next ih =>
      rw [map, run, run]
      cases q.answer? db with
      | none => rfl
      | some reply => exact ih reply db
  | change c next ih =>
      rw [map, run, run]
      cases c.apply? db with
      | none => rfl
      | some result => exact ih result.1 result.2

/-- What a call answers that has ended. -/
def answer? : State α → Option (Except DatabaseFailure α)
  | .error failure => some (.error failure)
  | .ok (done result) => some (.ok result)
  | .ok (query _ _) | .ok (change _ _) => none

/-- Executes the statements that are left. -/
def resume : State α → Database → Except DatabaseFailure α × Database
  | .ok rest, db => rest.run db
  | .error failure, db => (.error failure, db)

/-- A call is its first statement and the statements that are left. -/
theorem run_of_step? {call : Call α} {db after : Database} {state : State α}
    (h : call.step? db = some (state, after)) : call.run db = resume state after := by
  cases call with
  | done result => cases h
  | query q next =>
      rw [step?] at h
      rw [run]
      cases hreply : q.answer? db <;> rw [hreply] at h <;> cases h <;> rfl
  | change c next =>
      rw [step?] at h
      rw [run]
      cases hresult : c.apply? db <;> rw [hresult] at h <;> cases h <;> rfl

theorem resume_of_answer? {state : State α} {answer : Except DatabaseFailure α}
    (h : answer? state = some answer) (db : Database) : resume state db = (answer, db) := by
  cases state with
  | error failure =>
      cases h
      rfl
  | ok rest =>
      cases rest with
      | done result =>
          cases h
          rfl
      | query q next => cases h
      | change c next => cases h

/-- A call that has ended has no statement. -/
theorem step?_of_answer? {rest : Call α} {answer : Except DatabaseFailure α}
    (h : answer? (.ok rest) = some answer) (db : Database) : rest.step? db = none := by
  cases rest with
  | done result => rfl
  | query q next => cases h
  | change c next => cases h

/-- A call that has not ended has a statement. -/
theorem exists_step?_of_answer? {rest : Call α} (h : answer? (.ok rest) = none) (db : Database) :
    ∃ state after, rest.step? db = some (state, after) := by
  cases rest with
  | done result => cases h
  | query q next =>
      rw [step?]
      cases q.answer? db <;> exact ⟨_, _, rfl⟩
  | change c next =>
      rw [step?]
      cases c.apply? db <;> exact ⟨_, _, rfl⟩

/-- A call of one change has ended after it. -/
theorem step?_change {c : Change} {f : Nat → α} {db after : Database} {state : State α}
    (h : (change c fun touched => done (f touched)).step? db = some (state, after)) :
    ∃ answer, answer? state = some answer := by
  rw [step?] at h
  cases hresult : c.apply? db <;> rw [hresult] at h <;> cases h
  · exact ⟨_, rfl⟩
  · exact ⟨_, rfl⟩

/-- A call of one query has ended after it, and leaves the database as it was. -/
theorem step?_query {q : Query} {f : q.Reply → α} {db after : Database} {state : State α}
    (h : (query q fun reply => done (f reply)).step? db = some (state, after)) :
    after = db ∧ ∃ answer, answer? state = some answer := by
  rw [step?] at h
  cases hreply : q.answer? db <;> rw [hreply] at h <;> cases h
  · exact ⟨rfl, _, rfl⟩
  · exact ⟨rfl, _, rfl⟩

/-- The rows of a page, which have been counted before. -/
def pageItems (pageQuery : PageQuery) (total : Nat) : Call Page :=
  query (.page pageQuery) fun rows => done { items := rows.map StoredRow.toFeedback, total }

end Call

/-- A call that changes rows or shows a page. -/
inductive StoreCall
  | insert (row : Feedback)
  | restoreAll (batch : List Feedback)
  | revise (id : String) (owner : Option String) (form : Feedback.Form) (now : Int64)
  | remove (filter : RowFilter)
  | page (query : PageQuery)

/-- The statements of a call. -/
def StoreCall.program : StoreCall → Call Outcome
  | insert row => (Call.insert row).map .row
  | restoreAll batch => (Call.restoreAll batch).map .count
  | revise id owner form now => (Call.revise id owner form now).map .rowOrNone
  | remove filter => (Call.remove filter).map .flag
  | page query => (Call.page query).map .page

/-! ## Turns -/

/-- Calls that are being executed on one database, and whose statement found which database. -/
structure Pool where
  calls : List (Call.State Outcome)
  database : Database
  log : List (Nat × Database)

namespace Pool

/-- Calls of which no statement has been executed yet. -/
def start (calls : List StoreCall) (database : Database) : Pool where
  calls := calls.map fun call => .ok call.program
  database := database
  log := []

/-- One statement of a call has been executed. -/
def executed (pool : Pool) (k : Nat) (state : Call.State Outcome) (after : Database) : Pool where
  calls := pool.calls.set k state
  database := after
  log := pool.log ++ [(k, pool.database)]

/-- The next statement of a call, if it has one. -/
def turn (pool : Pool) (k : Nat) : Pool :=
  match pool.calls[k]? with
  | none | some (.error _) => pool
  | some (.ok call) =>
    match call.step? pool.database with
    | none => pool
    | some (state, after) => pool.executed k state after

/-- A turn executes a statement, unless the call has ended or there is none. -/
theorem turn_cases (pool : Pool) (k : Nat) :
    pool.turn k = pool ∨
      ∃ rest state after, pool.calls[k]? = some (.ok rest) ∧
        rest.step? pool.database = some (state, after) ∧
        pool.turn k = pool.executed k state after := by
  unfold turn
  split
  · exact .inl rfl
  · exact .inl rfl
  · next rest hrest =>
      split
      · exact .inl rfl
      · next state after hstep => exact .inr ⟨rest, state, after, hrest, hstep, rfl⟩

/-- Executes calls in turns. -/
def interleave (calls : List StoreCall) (database : Database) (turns : List Nat) : Pool :=
  turns.foldl turn (start calls database)

/-- What a call answers that has ended. -/
def answer? (pool : Pool) (k : Nat) : Option (Except DatabaseFailure Outcome) :=
  pool.calls[k]?.bind Call.answer?

/-- Every call has ended. -/
def HasEnded (pool : Pool) : Prop :=
  ∀ state ∈ pool.calls, (Call.answer? state).isSome

/-- The databases that the statements of a call have found. -/
def foundBy (pool : Pool) (k : Nat) : List Database :=
  (pool.log.filter fun entry => entry.1 == k).map Prod.snd

theorem foundBy_executed (pool : Pool) (k : Nat) (state : Call.State Outcome)
    (after : Database) :
    (pool.executed k state after).foundBy k = pool.foundBy k ++ [pool.database] := by
  rw [foundBy, executed, List.filter_append, List.map_append, foundBy]
  simp

theorem foundBy_executed_of_ne (pool : Pool) {j k : Nat} (hjk : j ≠ k)
    (state : Call.State Outcome) (after : Database) :
    (pool.executed k state after).foundBy j = pool.foundBy j := by
  rw [foundBy, executed, List.filter_append, List.map_append, foundBy]
  simp [hjk.symm]

/-- A call that has ended keeps its answer. -/
theorem answer?_turn {pool : Pool} {j : Nat} {answer : Except DatabaseFailure Outcome}
    (h : pool.answer? j = some answer) (k : Nat) : (pool.turn k).answer? j = some answer := by
  obtain hsame | ⟨rest, state, after, hrest, hstep, hturn⟩ := pool.turn_cases k
  · rw [hsame]
    exact h
  · by_cases hjk : j = k
    · subst hjk
      rw [answer?, hrest] at h
      rw [Call.step?_of_answer? h] at hstep
      cases hstep
    · rw [hturn, answer?, executed, List.getElem?_set_ne (Ne.symm hjk)]
      exact h

/-- A turn of a call that has not ended finds the database as it is. -/
theorem foundBy_turn {pool : Pool} {k : Nat} (hk : k < pool.calls.length)
    (h : pool.answer? k = none) :
    (pool.turn k).foundBy k = pool.foundBy k ++ [pool.database] := by
  have hstate : pool.calls[k]? = some pool.calls[k] := List.getElem?_eq_getElem hk
  rw [answer?, hstate] at h
  cases hrest : pool.calls[k] with
  | error failure =>
      rw [hrest] at h
      cases h
  | ok rest =>
      rw [hrest] at h hstate
      obtain ⟨state, after, hstep⟩ := Call.exists_step?_of_answer? h pool.database
      rw [turn, hstate]
      simp only [hstep]
      exact pool.foundBy_executed k state after

theorem foundBy_turn_of_ne (pool : Pool) {j k : Nat} (hjk : j ≠ k) :
    (pool.turn k).foundBy j = pool.foundBy j := by
  obtain hsame | ⟨rest, state, after, -, -, hturn⟩ := pool.turn_cases k
  · rw [hsame]
  · rw [hturn, pool.foundBy_executed_of_ne hjk]

theorem length_calls_turn (pool : Pool) (k : Nat) :
    (pool.turn k).calls.length = pool.calls.length := by
  obtain hsame | ⟨rest, state, after, -, -, hturn⟩ := pool.turn_cases k
  · rw [hsame]
  · rw [hturn, executed, List.length_set]

/-- At its turn a call executes a statement, unless it has ended. -/
theorem ended_or_le_turn {pool : Pool} {k n : Nat} (hk : k < pool.calls.length)
    (h : (pool.answer? k).isSome ∨ n ≤ (pool.foundBy k).length) (j : Nat) :
    ((pool.turn j).answer? k).isSome ∨
      n + (if j == k then 1 else 0) ≤ ((pool.turn j).foundBy k).length := by
  cases hanswer : pool.answer? k with
  | some answer =>
      rw [answer?_turn hanswer j]
      exact .inl rfl
  | none =>
      have hle : n ≤ (pool.foundBy k).length := by
        rw [hanswer] at h
        exact h.resolve_left Bool.false_ne_true
      right
      by_cases hjk : j = k
      · rw [hjk, foundBy_turn hk hanswer, List.length_append, beq_self_eq_true, if_pos rfl]
        exact Nat.add_le_add_right hle 1
      · rw [pool.foundBy_turn_of_ne (Ne.symm hjk), if_neg (by simpa using hjk)]
        exact hle

/-- At its turns a call executes as many statements, unless it has ended. -/
theorem ended_or_count_le {pool : Pool} {k n : Nat} (hk : k < pool.calls.length)
    (h : (pool.answer? k).isSome ∨ n ≤ (pool.foundBy k).length) (turns : List Nat) :
    ((turns.foldl turn pool).answer? k).isSome ∨
      n + turns.count k ≤ ((turns.foldl turn pool).foundBy k).length := by
  induction turns generalizing pool n with
  | nil => exact h
  | cons j turns ih =>
      rw [List.foldl_cons, List.count_cons, Nat.add_comm (turns.count k), ← Nat.add_assoc]
      exact ih ((pool.length_calls_turn j).symm ▸ hk) (ended_or_le_turn hk h j)

end Pool

/-! ## One after another -/

/-- Executes a whole call after others, and notes its answer. -/
def executeNext (calls : List StoreCall)
    (before : List (Nat × Except DatabaseFailure Outcome) × Database) (k : Nat) :
    List (Nat × Except DatabaseFailure Outcome) × Database :=
  match calls[k]? with
  | none => before
  | some call =>
    let (answer, after) := call.program.run before.2
    (before.1 ++ [(k, answer)], after)

/-- Executes whole calls one after another: their answers, and the database after them. -/
def serially (calls : List StoreCall) (order : List Nat) (database : Database) :
    List (Nat × Except DatabaseFailure Outcome) × Database :=
  order.foldl (executeNext calls) ([], database)

/-- What a call answers in an order, if it has a place there. -/
def serialAnswer? (calls : List StoreCall) (order : List Nat) (database : Database) (k : Nat) :
    Option (Except DatabaseFailure Outcome) :=
  (serially calls order database).1.lookup k

section Serially

variable {calls : List StoreCall} {order : List Nat} {start : Database} {k : Nat}
  {call : StoreCall}

theorem serially_append (hcall : calls[k]? = some call) :
    serially calls (order ++ [k]) start =
      ((serially calls order start).1 ++
          [(k, (call.program.run (serially calls order start).2).1)],
        (call.program.run (serially calls order start).2).2) := by
  rw [serially, List.foldl_append, List.foldl_cons, List.foldl_nil]
  simp only [executeNext, hcall, serially]

/-- A further call gets its place, and every other call keeps it. -/
theorem serialAnswer?_append (hcall : calls[k]? = some call) (j : Nat) :
    serialAnswer? calls (order ++ [k]) start j =
      (serialAnswer? calls order start j).or
        (if j = k then some (call.program.run (serially calls order start).2).1 else none) := by
  rw [serialAnswer?, serially_append hcall, List.lookup_append]
  by_cases hjk : j = k
  · rw [if_pos hjk, hjk, List.lookup_cons_self]
    rfl
  · rw [if_neg hjk, List.lookup_cons, beq_eq_false_iff_ne.mpr hjk]
    rfl

/-- Where there is no call there is nothing to execute. -/
theorem serially_append_of_none (hnone : calls[k]? = none) :
    serially calls (order ++ [k]) start = serially calls order start := by
  rw [serially, List.foldl_append, List.foldl_cons, List.foldl_nil, executeNext, hnone]
  rfl

/-- The calls of an order are those that have an answer in it. -/
theorem isSome_serialAnswer? (hk : k < calls.length) :
    (serialAnswer? calls order start k).isSome ↔ k ∈ order := by
  induction order using List.reverseRecOn with
  | nil => simp [serialAnswer?, serially]
  | append_singleton order j ih =>
      cases hj : calls[j]? with
      | none =>
          have hkj : k ≠ j := fun heq => by simp [← heq, hk] at hj
          rw [serialAnswer?, serially_append_of_none hj, ← serialAnswer?, ih]
          simp [hkj]
      | some call =>
          rw [serialAnswer?_append hj, Option.isSome_or, Bool.or_eq_true, ih, List.mem_append,
            List.mem_singleton]
          by_cases hkj : k = j <;> simp [hkj]

end Serially

/-! ## What a call promises -/

/-- The row has the contents of the form, as they are read back from their texts. -/
def Feedback.Form.IsReadIn (form : Form) (row : Feedback) : Prop :=
  row.kind = form.kind ∧ row.data = storedContent (storedText form.data) ∧
    row.info = storedContent (storedText form.info) ∧
    row.snapshot = storedContent (storedText form.snapshot)

/-- A revision answers a row with its form, and a page has at most as many rows as its total. -/
def StoreCall.Fulfils : StoreCall → Except DatabaseFailure Outcome → Prop
  | .revise _ _ form _, answer =>
    ∀ row, answer = .ok (.rowOrNone (some row)) → form.IsReadIn row
  | .page _, answer => ∀ page, answer = .ok (.page page) → page.items.length ≤ page.total
  | .insert _, _ | .restoreAll _, _ | .remove _, _ => True

/-- A result in another form is that of a result. -/
theorem Except.exists_of_map_eq_ok {ε α β : Type} {f : α → β} {x : Except ε α} {result : β}
    (h : x.map f = .ok result) : ∃ a, x = .ok a ∧ f a = result := by
  cases x with
  | error failure => cases h
  | ok a => exact ⟨a, rfl, Except.ok.inj h⟩

/-- Putting rows in the order of a page loses none and adds none. -/
theorem StoredRow.length_pageRows? {field : SortField} {direction : Direction}
    {rows sorted : List StoredRow} (h : pageRows? field direction rows = some sorted) :
    sorted.length = rows.length := by
  by_cases hcells : ∀ row ∈ rows, (row.pageCell? field).isSome
  · rw [pageRows?_of_isSome hcells] at h
    obtain rfl := Option.some.inj h
    exact List.length_mergeSort _
  · simp only [not_forall, Bool.not_eq_true, Option.isSome_eq_false_iff,
      Option.isNone_iff_eq_none] at hcells
    obtain ⟨row, hrow, hnone⟩ := hcells
    rw [pageRows?_of_none hrow hnone] at h
    cases h

/-- A page has at most as many rows as there are. -/
theorem Query.length_page_le {query : PageQuery} {rows shown : List StoredRow}
    (h : (Query.page query).onRows? rows = some shown) : shown.length ≤ rows.length := by
  rw [Query.onRows?] at h
  split at h
  · cases h
    exact Nat.zero_le _
  · split at h
    · next sorted hsorted =>
        cases h
        rw [← StoredRow.length_pageRows? hsorted, pageSlice, List.length_take, List.length_drop]
        omega
    · cases h

/-- Without interruption a revision answers the row with its form. -/
theorem Call.isReadIn_of_revise {id : String} {owner : Option String} {form : Feedback.Form}
    {now : Int64} {d : Database} {row : Feedback}
    (h : ((Call.revise id owner form now).run d).1 = .ok (some row)) : form.IsReadIn row := by
  have hrevise := congrArg Prod.fst (Store.revise_database d id owner form now)
  rw [Store.revise, Store.execute, Store.answerOf, h] at hrevise
  split at hrevise
  · have hrow := Option.map_eq_some_iff.mp (Except.ok.inj hrevise).symm
    obtain ⟨revised, hrevised, rfl⟩ := hrow
    obtain ⟨stored, _, rfl⟩ := Option.map_eq_some_iff.mp hrevised
    exact ⟨rfl, rfl, rfl, rfl⟩
  · cases hrevise

/-- Without interruption a page tells how many rows there are. -/
theorem Call.exists_of_page {query : PageQuery} {d : Database} {page : Page}
    (h : ((Call.page query).run d).1 = .ok page) :
    ∃ shown : List StoredRow, (Query.page query).onRows? d.rows = some shown ∧
      page = { items := shown.map StoredRow.toFeedback, total := d.rows.length } := by
  rw [Call.page, run, Query.answer?] at h
  cases hready : d.isReady with
  | false =>
      rw [hready] at h
      cases h
  | true =>
      rw [hready, if_pos rfl] at h
      simp only [Query.onRows?] at h
      rw [run, Query.answer?, hready, if_pos rfl] at h
      cases hshown : (Query.page query).onRows? d.rows with
      | none =>
          rw [hshown] at h
          cases h
      | some shown =>
          rw [hshown] at h
          cases h
          exact ⟨shown, rfl, rfl⟩

/-- Without interruption every call does what it promises. -/
theorem StoreCall.fulfils_run (call : StoreCall) (d : Database) :
    call.Fulfils (call.program.run d).1 := by
  cases call with
  | insert row => trivial
  | restoreAll batch => trivial
  | remove filter => trivial
  | revise id owner form now =>
      intro row hrow
      rw [program, Call.run_map] at hrow
      obtain ⟨answer, hanswer, heq⟩ := Except.exists_of_map_eq_ok hrow
      cases heq
      exact Call.isReadIn_of_revise hanswer
  | page query =>
      intro page hpage
      rw [program, Call.run_map] at hpage
      obtain ⟨answer, hanswer, heq⟩ := Except.exists_of_map_eq_ok hpage
      cases heq
      obtain ⟨shown, hshown, rfl⟩ := Call.exists_of_page hanswer
      exact (List.length_map _).trans_le (Query.length_page_le hshown)

/-- In every order a call does what it promises. -/
theorem StoreCall.fulfils_of_serialAnswer? {calls : List StoreCall} {order : List Nat}
    {database : Database} {k : Nat} {call : StoreCall} {serial : Except DatabaseFailure Outcome}
    (hcall : calls[k]? = some call) (h : serialAnswer? calls order database k = some serial) :
    call.Fulfils serial := by
  induction order using List.reverseRecOn with
  | nil => cases h
  | append_singleton order j ih =>
      cases hj : calls[j]? with
      | none =>
          rw [serialAnswer?, serially_append_of_none hj] at h
          exact ih h
      | some other =>
          rw [serialAnswer?_append hj, Option.or_eq_some_iff] at h
          obtain hold | ⟨_, hnew⟩ := h
          · exact ih hold
          · obtain ⟨rfl, hserial⟩ := Option.ite_none_right_eq_some.mp hnew
            rw [hcall] at hj
            obtain rfl := Option.some.inj hj
            obtain rfl := Option.some.inj hserial
            exact call.fulfils_run _

end FeedbackBoard
