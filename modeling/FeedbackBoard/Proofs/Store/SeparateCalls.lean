import FeedbackBoard.Proofs.Store.Interleavings

/-!
# Calls that keep apart

Whether something comes in between two statements of a call depends on the turns.  This
module says which calls can never disturb each other: a revision and calls that write
other rows, a page and calls that neither add nor remove rows.  Such calls run as if one
after another, whatever the turns are.

Main definitions:

- `Change.Spares`, `Change.IsRevision`: changes that leave the rows of an id, or the number of
  rows, as they were.
- `StoreCall.IsUndisturbedBy`: calls whose changes do not show to a call.

Main results:

- `Change.Spares.find_eq`, `Change.IsRevision.length_eq`: what such changes leave.
- `Pool.IsSteady.turn`, `Pool.IsSteady.foldl_turn`: calls that keep apart stay undisturbed.
- `Pool.appears_serial_of_apart`: they run as if one after another.
-/

namespace FeedbackBoard

/-! ## Changes of other rows -/

/-- The change writes and removes no row of the id. -/
def Change.Spares (id : String) : Change → Prop
  | .store row => row.id ≠ id
  | .storeAll batch => ∀ row ∈ batch, row.id ≠ id
  | .revise other _ _ _ => other ≠ id
  | .remove (.row other _) => other ≠ id
  | .remove (.user _) | .remove .all => False

/-- The change neither adds nor removes rows. -/
def Change.IsRevision : Change → Prop
  | .revise _ _ _ _ => True
  | .store _ | .storeAll _ | .remove _ => False

/-- The rows of an id. -/
def rowsOf (id : String) (rows : List StoredRow) : List StoredRow :=
  rows.filter fun row => row.id == id

section RowsOf

variable {id : String} {row : StoredRow} {batch rows after : List StoredRow}

/-- A row is found among the rows of its id. -/
theorem find?_rowsOf (owner : Option String) (rows : List StoredRow) :
    (rowsOf id rows).find? (RowFilter.row id owner).accepts =
      rows.find? (RowFilter.row id owner).accepts := by
  rw [rowsOf, List.find?_filter]
  congr 1
  funext row
  by_cases hid : row.id = id <;> simp [RowFilter.accepts, hid]

theorem rowsOf_cons_of_ne (h : row.id ≠ id) (rows : List StoredRow) :
    rowsOf id (row :: rows) = rowsOf id rows :=
  List.filter_cons_of_neg (by simpa using h)

theorem rowsOf_cons_of_eq (h : row.id = id) (rows : List StoredRow) :
    rowsOf id (row :: rows) = row :: rowsOf id rows :=
  List.filter_cons_of_pos (by simpa using h)

theorem rowsOf_storeRow (h : row.id ≠ id) (rows : List StoredRow) :
    rowsOf id (storeRow row rows) = rowsOf id rows := by
  induction rows with
  | nil => exact rowsOf_cons_of_ne h []
  | cons other rest ih =>
      rw [storeRow]
      by_cases hsame : other.id = row.id
      · have hother : other.id ≠ id := hsame ▸ h
        rw [if_pos hsame, rowsOf_cons_of_ne h, rowsOf_cons_of_ne hother]
      · rw [if_neg hsame]
        by_cases hother : other.id = id
        · rw [rowsOf_cons_of_eq hother, rowsOf_cons_of_eq hother, ih]
        · rw [rowsOf_cons_of_ne hother, rowsOf_cons_of_ne hother, ih]

theorem rowsOf_storeRows? {rejected : List String} (h : ∀ row ∈ batch, row.id ≠ id)
    (hafter : storeRows? rejected batch rows = some after) : rowsOf id after = rowsOf id rows := by
  induction batch generalizing rows with
  | nil =>
      cases hafter
      rfl
  | cons row rest ih =>
      rw [storeRows?, List.foldlM_cons] at hafter
      split at hafter
      · cases hafter
      · rw [ih (fun other hother => h other (List.mem_cons_of_mem row hother)) hafter,
          rowsOf_storeRow (h row List.mem_cons_self)]

/-- Rows of other ids may be changed, as long as their ids stay. -/
theorem rowsOf_map_if {p : StoredRow → Bool} {f : StoredRow → StoredRow}
    (hp : ∀ row, p row → row.id ≠ id) (hf : ∀ row, (f row).id = row.id) (rows : List StoredRow) :
    rowsOf id (rows.map fun row => if p row then f row else row) = rowsOf id rows := by
  induction rows with
  | nil => rfl
  | cons row rest ih =>
      rw [List.map_cons]
      by_cases hrow : p row
      · have hne : (f row).id ≠ id := hf row ▸ hp row hrow
        rw [if_pos hrow, rowsOf_cons_of_ne hne, rowsOf_cons_of_ne (hp row hrow), ih]
      · rw [if_neg hrow]
        by_cases hid : row.id = id
        · rw [rowsOf_cons_of_eq hid, rowsOf_cons_of_eq hid, ih]
        · rw [rowsOf_cons_of_ne hid, rowsOf_cons_of_ne hid, ih]

/-- Rows of other ids may be removed. -/
theorem rowsOf_filter {p : StoredRow → Bool} (hp : ∀ row, p row → row.id ≠ id)
    (rows : List StoredRow) : rowsOf id (rows.filter fun row => !p row) = rowsOf id rows := by
  rw [rowsOf, List.filter_filter]
  refine List.filter_congr fun row _ => ?_
  cases hrow : p row with
  | false => simp
  | true => simpa using hp row hrow

/-- A statement about another row is not about the rows of the id. -/
theorem RowFilter.id_ne_of_accepts {other : String} {owner : Option String} (h : other ≠ id)
    (hrow : (RowFilter.row other owner).accepts row) : row.id ≠ id := by
  rw [RowFilter.id_of_accepts hrow]
  exact h

/-- A change that spares an id leaves its rows as they were. -/
theorem Change.Spares.rowsOf_eq {change : Change} {rejected : List String} {touched : Nat}
    (h : change.Spares id) (hafter : change.onRows? rejected rows = some (touched, after)) :
    rowsOf id after = rowsOf id rows := by
  match change with
  | .store row =>
      obtain ⟨stored, hstored, hpair⟩ := Option.map_eq_some_iff.mp hafter
      cases hpair
      exact rowsOf_storeRows? (List.forall_mem_singleton.mpr h) hstored
  | .storeAll batch =>
      obtain ⟨stored, hstored, hpair⟩ := Option.map_eq_some_iff.mp hafter
      cases hpair
      exact rowsOf_storeRows? h hstored
  | .revise other owner form now =>
      cases hafter
      exact rowsOf_map_if (f := fun row => row.revise form now)
        (fun _ => RowFilter.id_ne_of_accepts h) (fun _ => rfl) rows
  | .remove (.row other owner) =>
      cases hafter
      exact rowsOf_filter (fun _ => RowFilter.id_ne_of_accepts h) rows

/-- A revision leaves as many rows as there were. -/
theorem Change.IsRevision.length_eq {change : Change} {rejected : List String} {touched : Nat}
    (h : change.IsRevision) (hafter : change.onRows? rejected rows = some (touched, after)) :
    after.length = rows.length := by
  match change with
  | .revise id owner form now =>
      cases hafter
      exact List.length_map _

end RowsOf

/-! ## Changes of a database -/

/-- A change writes the rows, and nothing else. -/
theorem Change.exists_rows {change : Change} {d after : Database} {touched : Nat}
    (h : change.apply? d = some (touched, after)) :
    ∃ rows, change.onRows? d.rejected d.rows = some (touched, rows) ∧
      after = { d with rows } := by
  unfold Change.apply? at h
  split at h
  · cases hrows : change.onRows? d.rejected d.rows with
    | none =>
        rw [hrows] at h
        cases h
    | some result =>
        rw [hrows] at h
        cases h
        exact ⟨_, rfl, rfl⟩
  · cases h

/-- What is found does not depend on changes that spare it. -/
theorem Change.Spares.find_eq {change : Change} {id : String} {d after : Database} {touched : Nat}
    (h : change.Spares id) (hafter : change.apply? d = some (touched, after))
    (owner : Option String) :
    (Store.database after).find id owner = (Store.database d).find id owner := by
  obtain ⟨rows, hrows, rfl⟩ := Change.exists_rows hafter
  rw [Store.find_database, Store.find_database, ← find?_rowsOf, h.rowsOf_eq hrows, find?_rowsOf]
  rfl

/-- A revision leaves as many rows as there were. -/
theorem Change.IsRevision.database_length_eq {change : Change} {d after : Database}
    {touched : Nat} (h : change.IsRevision) (hafter : change.apply? d = some (touched, after)) :
    after.rows.length = d.rows.length := by
  obtain ⟨rows, hrows, rfl⟩ := Change.exists_rows hafter
  exact h.length_eq hrows

/-! ## Calls that keep apart -/

namespace StoreCall

/-- The change that a call makes, if it does not only read. -/
def change? : StoreCall → Option Change
  | insert row => some (.store (.ofFeedback row))
  | restoreAll batch => some (.storeAll (batch.map .ofFeedback))
  | revise id owner form now => some (.revise id owner form now)
  | remove filter => some (.remove filter)
  | page _ => none

/-- What the other call changes does not show to this one. -/
def IsUndisturbedBy : StoreCall → StoreCall → Prop
  | revise id _ _ _, other => ∀ change ∈ other.change?, change.Spares id
  | page _, other => ∀ change ∈ other.change?, change.IsRevision
  | insert _, _ | restoreAll _, _ | remove _, _ => True

/-- A call with a change begins with it. -/
theorem exists_program_eq {call : StoreCall} {change : Change} (h : call.change? = some change) :
    ∃ next, call.program = .change change next := by
  cases call <;> cases h <;> exact ⟨_, rfl⟩

/-- A call leaves the database as it was, or as its change leaves it. -/
theorem run_eq_or_change (call : StoreCall) (d : Database) :
    (call.program.run d).2 = d ∨
      ∃ change ∈ call.change?, ∃ touched,
        change.apply? d = some (touched, (call.program.run d).2) := by
  cases hchange : call.change? with
  | none =>
      cases call <;> cases hchange
      exact .inl (run_page _ d)
  | some change =>
      obtain ⟨next, hprogram⟩ := exists_program_eq hchange
      cases happly : change.apply? d with
      | none =>
          have hstep : call.program.step? d = some (.error ⟨⟩, d) := by
            rw [hprogram, Call.step?, happly]
          exact .inl (eq_run_of_step? hstep).symm
      | some result =>
          have hstep : call.program.step? d = some (.ok (next result.1), result.2) := by
            rw [hprogram, Call.step?, happly]
          refine .inr ⟨change, rfl, result.1, ?_⟩
          rw [← eq_run_of_step? hstep, happly]

/--
Nothing that shows has come in between so far: the row of a revision is found as it was
left, and there are as many rows as a page has counted.
-/
def Unshaken : StoreCall → (found : List Database) → Database → Prop
  | revise id owner form now, [d], e =>
    (Store.database e).find id owner = ((Store.database d).revise id owner form now).2.find id owner
  | page _, [d], e => e.rows.length = d.rows.length
  | call, found, _ => call.Undisturbed found

/-- What does not show to a call leaves it unshaken. -/
theorem Unshaken.run {call other : StoreCall} {found : List Database} {d : Database}
    (h : call.Unshaken found d) (hother : call.IsUndisturbedBy other) :
    call.Unshaken found (other.program.run d).2 := by
  obtain hsame | ⟨change, hchange, touched, happly⟩ := other.run_eq_or_change d
  · rw [hsame]
    exact h
  · match call, found with
    | revise id owner form now, [before] =>
        exact ((hother change hchange).find_eq happly owner).trans h
    | page query, [before] => exact ((hother change hchange).database_length_eq happly).trans h
    | revise _ _ _ _, [] | revise _ _ _ _, _ :: _ :: _ => exact h
    | page _, [] | page _, _ :: _ :: _ => exact h
    | insert _, _ | restoreAll _, _ | remove _, _ => exact h

/-- After its first statement a call is unshaken. -/
theorem unshaken_first {call : StoreCall} {d after : Database} {state : Call.State Outcome}
    (h : call.program.step? d = some (state, after)) : call.Unshaken [d] after := by
  have hafter := eq_run_of_step? h
  match call with
  | revise id owner form now =>
      rw [program, Call.run_map] at hafter
      rw [hafter]
      rfl
  | page query =>
      rw [run_page] at hafter
      rw [hafter]
      rfl
  | insert _ | restoreAll _ | remove _ => trivial

end StoreCall

/-- A call that is unshaken so far is not disturbed by its own next statement. -/
theorem Stage.unshaken_step {call : StoreCall} {found : List Database}
    {serial? : Option (Except DatabaseFailure Outcome)} {rest : Call Outcome}
    {state : Call.State Outcome} {d after : Database} (hstage : Stage call found serial? (.ok rest))
    (hstep : rest.step? d = some (state, after)) (h : call.Unshaken found d) :
    call.Unshaken (found ++ [d]) after := by
  cases hstage with
  | waiting call => exact StoreCall.unshaken_first hstep
  | revised => exact h
  | counting query before =>
      intro page hpage
      obtain ⟨shown, _, rfl⟩ := Call.exists_of_page (Store.answerOf_eq_ok_iff.mp hpage)
      exact h
  | ended hanswer _ =>
      rw [Call.step?_of_answer? hanswer] at hstep
      cases hstep

/-- A call that is unshaken when it has ended has not been disturbed. -/
theorem Answered.undisturbed {call : StoreCall} {found : List Database} {d : Database}
    {serial answer : Except DatabaseFailure Outcome} (hanswered : Answered call found serial answer)
    (h : call.Unshaken found d) : call.Undisturbed found := by
  cases hanswered with
  | whole call before => cases call <;> trivial
  | reread => exact h
  | counted => exact h

/-! ## Runs of calls that keep apart -/

section Runs

variable {calls : List StoreCall} {database : Database} {order turns : List Nat} {pool : Pool}
  {k : Nat} {state : Call.State Outcome}

/-- No call does anything that shows to another. -/
def KeepApart (calls : List StoreCall) : Prop :=
  ∀ (j k : Nat) (one other : StoreCall), j ≠ k → calls[j]? = some one →
    calls[k]? = some other → one.IsUndisturbedBy other

namespace Pool

/-- Nothing that shows to a call has come in between its statements so far. -/
def IsSteady (calls : List StoreCall) (pool : Pool) : Prop :=
  ∀ (k : Nat) (call : StoreCall), calls[k]? = some call →
    call.Unshaken (pool.foundBy k) pool.database

/-- Before the first statement nothing has come in between. -/
theorem isSteady_start (calls : List StoreCall) (database : Database) :
    (start calls database).IsSteady calls := by
  intro k call _
  cases call <;> trivial

/-- A statement does not disturb calls that keep apart. -/
theorem IsSteady.executed {rest : Call Outcome} {after : Database} (h : pool.IsSteady calls)
    (hapart : KeepApart calls) (hexplained : Explained calls database order pool)
    (hrest : pool.calls[k]? = some (.ok rest))
    (hstep : rest.step? pool.database = some (state, after)) :
    (pool.executed k state after).IsSteady calls := by
  obtain ⟨call, hcall⟩ := hexplained.exists_call hrest
  have hstage := hexplained.stages k call (.ok rest) hcall hrest
  intro j one hone
  by_cases hjk : j = k
  · subst hjk
    rw [hcall] at hone
    obtain rfl := Option.some.inj hone
    rw [pool.foundBy_executed]
    exact hstage.unshaken_step hstep (h j _ hcall)
  · rw [pool.foundBy_executed_of_ne hjk]
    have hbefore := h j one hone
    obtain ⟨_, rfl, _⟩ | ⟨rfl, _⟩ := hstage.step hstep
    · exact hbefore.run (hapart j k one call hjk hone hcall)
    · exact hbefore

/-- A turn does not disturb calls that keep apart. -/
theorem IsSteady.turn (h : pool.IsSteady calls) (hapart : KeepApart calls)
    (hexplained : Explained calls database order pool) (k : Nat) :
    (pool.turn k).IsSteady calls := by
  obtain hsame | ⟨rest, state, after, hrest, hstep, hturn⟩ := pool.turn_cases k
  · rw [hsame]
    exact h
  · rw [hturn]
    exact h.executed hapart hexplained hrest hstep

/-- Turns do not disturb calls that keep apart. -/
theorem IsSteady.foldl_turn (h : pool.IsSteady calls) (hapart : KeepApart calls)
    (hexplained : Explained calls database order pool) (turns : List Nat) :
    (turns.foldl Pool.turn pool).IsSteady calls := by
  induction turns generalizing order pool with
  | nil => exact h
  | cons k turns ih =>
      obtain ⟨next, hnext⟩ := hexplained.turn k
      exact ih (h.turn hapart hexplained k) hnext

/--
Calls that keep apart run as if one after another, whatever the turns are: they leave the
same database, and every call answers the same.
-/
theorem appears_serial_of_apart (hapart : KeepApart calls)
    (hended : (interleave calls database turns).HasEnded) :
    ∃ order, order.Perm (List.range calls.length) ∧
      (serially calls order database).2 = (interleave calls database turns).database ∧
      ∀ k < calls.length,
        (interleave calls database turns).answer? k = serialAnswer? calls order database k := by
  refine appears_serial hended fun k call hcall => ?_
  have hsteady := (isSteady_start calls database).foldl_turn hapart
    (Explained.start calls database) turns
  obtain ⟨_, _, hexplained⟩ := exists_explained hended
  obtain ⟨_, _, _, _, hanswered⟩ := hexplained.exists_answered hended hcall
  exact hanswered.undisturbed (hsteady k call hcall)

end Pool

end Runs

end FeedbackBoard
