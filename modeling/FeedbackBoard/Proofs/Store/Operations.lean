import FeedbackBoard.Proofs.Store.KeyedRows

/-!
# Operations on rows

In a database an operation of the store is a call of one or two statements.
This module says for every operation but pages what its call answers and leaves
behind, so that later arguments are about rows and never about statements.  Where
the operation on rows in memory is written differently, it is brought to the
same form.

Main definitions:

- `Store.ids`: the ids of the rows, wherever they are held.

Main results:

- `Store.revise_memory`, `Store.remove_memory`, `Store.removeUser_memory`: changes of
  rows in memory.
- `Store.insert_database`, `Store.restore_database`, `Store.restoreAll_database`,
  `Store.revise_database`, `Store.remove_database`, `Store.removeUser_database`: changes of
  a database.
- `Store.find_database`, `Store.newest_database`, `Store.newestOf_database`,
  `Store.stamps_database`, `Store.ratings_database`: readings.
-/

namespace FeedbackBoard

/-! ## Rows that are stored -/

/-- A single row is stored unless its id is rejected. -/
theorem storeRows?_singleton (rejected : List String) (row : StoredRow) (rows : List StoredRow) :
    storeRows? rejected [row] rows =
      if rejected.contains row.id then none else some (storeRow row rows) := by
  rw [storeRows?, List.foldlM_cons]
  split <;> rfl

/-- Rows without rejected ids are stored, one after the other. -/
theorem storeRows?_of_accepted {rejected : List String} {batch : List StoredRow}
    (h : ∀ row ∈ batch, row.id ∉ rejected) (rows : List StoredRow) :
    storeRows? rejected batch rows =
      some (batch.foldl (fun rows row => storeRow row rows) rows) := by
  induction batch generalizing rows with
  | nil => rfl
  | cons row rest ih =>
      have hrow : rejected.contains row.id = false := by
        simpa using h row List.mem_cons_self
      rw [List.foldl_cons, ← ih fun other hother => h other (List.mem_cons_of_mem row hother)]
      rw [storeRows?, List.foldlM_cons, hrow]
      rfl

/-- Without rejected ids all rows are stored, one after the other. -/
theorem storeRows?_nil_rejected (batch rows : List StoredRow) :
    storeRows? [] batch rows = some (batch.foldl (fun rows row => storeRow row rows) rows) :=
  storeRows?_of_accepted (fun _ _ => List.not_mem_nil) rows

namespace Store

/-- The ids of the rows. -/
def ids : Store → List String
  | memory rows => rows.map Feedback.id
  | database db => db.rows.map StoredRow.id

/-! ## Rows in memory -/

/-- A revision in memory changes the row that is found. -/
theorem revise_memory {rows : RowList} (h : DistinctIds Feedback.id rows) (id : String)
    (owner : Option String) (form : Feedback.Form) (now : Int64) :
    (Store.memory rows).revise id owner form now =
      (.ok ((rows.find? id owner).map fun row => row.revise form now),
        .memory (rows.map fun row =>
          if RowList.isTarget id owner row then row.revise form now else row)) := by
  rw [revise, ← RowList.revise_eq_map h]
  cases hfind : rows.find? id owner with
  | some row => rfl
  | none =>
      have hkept : RowList.revise id owner form now rows = rows := by
        rw [RowList.revise_eq_map h]
        exact map_if_eq_self (List.find?_eq_none.mp hfind)
      rw [hkept, Option.map_none]

/-- A list gets shorter exactly if it has something to remove. -/
theorem length_filter_not_lt {ρ : Type} (p : ρ → Bool) (rows : List ρ) :
    decide ((rows.filter fun row => !p row).length < rows.length) = rows.any p := by
  rw [Bool.eq_iff_iff, decide_eq_true_iff, List.length_filter_lt_length_iff_exists,
    List.any_eq_true]
  simp only [Bool.not_eq_true', Bool.not_eq_false]

theorem remove_memory (rows : RowList) (id : String) (owner : Option String) :
    (Store.memory rows).remove id owner =
      (.ok (rows.any (RowList.isTarget id owner)),
        .memory (rows.filter fun row => !RowList.isTarget id owner row)) := by
  rw [← length_filter_not_lt]
  rfl

theorem removeUser_memory (rows : RowList) (user : String) :
    (Store.memory rows).removeUser user =
      (.ok (rows.any fun row => row.userId == user),
        .memory (rows.filter fun row => !(row.userId == user))) := by
  rw [← length_filter_not_lt]
  rfl

/-! ## Rows of a database -/

/-- A fresh database has a table without rows and stores whatever it is given. -/
theorem exists_emptyDatabase (now : Int64) :
    ∃ db : Database, emptyDatabase now = .database db ∧ db.isReady = true ∧
      db.rejected = [] ∧ db.rows = [] :=
  ⟨_, rfl, rfl, rfl, rfl⟩

/-- The database with other rows. -/
def withRows (db : Database) (rows : List StoredRow) : Store :=
  .database { db with rows }

variable (db : Database)

/-! ### Statements -/

/-- A call of one reading answers from the rows, if there is a table. -/
theorem answerOf_query {α : Type} (q : Query) (next : q.Reply → α) :
    answerOf (.query q fun reply => .done (next reply)) db =
      match if db.isReady then q.onRows? db.rows else none with
      | some reply => .ok (next reply)
      | none => .error .refused := by
  rw [answerOf, Call.run, Query.answer?]
  cases if db.isReady then q.onRows? db.rows else none <;> rfl

/-- A call of one change answers how many rows it touched. -/
theorem execute_change {α : Type} (c : Change) (next : Nat → α) :
    execute (.change c fun touched => .done (next touched)) db =
      match if db.isReady || c.isVoid then c.onRows? db.rejected db.rows else none with
      | some (touched, rows) => (.ok (next touched), withRows db rows)
      | none => (.error .refused, .database db) := by
  rw [execute, answerOf, Call.run, Change.apply?]
  cases db.isReady || c.isVoid
  · rfl
  · cases c.onRows? db.rejected db.rows <;> rfl

/-! ### Changes -/

/-- Storing one row needs the table and an id that can be stored. -/
theorem execute_store {α : Type} (row : StoredRow) (result : α) :
    execute (.change (.store row) fun _ => .done result) db =
      if db.isReady && !db.rejected.contains row.id then
        (.ok result, withRows db (storeRow row db.rows))
      else (.error .refused, .database db) := by
  rw [execute_change, Change.onRows?, storeRows?_singleton]
  cases db.isReady
  · rfl
  · cases db.rejected.contains row.id <;> rfl

theorem insert_database (row : Feedback) :
    (Store.database db).insert row =
      if db.isReady && !db.rejected.contains row.id then
        (.ok row, withRows db (storeRow (.ofFeedback row) db.rows))
      else (.error .refused, .database db) :=
  execute_store db (.ofFeedback row) row

theorem restore_database (row : Feedback) :
    (Store.database db).restore row =
      if db.isReady && !db.rejected.contains row.id then
        (.ok (), withRows db (storeRow (.ofFeedback row) db.rows))
      else (.error .refused, .database db) :=
  execute_store db (.ofFeedback row) ()

/-- Setting several rows needs the table, unless there are none, and ids that can be stored. -/
theorem restoreAll_database (batch : List Feedback) :
    (Store.database db).restoreAll batch =
      match
        if db.isReady || batch.isEmpty then
          storeRows? db.rejected (batch.map StoredRow.ofFeedback) db.rows
        else none with
      | some rows => (.ok batch.length, withRows db rows)
      | none => (.error .refused, .database db) := by
  rw [restoreAll, Call.restoreAll, execute_change, Change.onRows?, Change.isVoid, List.isEmpty_map]
  cases db.isReady || batch.isEmpty
  · rfl
  · cases storeRows? db.rejected (batch.map StoredRow.ofFeedback) db.rows <;> rfl

/-- A revision reads the row that it has changed. -/
theorem revise_database (id : String) (owner : Option String) (form : Feedback.Form)
    (now : Int64) :
    (Store.database db).revise id owner form now =
      if db.isReady then
        (.ok (((db.rows.find? (RowFilter.row id owner).accepts).map fun row =>
            row.revise form now).map StoredRow.toFeedback),
          withRows db (db.rows.map fun row =>
            if (RowFilter.row id owner).accepts row then row.revise form now else row))
      else (.error .refused, .database db) := by
  rw [revise, execute, answerOf, Call.revise, Call.run, Change.apply?]
  cases hready : db.isReady
  · rfl
  · have hsame : ∀ row : StoredRow, (RowFilter.row id owner).accepts (row.revise form now) =
        (RowFilter.row id owner).accepts row := fun _ => rfl
    have hfound := find?_map_if hsame db.rows
    simp only [Change.onRows?, Bool.true_or, if_true]
    split
    · next hnone =>
        rw [List.countP_eq_zero, ← List.find?_eq_none] at hnone
        rw [hnone]
        rfl
    · rw [Call.find, Call.run, Query.answer?]
      have hchanged : ∀ rows, ({ db with rows } : Database).isReady = true := fun _ => hready
      rw [if_pos (hchanged _), ← hfound]
      rfl

/-- A removal takes the rows of a filter away. -/
theorem execute_remove (filter : RowFilter) :
    execute (.remove filter) db =
      if db.isReady then
        (.ok (db.rows.any filter.accepts),
          withRows db (db.rows.filter fun row => !filter.accepts row))
      else (.error .refused, .database db) := by
  have hany : decide (0 < db.rows.countP filter.accepts) = db.rows.any filter.accepts := by
    rw [Bool.eq_iff_iff, decide_eq_true_iff, List.countP_pos_iff, List.any_eq_true]
  rw [Call.remove, execute_change, Change.onRows?, ← hany]
  cases db.isReady <;> rfl

theorem remove_database (id : String) (owner : Option String) :
    (Store.database db).remove id owner = execute (.remove (.row id owner)) db :=
  rfl

theorem removeUser_database (user : String) :
    (Store.database db).removeUser user = execute (.remove (.user user)) db :=
  rfl

/-! ### Readings -/

/-- A row is found by its id within the owner's rows. -/
theorem find_database (id : String) (owner : Option String) :
    (Store.database db).find id owner =
      if db.isReady then
        .ok ((db.rows.find? (RowFilter.row id owner).accepts).map StoredRow.toFeedback)
      else .error .refused := by
  refine (answerOf_query db (.one id owner) _).trans ?_
  cases db.isReady <;> rfl

/-- A listing shows the rows of a filter. -/
theorem answerOf_newest (filter : RowFilter) :
    answerOf (.newest filter) db =
      if db.isReady then
        .ok ((StoredRow.newestFirst (db.rows.filter filter.accepts)).map StoredRow.toFeedback)
      else .error .refused := by
  refine (answerOf_query db (.newest filter) _).trans ?_
  cases db.isReady <;> rfl

theorem newest_database :
    (Store.database db).newest = answerOf (.newest .all) db :=
  rfl

theorem newestOf_database (user : String) :
    (Store.database db).newestOf user = answerOf (.newest (.user user)) db :=
  rfl

theorem stamps_database :
    (Store.database db).stamps =
      if db.isReady then
        .ok ((StoredRow.newestFirst (db.rows.filter RowFilter.all.accepts)).map StoredRow.stamp)
      else .error .refused := by
  refine (answerOf_query db (.newest .all) _).trans ?_
  cases db.isReady <;> rfl

theorem ratings_database :
    (Store.database db).ratings =
      if db.isReady then
        .ok ((db.rows.filter fun row => row.kind == Feedback.ratingKind).map StoredRow.payload)
      else .error .refused := by
  refine (answerOf_query db (.ofKind Feedback.ratingKind) _).trans ?_
  cases db.isReady <;> rfl

end Store

end FeedbackBoard
