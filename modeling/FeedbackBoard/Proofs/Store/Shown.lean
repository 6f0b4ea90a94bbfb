import FeedbackBoard.Proofs.Store.Confinement

/-!
# The rows that a store shows

Readings show the rows of a store in one way or another.  Rows in memory are shown
as they are; rows of a database are shown as they are read back from their texts.
Seen like this a change of the store is a change of a list of rows, wherever the
rows are held, except that a database reads back what has been written.

Main definitions:

- `Store.shown`: the rows of a store as they are read.
- `Store.readBack`: a row as it is read after it has been written.
- `RowFilter.covers`: whether a condition is about a row that is shown.

Main results:

- `Store.newest_of_isReady`, `Store.stamps_of_isReady`, `Store.ratings_of_isReady`,
  `Store.standings_of_isReady`: readings of the rows that are shown.
- `Store.shown_insert`, `Store.shown_revise`, `Store.shown_remove`, `Store.shown_removeUser`,
  `Store.shown_removeAll`: what changes that succeed do to them.
-/

namespace FeedbackBoard

/-- Whether the condition is about the row. -/
def RowFilter.covers (filter : RowFilter) (row : Feedback) : Bool :=
  filter.accepts (.ofFeedback row)

/-- A row is read as the row that a condition is about. -/
theorem RowFilter.covers_toFeedback (filter : RowFilter) (stored : StoredRow) :
    filter.covers stored.toFeedback = filter.accepts stored := by
  cases filter <;> rfl

theorem RowFilter.covers_row (id : String) (owner : Option String) (row : Feedback) :
    (RowFilter.row id owner).covers row = RowList.isTarget id owner row := by
  cases owner <;> rfl

/-- A stored row is listed where the row that is read from it is listed. -/
theorem newestFirst_map_toFeedback (rows : List StoredRow) :
    (StoredRow.newestFirst rows).map StoredRow.toFeedback =
      newestFirst (rows.map StoredRow.toFeedback) := by
  rw [StoredRow.newestFirst, newestFirst, List.map_mergeSort fun a _ b _ => ?_]
  rfl

namespace Store

/-! ## Readings -/

/-- The rows of a store as they are read. -/
def shown : Store → List Feedback
  | memory rows => rows
  | database db => db.rows.map StoredRow.toFeedback

/-- A row as it is read after it has been written. -/
def readBack : Store → Feedback → Feedback
  | memory _ => id
  | database _ => fun row => (StoredRow.ofFeedback row).toFeedback

/-- Whether a store can be read; a database needs its table. -/
def isReady : Store → Bool
  | memory _ => true
  | database db => db.isReady

variable {store : Store}

@[simp]
theorem id_readBack (row : Feedback) : (store.readBack row).id = row.id := by
  cases store <;> rfl

theorem map_id_shown (store : Store) : store.shown.map Feedback.id = store.ids := by
  cases store with
  | memory rows => rfl
  | database db => exact List.map_map

/-- A listing shows all rows. -/
theorem newest_of_isReady (h : store.isReady = true) :
    store.newest = .ok (newestFirst store.shown) := by
  cases store with
  | memory rows => rfl
  | database db =>
      have hall : db.rows.filter RowFilter.all.accepts = db.rows := List.filter_true db.rows
      have hready : db.isReady = true := h
      rw [newest_database, answerOf_newest, if_pos hready, hall, newestFirst_map_toFeedback]
      rfl

/-- Stamps are those of the rows in the order of the listing. -/
theorem stamps_of_isReady (h : store.isReady = true) :
    store.stamps = .ok ((newestFirst store.shown).map Feedback.stamp) := by
  cases store with
  | memory rows => rfl
  | database db =>
      have hall : db.rows.filter RowFilter.all.accepts = db.rows := List.filter_true db.rows
      have hready : db.isReady = true := h
      rw [stamps_database, if_pos hready, hall, shown, ← newestFirst_map_toFeedback, List.map_map]
      rfl

/-- Reviews count the ratings among the rows. -/
theorem ratings_of_isReady (h : store.isReady = true) :
    store.ratings = .ok (RowList.ratings store.shown) := by
  cases store with
  | memory rows => rfl
  | database db =>
      have hready : db.isReady = true := h
      rw [ratings_database, if_pos hready, RowList.ratings, shown, List.filter_map, List.map_map]
      rfl

/-- A store ranks the rows that it shows. -/
theorem standings_of_isReady (h : store.isReady = true) :
    store.standings = .ok (leaderboard (RowList.ratings store.shown)) := by
  rw [standings, ratings_of_isReady h]
  rfl

/-! ## Changes -/

/-- A row that is added with a fresh id is shown last. -/
theorem shown_insert {row added : Feedback} (hfresh : row.id ∉ store.ids)
    (hinsert : (store.insert row).1 = .ok added) :
    (store.insert row).2.shown = store.shown ++ [store.readBack row] := by
  cases store with
  | memory rows => rfl
  | database db =>
      rw [insert_database] at hinsert ⊢
      split at hinsert
      next hpermitted =>
        rw [if_pos hpermitted, storeRow_eq_append hfresh]
        exact List.map_append
      next => cases hinsert

/-- A form is applied to the row that is found. -/
theorem shown_revise (hdistinct : store.ids.Nodup) {id : String} {owner : Option String}
    {form : Feedback.Form} {now : Int64} {found : Option Feedback}
    (hrevise : (store.revise id owner form now).1 = .ok found) :
    (store.revise id owner form now).2.shown = store.shown.map fun row =>
      if RowList.isTarget id owner row then store.readBack (row.revise form now) else row := by
  cases store with
  | memory rows =>
      rw [revise_memory hdistinct]
      rfl
  | database db =>
      rw [revise_database] at hrevise ⊢
      split at hrevise
      next hready =>
        rw [if_pos hready, withRows, shown, shown, List.map_map, List.map_map]
        apply List.map_congr_left
        intro stored _
        rw [Function.comp_apply, Function.comp_apply, ← RowFilter.covers_row,
          RowFilter.covers_toFeedback]
        split <;> rfl
      next => cases hrevise

/-- A removal from a database takes away the rows that its condition is about. -/
theorem shown_execute_remove {db : Database} {filter : RowFilter} {removed : Bool}
    (hremove : (execute (.remove filter) db).1 = .ok removed) :
    (execute (.remove filter) db).2.shown =
      (database db).shown.filter fun row => !filter.covers row := by
  rw [execute_remove] at hremove ⊢
  split at hremove
  next hready =>
    rw [if_pos hready, withRows, shown, shown, List.filter_map]
    congr 1
    apply List.filter_congr
    intro stored _
    rw [Function.comp_apply, RowFilter.covers_toFeedback]
  next => cases hremove

/-- A form is applied only if some row is found. -/
theorem exists_target_of_revise {id : String} {owner : Option String} {form : Feedback.Form}
    {now : Int64} {found : Feedback}
    (hrevise : (store.revise id owner form now).1 = .ok (some found)) :
    ∃ row ∈ store.shown, RowList.isTarget id owner row := by
  cases store with
  | memory rows =>
      rw [revise] at hrevise
      split at hrevise
      next => cases hrevise
      next row hrow => exact ⟨row, List.mem_of_find?_eq_some hrow, List.find?_some hrow⟩
  | database db =>
      rw [revise_database] at hrevise
      split at hrevise
      next =>
        cases hstored : db.rows.find? (RowFilter.row id owner).accepts with
        | none =>
            rw [hstored] at hrevise
            cases hrevise
        | some stored =>
            have haccepts : (RowFilter.row id owner).accepts stored := List.find?_some hstored
            rw [← RowFilter.covers_toFeedback, RowFilter.covers_row] at haccepts
            exact ⟨_, List.mem_map_of_mem (List.mem_of_find?_eq_some hstored), haccepts⟩
      next => cases hrevise

variable {removed : Bool}

theorem shown_remove {id : String} {owner : Option String}
    (hremove : (store.remove id owner).1 = .ok removed) :
    (store.remove id owner).2.shown =
      store.shown.filter fun row => !(RowFilter.row id owner).covers row := by
  cases store with
  | memory rows =>
      simp only [RowFilter.covers_row]
      rfl
  | database db => exact shown_execute_remove hremove

theorem shown_removeUser {user : String} (hremove : (store.removeUser user).1 = .ok removed) :
    (store.removeUser user).2.shown =
      store.shown.filter fun row => !(RowFilter.user user).covers row := by
  cases store with
  | memory rows => rfl
  | database db => exact shown_execute_remove hremove

theorem shown_removeAll (hremove : store.removeAll.1 = .ok removed) :
    store.removeAll.2.shown = store.shown.filter fun row => !RowFilter.all.covers row := by
  cases store with
  | memory rows => exact (List.filter_false rows).symm
  | database db => exact shown_execute_remove hremove

/-! ### Readiness -/

@[simp]
theorem isReady_insert (store : Store) (row : Feedback) :
    (store.insert row).2.isReady = store.isReady := by
  cases store with
  | memory rows => rfl
  | database db =>
      rw [insert_database]
      split <;> rfl

@[simp]
theorem isReady_revise (store : Store) (id : String) (owner : Option String)
    (form : Feedback.Form) (now : Int64) :
    (store.revise id owner form now).2.isReady = store.isReady := by
  cases store with
  | memory rows =>
      rw [revise]
      split <;> rfl
  | database db =>
      rw [revise_database]
      split <;> rfl

theorem isReady_execute_remove (db : Database) (filter : RowFilter) :
    (execute (.remove filter) db).2.isReady = db.isReady := by
  rw [execute_remove]
  split <;> rfl

@[simp]
theorem isReady_remove (store : Store) (id : String) (owner : Option String) :
    (store.remove id owner).2.isReady = store.isReady := by
  cases store with
  | memory rows => rfl
  | database db => exact isReady_execute_remove db _

@[simp]
theorem isReady_removeUser (store : Store) (user : String) :
    (store.removeUser user).2.isReady = store.isReady := by
  cases store with
  | memory rows => rfl
  | database db => exact isReady_execute_remove db _

@[simp]
theorem isReady_removeAll (store : Store) : store.removeAll.2.isReady = store.isReady := by
  cases store with
  | memory rows => rfl
  | database db => exact isReady_execute_remove db _

end Store

end FeedbackBoard
