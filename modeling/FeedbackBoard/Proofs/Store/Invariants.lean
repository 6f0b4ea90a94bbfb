import FeedbackBoard.Proofs.Store.Operations

/-!
# Properties of all rows

What holds of every row of a store keeps holding as long as it holds of every
row that is added and survives every form that is applied; removals only take
rows away.  In a database the property is about the rows that the stored rows
were made from.

Main definitions:

- `Store.Holds`: every row of a store has a property.

Main results:

- `Store.Holds.insert`, `Store.Holds.restoreAll`, `Store.Holds.importAll`, `Store.Holds.revise`,
  `Store.Holds.remove`, `Store.Holds.removeUser`, `Store.Holds.removeAll`: changes keep the
  property.
- `Store.Holds.newest`: rows that are read have it.
-/

namespace FeedbackBoard

variable {P : Feedback → Prop}

/-- Every row that is stored was made from one with the property. -/
def AllStored (P : Feedback → Prop) (stored : List StoredRow) : Prop :=
  ∀ s ∈ stored, ∃ row, P row ∧ StoredRow.ofFeedback row = s

/-- Every row of a store has the property; a database has a table for them. -/
def Store.Holds (P : Feedback → Prop) : Store → Prop
  | .memory rows => ∀ row ∈ rows, P row
  | .database db => db.isReady = true ∧ AllStored P db.rows

/-! ## Rows -/

theorem mem_of_mem_revise {rows : RowList} {id : String} {owner : Option String}
    {form : Feedback.Form} {now : Int64} {row : Feedback}
    (h : row ∈ RowList.revise id owner form now rows) :
    row ∈ rows ∨ ∃ before ∈ rows, row = before.revise form now := by
  induction rows with
  | nil => cases h
  | cons first rest ih =>
      rw [RowList.revise] at h
      split at h
      · rcases List.mem_cons.mp h with rfl | h
        · exact Or.inr ⟨first, List.mem_cons_self, rfl⟩
        · exact Or.inl (List.mem_cons_of_mem _ h)
      · rcases List.mem_cons.mp h with rfl | h
        · exact Or.inl List.mem_cons_self
        · rcases ih h with h | ⟨before, hbefore, rfl⟩
          · exact Or.inl (List.mem_cons_of_mem _ h)
          · exact Or.inr ⟨before, List.mem_cons_of_mem _ hbefore, rfl⟩

theorem mem_of_mem_storeRow {row stored : StoredRow} {rows : List StoredRow}
    (h : stored ∈ storeRow row rows) : stored = row ∨ stored ∈ rows := by
  induction rows with
  | nil => exact Or.inl (List.mem_singleton.mp h)
  | cons first rest ih =>
      rw [storeRow] at h
      split at h
      · rcases List.mem_cons.mp h with h | h
        · exact Or.inl h
        · exact Or.inr (List.mem_cons_of_mem _ h)
      · rcases List.mem_cons.mp h with rfl | h
        · exact Or.inr List.mem_cons_self
        · rcases ih h with h | h
          · exact Or.inl h
          · exact Or.inr (List.mem_cons_of_mem _ h)

theorem AllStored.storeRow {rows : List StoredRow} (h : AllStored P rows) {row : Feedback}
    (hrow : P row) : AllStored P (storeRow (.ofFeedback row) rows) := by
  intro stored hmem
  rcases mem_of_mem_storeRow hmem with rfl | hmem
  · exact ⟨row, hrow, rfl⟩
  · exact h stored hmem

/-- Storing a batch keeps the property. -/
theorem AllStored.storeRows? {rejected : List String} {batch : List Feedback}
    {rows after : List StoredRow} (h : AllStored P rows) (hbatch : ∀ row ∈ batch, P row)
    (hstored : storeRows? rejected (batch.map .ofFeedback) rows = some after) :
    AllStored P after := by
  induction batch generalizing rows with
  | nil =>
      cases hstored
      exact h
  | cons row rest ih =>
      obtain ⟨hrow, hrest⟩ := List.forall_mem_cons.mp hbatch
      rw [List.map_cons, FeedbackBoard.storeRows?, List.foldlM_cons] at hstored
      split at hstored
      · cases hstored
      · exact ih (h.storeRow hrow) hrest hstored

theorem AllStored.filter {rows : List StoredRow} (h : AllStored P rows) (p : StoredRow → Bool) :
    AllStored P (rows.filter p) :=
  fun stored hmem => h stored (List.mem_of_mem_filter hmem)

/-- A form that keeps the property of rows keeps it of stored rows. -/
theorem AllStored.revise {rows : List StoredRow} (h : AllStored P rows) {form : Feedback.Form}
    {now : Int64} (hform : ∀ row, P row → P (row.revise form now)) (p : StoredRow → Bool) :
    AllStored P (rows.map fun row => if p row then row.revise form now else row) := by
  intro stored hmem
  obtain ⟨before, hbefore, rfl⟩ := List.mem_map.mp hmem
  obtain ⟨row, hrow, rfl⟩ := h before hbefore
  split
  · exact ⟨row.revise form now, hform row hrow, rfl⟩
  · exact ⟨row, hrow, rfl⟩

namespace Store

/-! ## Changes -/

theorem Holds.insert {store : Store} (h : store.Holds P) {row : Feedback} (hrow : P row) :
    (store.insert row).2.Holds P := by
  cases store with
  | memory rows =>
      intro other hmem
      rcases List.mem_append.mp hmem with hmem | hmem
      · exact h other hmem
      · rwa [List.mem_singleton.mp hmem]
  | database db =>
      rw [insert_database]
      split
      · exact ⟨h.1, h.2.storeRow hrow⟩
      · exact h

theorem Holds.revise {store : Store} (h : store.Holds P) {form : Feedback.Form} {now : Int64}
    (hform : ∀ row, P row → P (row.revise form now)) (id : String) (owner : Option String) :
    (store.revise id owner form now).2.Holds P := by
  cases store with
  | memory rows =>
      rw [Store.revise]
      split
      · exact h
      · intro row hmem
        rcases mem_of_mem_revise hmem with hmem | ⟨before, hbefore, rfl⟩
        · exact h row hmem
        · exact hform before (h before hbefore)
  | database db =>
      rw [revise_database, if_pos h.1]
      exact ⟨h.1, h.2.revise hform _⟩

theorem Holds.restoreAll {store : Store} (h : store.Holds P) {batch : List Feedback}
    (hbatch : ∀ row ∈ batch, P row) : (store.restoreAll batch).2.Holds P := by
  cases store with
  | memory rows =>
      induction batch generalizing rows with
      | nil => exact h
      | cons first rest ih =>
          obtain ⟨hfirst, hrest⟩ := List.forall_mem_cons.mp hbatch
          refine ih hrest (rows.restore first) fun row hmem => ?_
          rcases List.mem_append.mp hmem with hmem | hmem
          · exact h row (List.mem_of_mem_filter hmem)
          · rwa [List.mem_singleton.mp hmem]
  | database db =>
      rw [restoreAll_database, h.1, Bool.true_or, if_pos rfl]
      split
      next hstored => exact ⟨h.1, h.2.storeRows? hbatch hstored⟩
      next => exact h

theorem Holds.importAll {store : Store} (h : store.Holds P) {batch : List Feedback}
    (hbatch : ∀ row ∈ batch, P row) : (store.importAll batch).2.Holds P := by
  rw [Store.importAll]
  split
  · exact h.restoreAll hbatch
  · exact h

/-- A removal from a database keeps the property. -/
theorem Holds.execute_remove {db : Database} (h : (Store.database db).Holds P)
    (filter : RowFilter) : (execute (.remove filter) db).2.Holds P := by
  rw [Store.execute_remove, if_pos h.1]
  exact ⟨h.1, h.2.filter _⟩

theorem Holds.remove {store : Store} (h : store.Holds P) (id : String) (owner : Option String) :
    (store.remove id owner).2.Holds P := by
  cases store with
  | memory rows => exact fun row hmem => h row (List.mem_of_mem_filter hmem)
  | database db => exact h.execute_remove (.row id owner)

theorem Holds.removeUser {store : Store} (h : store.Holds P) (user : String) :
    (store.removeUser user).2.Holds P := by
  cases store with
  | memory rows => exact fun row hmem => h row (List.mem_of_mem_filter hmem)
  | database db => exact h.execute_remove (.user user)

theorem Holds.removeAll {store : Store} (h : store.Holds P) : store.removeAll.2.Holds P := by
  cases store with
  | memory rows => exact fun row hmem => absurd hmem List.not_mem_nil
  | database db => exact h.execute_remove .all

/-! ## Readings -/

/-- A property that is kept when a row is stored and read back holds of all rows that are read. -/
theorem Holds.newest {store : Store} (h : store.Holds P)
    (hread : ∀ row, P row → P (StoredRow.ofFeedback row).toFeedback) :
    ∃ rows, store.newest = .ok rows ∧ ∀ row ∈ rows, P row := by
  cases store with
  | memory rows =>
      refine ⟨newestFirst rows, rfl, fun row hmem => ?_⟩
      exact h row ((List.mergeSort_perm rows _).mem_iff.mp hmem)
  | database db =>
      rw [newest_database, answerOf_newest, if_pos h.1]
      refine ⟨_, rfl, fun row hmem => ?_⟩
      obtain ⟨stored, hstored, rfl⟩ := List.mem_map.mp hmem
      have hkept := (List.mergeSort_perm _ _).mem_iff.mp hstored
      obtain ⟨origin, horigin, rfl⟩ := h.2 stored (List.mem_of_mem_filter hkept)
      exact hread origin horigin

end Store

end FeedbackBoard
