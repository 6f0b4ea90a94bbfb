import FeedbackBoard.Proofs.Feedback.Exchange
import FeedbackBoard.Proofs.Store.Mirror
import FeedbackBoard.Proofs.Store.Shown

/-!
# Batches of rows

Several rows are set at once, from a list in which an id may come more than once and
may be the id of a row that is there.  Either the whole batch is set or nothing at all
changes.  A batch that has been set has replaced the rows with its ids, the last of its
rows with an id remains, the other rows are what they were, and setting it once more
changes nothing.

Main definitions:

- `SetsBatch`: a list of rows in which a batch has been set.
- `Store.HoldsBatch`: a store in which a batch has been set.
- `Store.SetsAllOrNone`: a call that sets a batch, or leaves the store as it was.

Main results:

- `SetsBatch.append`: a batch is set by setting its parts one after the other.
- `SetsBatch.distinct`: setting a batch keeps ids distinct.
- `Store.holdsBatch_setAll`, `Store.setAll_setAll`: setting the rows of a batch sets the batch,
  and once is enough.
- `Store.setsAllOrNone`: restoring and importing.
-/

namespace FeedbackBoard

/-! ## Lists of rows -/

section Setting

variable {ρ : Type} (id : ρ → String)

/--
A batch has been set: of every id in it there is one row, the last one of the batch,
and the rows with other ids are the ones that were there.
-/
structure SetsBatch (batch rows after : List ρ) : Prop where
  last : ∀ key ∈ batch.map id, after.filter (fun row => id row == key) =
    (batch.filter fun row => id row == key).getLast?.toList
  others : after.filter (fun row => id row ∉ batch.map id) =
    rows.filter fun row => id row ∉ batch.map id

namespace SetsBatch

variable {id} {batch later rows between after : List ρ}

theorem nil (rows : List ρ) : SetsBatch id [] rows rows where
  last _ hkey := absurd hkey List.not_mem_nil
  others := rfl

/-- The rows of an id that is not in the batch are the ones that were there. -/
theorem filter_eq_of_not_mem (h : SetsBatch id batch rows after) {key : String}
    (hkey : key ∉ batch.map id) :
    after.filter (fun row => id row == key) = rows.filter fun row => id row == key := by
  have hamong : ∀ list : List ρ, list.filter (fun row => id row == key) =
      (list.filter fun row => id row ∉ batch.map id).filter fun row => id row == key := by
    intro list
    rw [List.filter_filter]
    refine List.filter_congr fun row _ => ?_
    by_cases hrow : id row = key
    · simp [hrow, hkey]
    · simp [hrow]
  rw [hamong after, h.others, ← hamong rows]

/-- A batch is set by setting its parts one after the other. -/
theorem append (hfirst : SetsBatch id batch rows between)
    (hlater : SetsBatch id later between after) : SetsBatch id (batch ++ later) rows after where
  last key hkey := by
    rw [List.filter_append]
    by_cases hmem : key ∈ later.map id
    · have hne : later.filter (fun row => id row == key) ≠ [] := by
        obtain ⟨row, hrow, rfl⟩ := List.mem_map.mp hmem
        exact List.ne_nil_of_mem (List.mem_filter.mpr ⟨hrow, beq_self_eq_true _⟩)
      rw [hlater.last key hmem, List.getLast?_append_of_ne_nil _ hne]
    · have hnone : later.filter (fun row => id row == key) = [] := by
        rw [List.filter_eq_nil_iff]
        intro row hrow heq
        exact hmem (List.mem_map.mpr ⟨row, hrow, beq_iff_eq.mp heq⟩)
      have hmem' : key ∈ batch.map id := by
        rw [List.map_append, List.mem_append] at hkey
        exact hkey.resolve_right hmem
      rw [hlater.filter_eq_of_not_mem hmem, hfirst.last key hmem', hnone, List.append_nil]
  others := by
    have hsplit : ∀ list : List ρ, list.filter (fun row => id row ∉ (batch ++ later).map id) =
        (list.filter fun row => id row ∉ batch.map id).filter fun row => id row ∉ later.map id := by
      intro list
      rw [List.filter_filter]
      refine List.filter_congr fun row _ => ?_
      rw [Bool.eq_iff_iff]
      simp only [List.map_append, List.mem_append, not_or, Bool.and_eq_true, decide_eq_true_iff]
      exact and_comm
    rw [hsplit, List.filter_comm, hlater.others, List.filter_comm, hfirst.others, ← hsplit]

/-- Setting a batch keeps ids distinct. -/
theorem distinct (h : SetsBatch id batch rows after) (hrows : DistinctIds id rows) :
    DistinctIds id after := by
  have hcount : ∀ (list : List ρ) (key : String),
      (list.map id).count key = (list.filter fun row => id row == key).length := by
    intro list key
    rw [List.count_eq_countP, List.countP_map, List.countP_eq_length_filter]
    rfl
  refine List.nodup_iff_count_le_one.mpr fun key => ?_
  rw [hcount]
  by_cases hkey : key ∈ batch.map id
  · rw [h.last key hkey]
    exact Option.length_toList_le
  · rw [h.filter_eq_of_not_mem hkey, ← hcount]
    exact List.nodup_iff_count_le_one.mp hrows key

/-- A row whose id is in the batch is the last one of the batch with this id. -/
theorem mem_iff (h : SetsBatch id batch rows after) {row : ρ} (hrow : id row ∈ batch.map id) :
    row ∈ after ↔ (batch.filter fun other => id other == id row).getLast? = some row := by
  rw [← Option.mem_toList, ← h.last _ hrow, List.mem_filter]
  simp

/-- Setting a batch once more brings no other rows. -/
theorem mem_iff_of_again (h : SetsBatch id batch rows after)
    (hagain : SetsBatch id batch after between) (row : ρ) : row ∈ between ↔ row ∈ after := by
  by_cases hrow : id row ∈ batch.map id
  · rw [hagain.mem_iff hrow, h.mem_iff hrow]
  · have hfilter := hagain.filter_eq_of_not_mem hrow
    have hown : ∀ list : List ρ,
        row ∈ list ↔ row ∈ list.filter fun other => id other == id row := by
      intro list
      simp
    rw [hown between, hfilter, ← hown after]

end SetsBatch

end Setting

/-- One id is not among several exactly if it is another. -/
theorem decide_not_mem_singleton (key other : String) :
    decide (key ∉ [other]) = (key != other) := by
  rw [Bool.eq_iff_iff, decide_eq_true_iff, bne_iff_ne, List.mem_singleton]

/-! ### Rows in memory -/

namespace RowList

theorem setsBatch_restore (row : Feedback) (rows : RowList) :
    SetsBatch Feedback.id [row] rows (rows.restore row) where
  last key hkey := by
    obtain rfl : key = row.id := List.mem_singleton.mp hkey
    simp [restore, List.filter_append, List.filter_filter]
  others := by
    simp only [List.map_singleton, decide_not_mem_singleton]
    simp [restore, List.filter_append, List.filter_filter]

/-- Setting the rows of a batch one after the other sets the batch. -/
theorem setsBatch_restoreAll (batch : List Feedback) (rows : RowList) :
    SetsBatch Feedback.id batch rows (rows.restoreAll batch) := by
  induction batch generalizing rows with
  | nil => exact .nil rows
  | cons row rest ih => exact (setsBatch_restore row rows).append (ih (rows.restore row))

/-- The rows with other ids come first, then those of the batch. -/
theorem restoreAll_eq_append (batch : List Feedback) (rows : RowList) :
    rows.restoreAll batch =
      rows.filter (fun row => row.id ∉ batch.map Feedback.id) ++ restoreAll [] batch := by
  induction batch generalizing rows with
  | nil => simp [restoreAll]
  | cons row rest ih =>
      have hstep : ∀ list : RowList, list.restoreAll (row :: rest) =
          (list.restore row).restoreAll rest := fun _ => rfl
      have hkept : ((rows.filter fun other => other.id != row.id).filter
          fun other => other.id ∉ rest.map Feedback.id) =
          rows.filter fun other => other.id ∉ (row :: rest).map Feedback.id := by
        rw [List.filter_filter]
        refine List.filter_congr fun other _ => ?_
        rw [Bool.eq_iff_iff]
        simp only [List.map_cons, List.mem_cons, not_or, Bool.and_eq_true, decide_eq_true_iff,
          bne_iff_ne]
        exact and_comm
      rw [hstep, hstep, ih, ih (restore [] row), restore, restore, List.filter_append, hkept,
        List.append_assoc]
      rfl

/-- Setting a batch once more changes nothing. -/
theorem restoreAll_restoreAll (batch : List Feedback) (rows : RowList) :
    (rows.restoreAll batch).restoreAll batch = rows.restoreAll batch := by
  rw [restoreAll_eq_append batch (rows.restoreAll batch),
    (setsBatch_restoreAll batch rows).others, ← restoreAll_eq_append]

end RowList

/-! ### Rows of a table -/

section Table

variable {rows : List StoredRow}

theorem setsBatch_storeRow (row : StoredRow) (h : DistinctIds StoredRow.id rows) :
    SetsBatch StoredRow.id [row] rows (storeRow row rows) where
  last key hkey := by
    obtain rfl : key = row.id := List.mem_singleton.mp hkey
    have hstored : (storeRow row rows).Perm (rows.filter (fun other => other.id != row.id) ++ [row]) :=
      storeRow_perm h
    have hperm := hstored.filter fun other => other.id == row.id
    have hkept : (rows.filter (fun other => other.id != row.id) ++ [row]).filter
        (fun other => other.id == row.id) = [row] := by
      simp [List.filter_append, List.filter_filter]
    rw [hkept, List.perm_singleton] at hperm
    simpa using hperm
  others := by
    induction rows with
    | nil => simp [storeRow]
    | cons other rest ih =>
        rw [storeRow]
        by_cases hid : other.id = row.id
        · simp [hid]
        · have hrest := ih (List.nodup_cons.mp h).2
          rw [if_neg hid, List.filter_cons_of_pos (by simpa using hid),
            List.filter_cons_of_pos (by simpa using hid), hrest]

/-- Storing the rows of a batch one after the other sets the batch. -/
theorem setsBatch_foldl_storeRow (batch : List StoredRow) (h : DistinctIds StoredRow.id rows) :
    SetsBatch StoredRow.id batch rows (batch.foldl (fun rows row => storeRow row rows) rows) := by
  induction batch generalizing rows with
  | nil => exact .nil rows
  | cons row rest ih => exact (setsBatch_storeRow row h).append (ih h.storeRow)

/-- A row with the id of one that is there takes its place. -/
theorem map_id_storeRow {row : StoredRow} (hrow : row.id ∈ rows.map StoredRow.id) :
    (storeRow row rows).map StoredRow.id = rows.map StoredRow.id := by
  induction rows with
  | nil => cases hrow
  | cons other rest ih =>
      rw [storeRow]
      by_cases hid : other.id = row.id
      · rw [if_pos hid, List.map_cons, List.map_cons, hid]
      · have hrest := (List.mem_cons.mp hrow).resolve_left (Ne.symm hid)
        rw [if_neg hid, List.map_cons, List.map_cons, ih hrest]

theorem map_id_foldl_storeRow {batch : List StoredRow}
    (hbatch : ∀ row ∈ batch, row.id ∈ rows.map StoredRow.id) :
    (batch.foldl (fun rows row => storeRow row rows) rows).map StoredRow.id =
      rows.map StoredRow.id := by
  induction batch generalizing rows with
  | nil => rfl
  | cons row rest ih =>
      obtain ⟨hrow, hrest⟩ := List.forall_mem_cons.mp hbatch
      have hids := map_id_storeRow hrow
      rw [List.foldl_cons, ih fun other hother => hids ▸ hrest other hother, hids]

/-- Storing a batch once more changes nothing. -/
theorem foldl_storeRow_foldl_storeRow (batch : List StoredRow)
    (h : DistinctIds StoredRow.id rows) :
    batch.foldl (fun rows row => storeRow row rows)
        (batch.foldl (fun rows row => storeRow row rows) rows) =
      batch.foldl (fun rows row => storeRow row rows) rows := by
  have hset := setsBatch_foldl_storeRow batch h
  have hdistinct := hset.distinct h
  have hagain := setsBatch_foldl_storeRow batch hdistinct
  refine hdistinct.eq_of_map_id_eq (fun row => (hset.mem_iff_of_again hagain row).mp)
    (fun _ hrow => hrow) (map_id_foldl_storeRow fun row hrow => ?_)
  -- Every id of the batch has a row, the last one of the batch with it.
  have hid : row.id ∈ batch.map StoredRow.id := List.mem_map_of_mem hrow
  have hne : batch.filter (fun other => other.id == row.id) ≠ [] :=
    List.ne_nil_of_mem (List.mem_filter.mpr ⟨hrow, beq_self_eq_true row.id⟩)
  obtain ⟨last, hlast⟩ := Option.isSome_iff_exists.mp (List.getLast?_isSome.mpr hne)
  have hmem : last ∈ (batch.foldl (fun rows row => storeRow row rows) rows).filter
      fun other => other.id == row.id := by
    rw [hset.last _ hid, hlast]
    exact List.mem_singleton_self last
  obtain ⟨hstored, heq⟩ := List.mem_filter.mp hmem
  exact beq_iff_eq.mp heq ▸ List.mem_map_of_mem hstored

/-- Rows are stored exactly if none of their ids is rejected. -/
theorem storeRows?_eq_if (rejected : List String) (batch rows : List StoredRow) :
    storeRows? rejected batch rows =
      if ∀ row ∈ batch, row.id ∉ rejected then
        some (batch.foldl (fun rows row => storeRow row rows) rows)
      else none := by
  split
  next haccepted => exact storeRows?_of_accepted haccepted rows
  next hrejected =>
    induction batch generalizing rows with
    | nil => exact absurd (fun row hrow => absurd hrow List.not_mem_nil) hrejected
    | cons row rest ih =>
        rw [storeRows?, List.foldlM_cons]
        by_cases hrow : row.id ∈ rejected
        · rw [if_pos (List.contains_iff_mem.mpr hrow)]
          rfl
        · rw [if_neg (mt List.contains_iff_mem.mp hrow)]
          refine ih (storeRow row rows) fun hrest => hrejected ?_
          exact List.forall_mem_cons.mpr ⟨hrow, hrest⟩

end Table

/-! ## Stores -/

namespace Store

/-- Whether a store can take a row with this id; a database needs its table. -/
def takes (id : String) : Store → Bool
  | memory _ => true
  | database db => db.isReady && !db.rejected.contains id

/-- The store without the rows of these ids. -/
def without (ids : List String) : Store → Store
  | memory rows => .memory (rows.filter fun row => row.id ∉ ids)
  | database db => withRows db (db.rows.filter fun row => row.id ∉ ids)

/-- The store after the rows of a batch have been set, one after the other. -/
def setAll (batch : List Feedback) : Store → Store
  | memory rows => .memory (rows.restoreAll batch)
  | database db =>
    withRows db ((batch.map StoredRow.ofFeedback).foldl (fun rows row => storeRow row rows) db.rows)

/--
A batch has been set: ids are distinct, of every id in the batch the store shows one
row, the last one of the batch, and apart from these ids the store is what it was.
-/
structure HoldsBatch (batch : List Feedback) (before after : Store) : Prop where
  distinct : after.ids.Nodup
  last : ∀ key ∈ batch.map Feedback.id, after.shown.filter (fun row => row.id == key) =
    (batch.filter fun row => row.id == key).getLast?.toList
  others : after.without (batch.map Feedback.id) = before.without (batch.map Feedback.id)

/--
A call sets a batch or leaves the store as it was: if it admits every row, it answers
how many there are and would change nothing if it were repeated, else it fails.
-/
structure SetsAllOrNone (call : Store → Except StoreError Nat × Store)
    (admits : Feedback → Prop) (batch : List Feedback) (store : Store) : Prop where
  all : (∀ row ∈ batch, admits row) →
    ∃ after, call store = (.ok batch.length, after) ∧ HoldsBatch batch store after ∧
      call after = (.ok batch.length, after)
  none : (¬ ∀ row ∈ batch, admits row) → ∃ error, call store = (.error error, store)

variable {store : Store} {batch : List Feedback}

/-- Setting several rows sets them all if the store can take each of them. -/
theorem restoreAll_eq_if (batch : List Feedback) (store : Store) :
    store.restoreAll batch =
      if ∀ row ∈ batch, store.takes row.id = true then (.ok batch.length, store.setAll batch)
      else (.error .refused, store) := by
  cases store with
  | memory rows => exact (if_pos fun _ _ => rfl).symm
  | database db =>
      have hids : (∀ row ∈ batch.map StoredRow.ofFeedback, row.id ∉ db.rejected) ↔
          ∀ row ∈ batch, row.id ∉ db.rejected := List.forall_mem_map
      rw [restoreAll_database, storeRows?_eq_if, if_congr hids rfl rfl]
      cases hready : db.isReady with
      | true =>
          have htakes : (∀ row ∈ batch, (database db).takes row.id = true) ↔
              ∀ row ∈ batch, row.id ∉ db.rejected := by
            simp [takes, hready]
          rw [if_congr htakes rfl rfl, Bool.true_or, if_pos rfl]
          by_cases hall : ∀ row ∈ batch, row.id ∉ db.rejected
          · rw [if_pos hall, if_pos hall]
            rfl
          · rw [if_neg hall, if_neg hall]
      | false =>
          have htakes : ∀ id, (database db).takes id = false := by
            simp [takes, hready]
          cases batch with
          | nil => rfl
          | cons row rest =>
              have hnot : ¬ ∀ other ∈ row :: rest, (database db).takes other.id = true := by
                intro hall
                exact absurd (htakes row.id) (by rw [hall row List.mem_cons_self]; decide)
              rw [if_neg hnot]
              rfl

/-- Importing several rows sets them all if each has its keys and the store can take it. -/
theorem importAll_eq_if (batch : List Feedback) (store : Store) :
    store.importAll batch =
      if ∀ row ∈ batch, hasKeys row = true then store.restoreAll batch
      else (.error .blankKey, store) := by
  rw [importAll, if_congr List.all_eq_true rfl rfl]

/-- Setting rows does not change which rows a store can take. -/
theorem takes_setAll (id : String) (batch : List Feedback) (store : Store) :
    (store.setAll batch).takes id = store.takes id := by
  cases store <;> rfl

/-- What is shown of some ids is what is stored under them. -/
theorem filter_shown_database (db : Database) (key : String) :
    (database db).shown.filter (fun row => row.id == key) =
      (db.rows.filter fun stored => stored.id == key).map StoredRow.toFeedback := by
  rw [shown, List.filter_map]
  rfl

/-- Setting the rows of a batch one after the other sets the batch. -/
theorem holdsBatch_setAll (hdistinct : store.ids.Nodup)
    (hstorable : ∀ row ∈ batch, row.IsStorable) : HoldsBatch batch store (store.setAll batch) := by
  cases store with
  | memory rows =>
      have hset := RowList.setsBatch_restoreAll batch rows
      exact ⟨hset.distinct hdistinct, hset.last, congrArg Store.memory hset.others⟩
  | database db =>
      have hset := setsBatch_foldl_storeRow (batch.map StoredRow.ofFeedback) hdistinct
      have hids : (batch.map StoredRow.ofFeedback).map StoredRow.id = batch.map Feedback.id :=
        List.map_map
      refine ⟨hset.distinct hdistinct, fun key hkey => ?_, ?_⟩
      · -- The rows of an id in the batch are stored and read back.
        have hlast := hset.last key (hids ▸ hkey)
        have hread : ∀ row ∈ (batch.filter fun row => row.id == key).getLast?,
            (StoredRow.ofFeedback row).toFeedback = row := by
          intro row hrow
          exact hstorable row (List.mem_of_mem_filter (List.mem_of_mem_getLast? hrow))
        rw [setAll, withRows, filter_shown_database, hlast, List.filter_map, List.getLast?_map,
          ← Option.toList_map, Option.map_map]
        congr 1
        exact (Option.map_congr hread).trans Option.map_id'
      · have hothers := hset.others
        rw [hids] at hothers
        rw [setAll, withRows, without, without, hothers]
        rfl

/-- Setting a batch once more changes nothing. -/
theorem setAll_setAll (batch : List Feedback) (hdistinct : store.ids.Nodup) :
    (store.setAll batch).setAll batch = store.setAll batch := by
  cases store with
  | memory rows => exact congrArg Store.memory (RowList.restoreAll_restoreAll batch rows)
  | database db =>
      have hagain := foldl_storeRow_foldl_storeRow (batch.map StoredRow.ofFeedback) hdistinct
      exact congrArg (withRows db) hagain

/-- Restoring fails without a trace exactly if the store cannot take some row. -/
theorem setsAllOrNone_restoreAll (hdistinct : store.ids.Nodup)
    (hstorable : ∀ row ∈ batch, row.IsStorable) :
    SetsAllOrNone (restoreAll batch) (fun row => store.takes row.id = true) batch store where
  all htakes := by
    have htakes' : ∀ row ∈ batch, (store.setAll batch).takes row.id = true := fun row hrow =>
      (takes_setAll row.id batch store).trans (htakes row hrow)
    refine ⟨store.setAll batch, ?_, holdsBatch_setAll hdistinct hstorable, ?_⟩
    · rw [restoreAll_eq_if, if_pos htakes]
    · rw [restoreAll_eq_if, if_pos htakes', setAll_setAll batch hdistinct]
  none hnot := ⟨.refused, by rw [restoreAll_eq_if, if_neg hnot]⟩

/-- A call with a guard in front of it admits only rows that pass the guard. -/
theorem SetsAllOrNone.guarded {call guarded : Store → Except StoreError Nat × Store}
    {admits passes : Feedback → Prop} [∀ row, Decidable (passes row)] {error : StoreError}
    (hguard : ∀ store, guarded store =
      if ∀ row ∈ batch, passes row then call store else (.error error, store))
    (h : SetsAllOrNone call admits batch store) :
    SetsAllOrNone guarded (fun row => passes row ∧ admits row) batch store where
  all hadmits := by
    have hpasses : ∀ row ∈ batch, passes row := fun row hrow => (hadmits row hrow).1
    obtain ⟨after, hcall, hholds, hagain⟩ := h.all fun row hrow => (hadmits row hrow).2
    refine ⟨after, ?_, hholds, ?_⟩
    · rw [hguard, if_pos hpasses, hcall]
    · rw [hguard, if_pos hpasses, hagain]
  none hnot := by
    rw [hguard]
    split
    next hpasses =>
      exact h.none fun hadmits => hnot fun row hrow => ⟨hpasses row hrow, hadmits row hrow⟩
    next => exact ⟨error, rfl⟩

/--
Batches are set as a whole: restoring fails without a trace exactly if the store cannot
take some row, importing also if some row lacks its id or its user.
-/
theorem setsAllOrNone (store : Store) (batch : List Feedback) (hdistinct : store.ids.Nodup)
    (hbatch : ∀ row ∈ batch, Json.IsParsed row ∧ row.IsStable) :
    SetsAllOrNone (restoreAll batch) (fun row => store.takes row.id = true) batch store ∧
      SetsAllOrNone (importAll batch)
        (fun row => hasKeys row = true ∧ store.takes row.id = true) batch store := by
  have hstorable : ∀ row ∈ batch, row.IsStorable := fun row hrow =>
    Feedback.isStorable_of_isParsed (hbatch row hrow).1 (hbatch row hrow).2
  have hrestore := setsAllOrNone_restoreAll hdistinct hstorable
  exact ⟨hrestore, hrestore.guarded (importAll_eq_if batch)⟩

/-- Of two rows with one id the last remains, and a rejected id keeps all rows out. -/
theorem setsAllOrNone_overlap :
    let row (id kind : String) : Feedback := ⟨id, "ann", 0, kind, none, none, none, 1, 1⟩
    let store : Store := .database
      { (Database.empty.migrate 0).2 with
        rows := [.ofFeedback (row "a" "rating"), .ofFeedback (row "b" "rating")]
        rejected := ["x"] }
    let batch := [row "a" "comment", row "c" "rating", row "a" "note"]
    (∃ after, store.restoreAll batch = (.ok 3, after) ∧
      after.shown.filter (fun row => row.id == "a") = [row "a" "note"] ∧
      after.without ["a", "c", "a"] = store.without ["a", "c", "a"] ∧
      after.restoreAll batch = (.ok 3, after)) ∧
      ∃ error, store.importAll (batch ++ [row "x" "rating"]) = (.error error, store) := by
  intro row store batch
  have hrow : ∀ id kind, Json.IsParsed (row id kind) ∧ (row id kind).IsStable := by
    intro id kind
    have hcontents : ∀ value ∈ (row id kind).contents, value.IsContent 0 := fun _ hvalue =>
      absurd hvalue List.not_mem_nil
    exact ⟨⟨1, by decide, _, Feedback.decode_encode hcontents⟩, fun _ hvalue =>
      absurd hvalue List.not_mem_nil⟩
  have hbatch : ∀ other ∈ batch, Json.IsParsed other ∧ other.IsStable := by
    simp [batch, hrow]
  have hdistinct : store.ids.Nodup := (by decide : ["a", "b"].Nodup)
  constructor
  · have htakes : ∀ other ∈ batch, store.takes other.id = true := by
      simp only [batch, List.forall_mem_cons]
      exact ⟨rfl, rfl, rfl, by simp⟩
    obtain ⟨after, hafter, hholds, hagain⟩ :=
      (setsAllOrNone store batch hdistinct hbatch).1.all htakes
    exact ⟨after, hafter, hholds.last "a" (by decide), hholds.others, hagain⟩
  · have hlonger : ∀ other ∈ batch ++ [row "x" "rating"],
        Json.IsParsed other ∧ other.IsStable := by
      simp [batch, hrow]
    refine (setsAllOrNone store _ hdistinct hlonger).2.none fun hadmits => ?_
    exact absurd (hadmits (row "x" "rating") (by simp)).2 (by decide)

end Store

end FeedbackBoard
