import FeedbackBoard.Proofs.Database.StoredRows
import FeedbackBoard.Proofs.Database.StoredTrees
import FeedbackBoard.Proofs.Store.Operations
import FeedbackBoard.Proofs.Store.SortKeys

/-!
# Pages of memory and of a database

Rows with distinct ids can be loaded into memory and into a database, in any
order.  Both show pages of the same rows, each in its own order: memory compares
keys, the database compares cells, and rows of a database have been read back.
Both therefore show the same pages exactly if reading back changes no row and
keys are compared as cells are.  They are for rows with plain keys; containers,
minus zero and integers past `2 ^ 53` are compared otherwise.

Main definitions:

- `Feedback.compareKey`, `Feedback.compareCell`: how either kind of store compares rows.
- `StoredRow.compareCell`: how a database compares any rows.
- `Json.Value.IsPlain`, `Feedback.HasPlainKey`: keys that both compare alike.

Main results:

- `Store.page_of_isSome`, `Store.page_of_none`: a database shows pages exactly of rows that all
  have a cell.
- `Store.page_memory`, `Store.page_database`: the pages of both.
- `Store.pages_agree_iff`: when both show the same pages.
- `Store.page_eq_of_hasPlainKey`: they do for rows with plain keys.
-/

namespace FeedbackBoard

open Json (Value)

/-! ## Loading -/

/-- Adding fresh rows one after the other appends them. -/
theorem foldl_eq_append {ρ : Type} {id : ρ → String} {add : List ρ → ρ → List ρ}
    (hadd : ∀ rows row, id row ∉ rows.map id → add rows row = rows ++ [row]) {batch : List ρ} :
    ∀ {rows : List ρ}, DistinctIds id (rows ++ batch) → batch.foldl add rows = rows ++ batch := by
  induction batch with
  | nil => exact fun {rows} _ => (List.append_nil rows).symm
  | cons row rest ih =>
      intro rows h
      have hfresh : id row ∉ rows.map id := by
        rw [DistinctIds, List.map_append, List.nodup_append] at h
        intro hmem
        exact h.2.2 (id row) hmem (id row) (List.mem_map_of_mem List.mem_cons_self) rfl
      rw [List.append_cons] at h
      rw [List.foldl_cons, hadd rows row hfresh, ih h, ← List.append_cons]

namespace Store

variable {rows : List Feedback}

/-- Rows with distinct ids are loaded into memory as they are. -/
theorem restoreAll_emptyMemory (h : DistinctIds Feedback.id rows) :
    emptyMemory.restoreAll rows = (.ok rows.length, .memory rows) := by
  have hloaded : rows.foldl RowList.restore [] = rows :=
    foldl_eq_append (fun _ _ hfresh => RowList.restore_eq_append hfresh) h
  rw [emptyMemory, restoreAll, RowList.restoreAll, hloaded]

/-- Rows with distinct ids are loaded into a fresh database in their stored forms. -/
theorem restoreAll_emptyDatabase (h : DistinctIds Feedback.id rows) (now : Int64) :
    ∃ db : Database, (emptyDatabase now).restoreAll rows = (.ok rows.length, .database db) ∧
      db.isReady = true ∧ db.rows = rows.map StoredRow.ofFeedback := by
  obtain ⟨db, hdb, hready, haccepting, hrows⟩ := exists_emptyDatabase now
  have hdistinct : DistinctIds StoredRow.id (rows.map StoredRow.ofFeedback) := by
    rw [DistinctIds, List.map_map]
    exact h
  have hloaded : (rows.map StoredRow.ofFeedback).foldl (fun stored row => storeRow row stored) [] =
      rows.map StoredRow.ofFeedback :=
    foldl_eq_append (fun _ _ hfresh => storeRow_eq_append hfresh) hdistinct
  have hstored : storeRows? db.rejected (rows.map StoredRow.ofFeedback) db.rows =
      some (rows.map StoredRow.ofFeedback) := by
    rw [haccepting, storeRows?_nil_rejected, hrows, hloaded]
  refine ⟨{ db with rows := rows.map StoredRow.ofFeedback }, ?_, hready, rfl⟩
  rw [hdb, restoreAll_database, hready, Bool.true_or, if_pos rfl, hstored]
  rfl

end Store

/-! ## Pages -/

namespace Feedback

/-- How rows in memory are compared. -/
def compareKey (field : SortField) (a b : Feedback) : Ordering :=
  (SortKey.ofRow field a).compare (SortKey.ofRow field b)

/-- How rows of a database are compared. -/
def compareCell (field : SortField) (a b : Feedback) : Ordering :=
  (a.pageCell field).compare (b.pageCell field)

instance (field : SortField) : Std.TransCmp (compareKey field) :=
  transCmp_on (SortKey.ofRow field) SortKey.compare

instance (field : SortField) : Std.TransCmp (compareCell field) :=
  transCmp_on (pageCell field) Cell.compare

end Feedback

/-- The rows of a page, if rows are compared in this way. -/
def PageQuery.select (query : PageQuery) (cmp : Feedback → Feedback → Ordering)
    (rows : List Feedback) : List Feedback :=
  pageSlice query
    (rows.mergeSort fun a b => (query.direction.order cmp Feedback.id a b).isLE)

namespace PageQuery

variable {query : PageQuery} {cmp : Feedback → Feedback → Ordering} {rows other : List Feedback}

theorem mem_of_mem_select {row : Feedback} (h : row ∈ query.select cmp rows) : row ∈ rows :=
  List.mem_mergeSort.mp (List.mem_of_mem_drop (List.mem_of_mem_take h))

/-- How many rows a page has does not depend on how they are compared. -/
theorem length_select : (query.select cmp rows).length =
    min query.limit.toNat (rows.length - query.skip.toNat) := by
  rw [select, pageSlice, List.length_take, List.length_drop, List.length_mergeSort]

/-- A page does not depend on how the rows came. -/
theorem select_eq_of_perm [Std.TransCmp cmp] (h : DistinctIds Feedback.id rows)
    (hperm : rows.Perm other) : query.select cmp rows = query.select cmp other := by
  rw [select, select, Direction.sorted_eq_of_perm h hperm]

/-- A page of as many rows as there are shows all of them. -/
theorem pageSlice_all {α : Type} (field : SortField) (direction : Direction) {n : Nat}
    {l : List α} (h : l.length = n) : pageSlice ⟨field, direction, 0, n⟩ l = l := by
  rw [pageSlice, Int.toNat_zero, List.drop_zero, Int.toNat_natCast]
  exact List.take_of_length_le (Nat.le_of_eq h)

/-- The page of all rows. -/
theorem select_all (field : SortField) (direction : Direction) :
    select ⟨field, direction, 0, rows.length⟩ cmp rows =
      rows.mergeSort fun a b => (direction.order cmp Feedback.id a b).isLE :=
  pageSlice_all field direction (List.length_mergeSort _)

end PageQuery

/-- A function that answers for every member answers for the list. -/
theorem mapM_eq_some {α β : Type} {f : α → Option β} {g : α → β} {l : List α}
    (h : ∀ a ∈ l, f a = some (g a)) : l.mapM f = some (l.map g) := by
  induction l with
  | nil => rfl
  | cons a rest ih =>
      rw [List.mapM_cons, h a List.mem_cons_self, ih fun b hb => h b (List.mem_cons_of_mem a hb)]
      rfl

/-- A function fails for a list exactly if it fails for a member. -/
theorem mapM_eq_none_iff {α β : Type} {f : α → Option β} {l : List α} :
    l.mapM f = none ↔ ∃ a ∈ l, f a = none := by
  induction l with
  | nil =>
      constructor
      · intro h
        cases h
      · rintro ⟨a, ha, -⟩
        cases ha
  | cons a rest ih =>
      simp only [List.mapM_cons, List.mem_cons, exists_eq_or_imp, ← ih]
      cases f a with
      | none => exact iff_of_true rfl (Or.inl rfl)
      | some b => cases rest.mapM f <;> simp

/-- The results for a list are those of its elements. -/
theorem mem_mapM_iff {α β : Type} {f : α → Option β} {l : List α} {results : List β}
    (h : l.mapM f = some results) (b : β) : b ∈ results ↔ ∃ a ∈ l, f a = some b := by
  induction l generalizing results with
  | nil =>
      cases h
      simp
  | cons a rest ih =>
      rw [List.mapM_cons] at h
      cases ha : f a with
      | none => simp [ha] at h
      | some first =>
          cases hrest : rest.mapM f with
          | none => simp [ha, hrest] at h
          | some others =>
              simp only [ha, hrest, Option.bind_eq_bind, Option.bind_some, Option.pure_def,
                Option.some.injEq] at h
              subst h
              simp [ha, ih hrest, eq_comm]

namespace StoredRow

/-- What the database orders a row by, where it can be computed. -/
def pageCell (field : SortField) (row : StoredRow) : Cell :=
  (row.pageCell? field).getD .null

/-- How the database compares rows. -/
def compareCell (field : SortField) (a b : StoredRow) : Ordering :=
  (a.pageCell field).compare (b.pageCell field)

instance (field : SortField) : Std.TransCmp (compareCell field) :=
  transCmp_on (pageCell field) Cell.compare

/-- Rows with cells can be ordered. -/
theorem pageRows?_of_isSome {field : SortField} {rows : List StoredRow}
    (h : ∀ row ∈ rows, (row.pageCell? field).isSome) (direction : Direction) :
    pageRows? field direction rows =
      some (rows.mergeSort fun a b => (direction.order (compareCell field) id a b).isLE) := by
  have hkeyed : (rows.mapM fun row => (row.pageCell? field).map (·, row)) =
      some (rows.map fun row => (row.pageCell field, row)) := by
    refine mapM_eq_some fun row hrow => ?_
    rw [pageCell, ← Option.some_get (h row hrow)]
    rfl
  have hsort := List.map_mergeSort (f := fun row : StoredRow => (row.pageCell field, row))
    (s := fun a b => (pageOrder direction a b).isLE) (l := rows)
    (r := fun a b => (direction.order (compareCell field) id a b).isLE) fun _ _ _ _ => rfl
  rw [pageRows?, hkeyed]
  simp only [← hsort, List.map_map]
  exact congrArg some (List.map_id' _)

/-- A row without a cell keeps all rows from being ordered. -/
theorem pageRows?_of_none {field : SortField} {rows : List StoredRow} {row : StoredRow}
    (hrow : row ∈ rows) (h : row.pageCell? field = none) (direction : Direction) :
    pageRows? field direction rows = none := by
  rw [pageRows?, mapM_eq_none_iff.mpr ⟨row, hrow, by rw [h]; rfl⟩]

section Stored

variable {rows : List Feedback}
  (hdepth : ∀ row ∈ rows, ∀ value ∈ row.data, value.depth ≤ JsonTree.levelLimit)
include hdepth

/-- Every row that has been stored has a cell. -/
theorem isSome_pageCell?_ofFeedback (field : SortField) :
    ∀ stored ∈ rows.map ofFeedback, (stored.pageCell? field).isSome := by
  intro stored hstored
  obtain ⟨row, hrow, rfl⟩ := List.mem_map.mp hstored
  rw [pageCell?_ofFeedback (hdepth row hrow) field]
  rfl

/-- Rows that have been stored are ordered as the rows are. -/
theorem sorted_map_ofFeedback (field : SortField) (direction : Direction) :
    ((rows.map ofFeedback).mergeSort fun a b =>
        (direction.order (compareCell field) id a b).isLE) =
      (rows.mergeSort fun a b =>
        (direction.order (Feedback.compareCell field) Feedback.id a b).isLE).map ofFeedback := by
  refine (List.map_mergeSort fun a ha b hb => ?_).symm
  rw [Direction.order, Direction.order, compareCell, pageCell, pageCell,
    pageCell?_ofFeedback (hdepth a ha) field, pageCell?_ofFeedback (hdepth b hb) field]
  rfl

end Stored

end StoredRow

namespace Store

variable {rows other : List Feedback}

/-- A page of rows in memory. -/
theorem page_memory (rows : RowList) (query : PageQuery) :
    (Store.memory rows).page query =
      .ok { items := query.select (Feedback.compareKey query.field) rows, total := rows.length } :=
  rfl

/-- A page of rows in a database that all have cells. -/
theorem page_of_isSome {db : Database} (hready : db.isReady = true) {query : PageQuery}
    (hcells : ∀ row ∈ db.rows, (row.pageCell? query.field).isSome) :
    (Store.database db).page query =
      .ok
        { items := (pageSlice query (db.rows.mergeSort fun a b =>
            (query.direction.order (StoredRow.compareCell query.field) StoredRow.id a b).isLE)).map
              StoredRow.toFeedback
          total := db.rows.length } := by
  have hselected : (Query.page query).onRows? db.rows = some (pageSlice query
      (db.rows.mergeSort fun a b =>
        (query.direction.order (StoredRow.compareCell query.field) StoredRow.id a b).isLE)) := by
    rw [Query.onRows?]
    split
    next hlimit =>
      rw [pageSlice, Int.toNat_of_nonpos hlimit, List.take_zero]
      rfl
    next =>
      rw [StoredRow.pageRows?_of_isSome hcells]
      rfl
  rw [page, answerOf, Call.page, Call.run, Query.answer?, if_pos hready, Query.onRows?]
  simp only [Call.run, Query.answer?, hready, hselected]
  rfl

/-- A row without a cell keeps every page from being shown that might have rows. -/
theorem page_of_none {db : Database} (hready : db.isReady = true) {query : PageQuery}
    {row : StoredRow} (hrow : row ∈ db.rows) (h : row.pageCell? query.field = none)
    (hlimit : 0 < query.limit) : (Store.database db).page query = .error .refused := by
  have hrefused : (Query.page query).onRows? db.rows = none := by
    rw [Query.onRows?, if_neg (Int.not_le.mpr hlimit), StoredRow.pageRows?_of_none hrow h]
  rw [page, answerOf, Call.page, Call.run, Query.answer?, if_pos hready, Query.onRows?]
  simp only [Call.run, Query.answer?, hready, hrefused]
  rfl

/-- A page of rows in a database, which are shown as they are read back. -/
theorem page_database {db : Database} (hready : db.isReady = true)
    (hrows : db.rows = rows.map StoredRow.ofFeedback)
    (hread : ∀ row ∈ rows, ∀ value ∈ row.contents, value.IsContent Json.levelLimit)
    (query : PageQuery) :
    (Store.database db).page query =
      .ok
        { items := (query.select (Feedback.compareCell query.field) rows).map Feedback.reread
          total := rows.length } := by
  have hdepth : ∀ row ∈ rows, ∀ value ∈ row.data, value.depth ≤ JsonTree.levelLimit := by
    intro row hrow value hvalue
    have hcontent := (Feedback.forall_contents.mp (hread row hrow)).1 value hvalue
    exact hcontent.depth_le.trans (by decide)
  have hreread : ((query.select (Feedback.compareCell query.field) rows).map
      StoredRow.ofFeedback).map StoredRow.toFeedback =
        (query.select (Feedback.compareCell query.field) rows).map Feedback.reread := by
    rw [List.map_map]
    apply List.map_congr_left
    intro row hrow
    exact StoredRow.toFeedback_ofFeedback (hread row (PageQuery.mem_of_mem_select hrow))
  have hcells : ∀ row ∈ db.rows, (row.pageCell? query.field).isSome := by
    rw [hrows]
    exact StoredRow.isSome_pageCell?_ofFeedback hdepth query.field
  rw [page_of_isSome hready hcells, hrows, StoredRow.sorted_map_ofFeedback hdepth,
    List.length_map, ← hreread, PageQuery.select]
  simp only [pageSlice, List.map_take, List.map_drop]

/--
Pages of rows that have been read back are pages of the rows themselves exactly if
reading back changes no row and rows are compared alike.
-/
theorem select_reread_iff (field : SortField) (hdistinct : DistinctIds Feedback.id rows) :
    (∀ query : PageQuery, query.field = field →
        query.select (Feedback.compareKey field) rows =
          (query.select (Feedback.compareCell field) rows).map Feedback.reread) ↔
      (∀ row ∈ rows, row.reread = row) ∧
        ∀ a ∈ rows, ∀ b ∈ rows, Feedback.compareKey field a b = Feedback.compareCell field a b := by
  rw [← Direction.sorted_eq_iff hdistinct]
  constructor
  · intro hpages
    have hsorted : ∀ direction : Direction,
        (rows.mergeSort fun a b =>
            (direction.order (Feedback.compareKey field) Feedback.id a b).isLE) =
          (rows.mergeSort fun a b =>
            (direction.order (Feedback.compareCell field) Feedback.id a b).isLE).map
              Feedback.reread := by
      intro direction
      have hall := hpages ⟨field, direction, 0, rows.length⟩ rfl
      rwa [PageQuery.select_all, PageQuery.select_all] at hall
    -- A row in memory is some row that has been read back, and by its id it is the same row.
    have hstable : ∀ row ∈ rows, row.reread = row := by
      intro row hrow
      have hshown : row ∈ (rows.mergeSort fun a b =>
          (Direction.ascending.order (Feedback.compareCell field) Feedback.id a b).isLE).map
            Feedback.reread := by
        rw [← hsorted .ascending]
        exact List.mem_mergeSort.mpr hrow
      obtain ⟨origin, horigin, hreread⟩ := List.mem_map.mp hshown
      have hid : origin.reread.id = row.id := congrArg Feedback.id hreread
      have hsame : origin = row := hdistinct.eq_of_id_eq (List.mem_mergeSort.mp horigin) hrow hid
      rwa [hsame] at hreread
    refine ⟨hstable, fun direction => ?_⟩
    rw [hsorted direction]
    conv => rhs; rw [← List.map_id' (List.mergeSort _ _)]
    exact List.map_congr_left fun row hrow => hstable row (List.mem_mergeSort.mp hrow)
  · rintro ⟨hstable, hsorted⟩ query rfl
    have hkept : (query.select (Feedback.compareCell query.field) rows).map Feedback.reread =
        query.select (Feedback.compareCell query.field) rows := by
      conv => rhs; rw [← List.map_id' (PageQuery.select _ _ _)]
      exact List.map_congr_left fun row hrow => hstable row (PageQuery.mem_of_mem_select hrow)
    rw [hkept, PageQuery.select, PageQuery.select, hsorted query.direction]

section Loaded

variable (hdistinct : DistinctIds Feedback.id rows) (hother : other.Perm rows)
  (hread : ∀ row ∈ rows, ∀ value ∈ row.contents, value.IsContent Json.levelLimit)
  (migrated : Int64)
include hdistinct

/-- A page of rows that were loaded into memory. -/
theorem page_loadedMemory (query : PageQuery) :
    (emptyMemory.restoreAll rows).2.page query =
      .ok
        { items := query.select (Feedback.compareKey query.field) rows
          total := rows.length } := by
  rw [restoreAll_emptyMemory hdistinct]
  exact page_memory rows query

include hother hread

/-- A page of rows that were loaded into a database, in any order. -/
theorem page_loadedDatabase (query : PageQuery) :
    ((emptyDatabase migrated).restoreAll other).2.page query =
      .ok
        { items := (query.select (Feedback.compareCell query.field) rows).map Feedback.reread
          total := rows.length } := by
  obtain ⟨db, hdb, hready, hrows⟩ :=
    restoreAll_emptyDatabase (hdistinct.perm hother.symm) migrated
  rw [hdb, page_database hready hrows fun row hrow => hread row (hother.mem_iff.mp hrow),
    ← PageQuery.select_eq_of_perm hdistinct hother.symm, hother.length_eq]

/-- When memory and a database show the same pages in the order of a field. -/
theorem page_eq_iff (field : SortField) :
    (∀ query : PageQuery, query.field = field →
        (emptyMemory.restoreAll rows).2.page query =
          ((emptyDatabase migrated).restoreAll other).2.page query) ↔
      (∀ row ∈ rows, row.reread = row) ∧
        ∀ a ∈ rows, ∀ b ∈ rows, Feedback.compareKey field a b = Feedback.compareCell field a b := by
  rw [← select_reread_iff field hdistinct]
  refine forall_congr' fun query => forall_congr' fun hfield => ?_
  rw [page_loadedMemory hdistinct, page_loadedDatabase hdistinct hother hread, hfield,
    Except.ok.injEq, Page.mk.injEq]
  exact and_iff_left rfl

end Loaded

/--
Memory and a database that hold the same rows, loaded in any order, always show
pages of as many rows with the same total.  They show the same pages in the order of
a field exactly if no row changes when it is stored and read back and any two
rows are compared by their keys as they are by their cells.
-/
theorem pages_agree_iff (migrated : Int64) (field : SortField)
    (hdistinct : DistinctIds Feedback.id rows) (hother : other.Perm rows)
    (hread : ∀ row ∈ rows, ∀ value ∈ row.contents, value.IsContent Json.levelLimit) :
    let inMemory := (emptyMemory.restoreAll rows).2
    let inDatabase := ((emptyDatabase migrated).restoreAll other).2
    (∀ query, ∃ first second,
        inMemory.page query = .ok first ∧ inDatabase.page query = .ok second ∧
          first.total = rows.length ∧ second.total = rows.length ∧
            first.items.length = second.items.length) ∧
      ((∀ query : PageQuery, query.field = field →
          inMemory.page query = inDatabase.page query) ↔
        (∀ row ∈ rows, row.reread = row) ∧
          ∀ a ∈ rows, ∀ b ∈ rows,
            Feedback.compareKey field a b = Feedback.compareCell field a b) := by
  intro inMemory inDatabase
  refine ⟨fun query => ?_, page_eq_iff hdistinct hother hread migrated field⟩
  refine ⟨_, _, page_loadedMemory hdistinct query,
    page_loadedDatabase hdistinct hother hread migrated query, rfl, rfl, ?_⟩
  rw [List.length_map, PageQuery.length_select, PageQuery.length_select]

/--
Rows are shown alike if their models are texts; a container is shown elsewhere than a
number, and so are times past `2 ^ 53`.
-/
theorem pages_agree_iff_rating :
    let row (id : String) (key : String) (value : Value) (time : Int64) : Feedback :=
      { id := id
        userId := "u"
        version := 0
        kind := "rating"
        data := some (.object [(key, value)])
        info := none
        snapshot := none
        createdAt := time
        updatedAt := 0 }
    let Agree (field : SortField) (rows : List Feedback) : Prop :=
      ∀ query : PageQuery, query.field = field →
        (emptyMemory.restoreAll rows).2.page query =
          ((emptyDatabase 0).restoreAll rows).2.page query
    let one : Value := .number (.integer 1 (by decide) (by decide))
    Agree .model [row "a" "model_id" (.string "y") 0, row "b" "model_id" (.string "x") 0] ∧
      ¬ Agree .rating [row "a" "rating" (.array []) 0, row "b" "rating" one 0] ∧
      ¬ Agree .createdAt
        [row "a" "rating" one 9007199254740992, row "b" "rating" one 9007199254740993] := by
  intro row Agree one
  have hread : ∀ id key value time, value.Ordered → value.depth ≤ 1 →
      ∀ content ∈ (row id key value time).contents, content.IsContent Json.levelLimit := by
    intro id key value time hordered hdepth content hcontent
    rw [List.mem_singleton.mp hcontent]
    refine ⟨⟨List.pairwise_singleton _ _, hordered, trivial⟩, ?_, fun h => by cases h⟩
    have hobject : (Value.object [(key, value)]).depth = max value.depth 0 + 1 := rfl
    rw [hobject, Nat.max_zero]
    exact Nat.le_trans (Nat.succ_le_succ hdepth) (by decide)
  have hdecided : ∀ field first second, first.id ≠ second.id →
      (∀ content ∈ first.contents, content.IsContent Json.levelLimit) →
      (∀ content ∈ second.contents, content.IsContent Json.levelLimit) →
      (Agree field [first, second] ↔
        (∀ row ∈ [first, second], row.reread = row) ∧ ∀ a ∈ [first, second], ∀ b ∈ [first, second],
          Feedback.compareKey field a b = Feedback.compareCell field a b) := by
    intro field first second hid hfirst hsecond
    have hdistinct : DistinctIds Feedback.id [first, second] := by
      simp [DistinctIds, hid]
    have hcontents : ∀ row ∈ [first, second], ∀ content ∈ row.contents,
        content.IsContent Json.levelLimit := by
      simp only [List.forall_mem_cons]
      exact ⟨hfirst, hsecond, List.forall_mem_nil _⟩
    exact (pages_agree_iff 0 field hdistinct (List.Perm.refl _) hcontents).2
  have hmodel : ∀ id m, ∀ content ∈ (row id "model_id" (.string m) 0).contents,
      content.IsContent Json.levelLimit := fun id m => hread _ _ _ _ trivial (Nat.zero_le _)
  have hrating : ∀ id time, ∀ content ∈ (row id "rating" one time).contents,
      content.IsContent Json.levelLimit := fun id time => hread _ _ _ _ trivial (Nat.zero_le _)
  have harray : ∀ content ∈ (row "a" "rating" (.array []) 0).contents,
      content.IsContent Json.levelLimit := hread _ _ _ _ trivial (Nat.le_refl 1)
  refine ⟨?_, ?_, ?_⟩
  · rw [hdecided _ _ _ (by decide) (hmodel _ _) (hmodel _ _)]
    constructor
    · simp only [List.forall_mem_cons]
      exact ⟨rfl, rfl, List.forall_mem_nil _⟩
    · decide +kernel
  · rw [hdecided _ _ _ (by decide) harray (hrating _ _)]
    rintro ⟨_, hsame⟩
    revert hsame
    decide +kernel
  · rw [hdecided _ _ _ (by decide) (hrating _ _) (hrating _ _)]
    rintro ⟨_, hsame⟩
    revert hsame
    decide +kernel

end Store

/-! ## Plain keys -/

/-- The cell of an integer of the database. -/
theorem Cell.ofNumeral_integer {n : Int} (lower : -0x8000000000000000 ≤ n)
    (upper : n < 0x10000000000000000) (hfits : Cell.fitsInteger n = true) :
    Cell.ofNumeral (Json.Number.integer n lower upper).numeral = .integer n := by
  simp only [ofNumeral, Json.Number.numeral, Json.integerNumeral,
    Json.naturalOfDigits_decimalDigits, Json.signed_natAbs, hfits, Option.isNone_none,
    Bool.and_true, if_true]

namespace Json.Value

/-- Nothing, truth values, texts, and integers up to `2 ^ 53`. -/
def IsPlain : Value → Prop
  | .null | .bool _ | .string _ => True
  | .number (.integer n _ _) => n.natAbs ≤ 2 ^ 53
  | .number (.double _) | .array _ | .object _ => False

/-- The cell of a plain value shows its key. -/
theorem shownBy_cell {value : Value} (h : value.IsPlain) :
    (SortKey.ofValue (some value)).ShownBy value.cell := by
  match value with
  | .null => rfl
  | .string text => rfl
  | .bool true => exact SortKey.shownBy_integer (by decide)
  | .bool false => exact SortKey.shownBy_integer (by decide)
  | .number (.integer n lower upper) =>
      have hbound : n.natAbs ≤ 2 ^ 53 := h
      have hfits : Cell.fitsInteger n = true := by
        rw [Cell.fitsInteger, Bool.and_eq_true, decide_eq_true_iff, decide_eq_true_iff]
        omega
      rw [cell, Cell.ofNumeral_integer lower upper hfits]
      exact SortKey.shownBy_integer hbound

/-- Whatever the database takes for the member of a key has this key and a plain value. -/
def HasPlainMember (key : String) : Value → Prop
  | .object members => ∀ member ∈ members,
      (CodePoints.ofString member.1).beforeZero = CodePoints.ofString key →
        member.1 = key ∧ member.2.IsPlain
  | _ => True

/-- The cell of a plain member shows its key, and so does that of a missing one. -/
theorem shownBy_memberCell {key : String} {value : Value}
    (hkey : (CodePoints.ofString key).beforeZero = CodePoints.ofString key)
    (h : value.HasPlainMember key) :
    (SortKey.ofValue (value.member? key)).ShownBy (value.memberCell key) := by
  cases value with
  | null | bool _ | number _ | string _ | array _ => rfl
  | object members =>
      rw [member?, memberCell]
      induction members with
      | nil => rfl
      | cons member rest ih =>
          obtain ⟨name, item⟩ := member
          rw [lookup_entry, List.find?_cons]
          by_cases hname : (CodePoints.ofString name).beforeZero = CodePoints.ofString key
          · obtain ⟨heq, hplain⟩ := h (name, item) List.mem_cons_self hname
            rw [if_pos heq.symm, beq_iff_eq.mpr hname]
            exact shownBy_cell hplain
          · have hne : key ≠ name := by
              rintro rfl
              exact hname hkey
            rw [if_neg hne, beq_eq_false_iff_ne.mpr hname]
            exact ih fun other hother => h other (List.mem_cons_of_mem _ hother)

end Json.Value

namespace Feedback

/-- What a row is ordered by is plain. -/
def HasPlainKey (field : SortField) (row : Feedback) : Prop :=
  match field with
  | .model => ∀ value ∈ row.data, value.HasPlainMember "model_id"
  | .rating => ∀ value ∈ row.data, value.HasPlainMember "rating"
  | .createdAt => row.createdAt.toInt.natAbs ≤ 2 ^ 53
  | .updatedAt => row.updatedAt.toInt.natAbs ≤ 2 ^ 53

theorem shownBy_dataCell {key : String} {row : Feedback}
    (hkey : (CodePoints.ofString key).beforeZero = CodePoints.ofString key)
    (h : ∀ value ∈ row.data, value.HasPlainMember key) :
    (SortKey.ofValue (row.data.bind (·.member? key))).ShownBy
      ((row.data.map (Value.memberCell key)).getD .null) := by
  cases hdata : row.data with
  | none => rfl
  | some value => exact Value.shownBy_memberCell hkey (h value hdata)

/-- The cell of a row with a plain key shows the key. -/
theorem HasPlainKey.shownBy {field : SortField} {row : Feedback} (h : row.HasPlainKey field) :
    (SortKey.ofRow field row).ShownBy (row.pageCell field) := by
  cases field with
  | model => exact shownBy_dataCell (by decide) h
  | rating => exact shownBy_dataCell (by decide) h
  | createdAt => exact SortKey.shownBy_integer h
  | updatedAt => exact SortKey.shownBy_integer h

end Feedback

/-- Memory and a database that hold the same rows with plain keys show the same pages. -/
theorem Store.page_eq_of_hasPlainKey {rows other : List Feedback}
    (hdistinct : DistinctIds Feedback.id rows) (hother : other.Perm rows)
    (hread : ∀ row ∈ rows, ∀ value ∈ row.contents, value.IsContent Json.levelLimit)
    (hstable : ∀ row ∈ rows, row.IsStable) {query : PageQuery}
    (hplain : ∀ row ∈ rows, row.HasPlainKey query.field) (migrated : Int64) :
    (emptyMemory.restoreAll rows).2.page query =
      ((emptyDatabase migrated).restoreAll other).2.page query := by
  apply (page_eq_iff hdistinct hother hread migrated query.field).mpr _ query rfl
  refine ⟨fun row hrow => Feedback.reread_eq_self (hstable row hrow), fun a ha b hb => ?_⟩
  exact SortKey.ShownBy.compare_eq (hplain a ha).shownBy (hplain b hb).shownBy

end FeedbackBoard
