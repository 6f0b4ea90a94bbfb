import FeedbackBoard.Proofs.Reviews.Ranking
import FeedbackBoard.Proofs.Store.Pages
import FeedbackBoard.Proofs.Store.Shown

/-!
# Listings

Listings read rows without their conversations.  The conversation of a row is read from
the table together with the other columns, but it has no influence on what is listed, in
which order, or whether the listing fails; nor has the order in which the rows were added.

Main definitions:

- `SameRows`, `Store.HoldsSame`: the same rows, in whatever order they were added.
- `Store.withoutSnapshots`: a store without any conversations.
- `Store.Listings`, `Store.listings`: what listings read of a store.

Main results:

- `Store.listings_eq_of_holdsSame`: stores with the same rows have the same listings.
- `Store.listings_withoutSnapshots`: listings do not depend on conversations.
-/

namespace FeedbackBoard

/-! ## The same rows -/

/-- The same rows: in the same order, or in any order if every row has an id of its own. -/
def SameRows {ρ : Type} (id : ρ → String) (rows other : List ρ) : Prop :=
  rows = other ∨ (DistinctIds id rows ∧ rows.Perm other)

namespace SameRows

variable {ρ : Type} {id : ρ → String} {rows other : List ρ}

theorem perm (h : SameRows id rows other) : rows.Perm other := by
  rcases h with rfl | ⟨-, hperm⟩
  · exact List.Perm.refl rows
  · exact hperm

theorem filter (p : ρ → Bool) (h : SameRows id rows other) :
    SameRows id (rows.filter p) (other.filter p) := by
  rcases h with rfl | ⟨hdistinct, hperm⟩
  · exact Or.inl rfl
  · exact Or.inr ⟨hdistinct.filter p, hperm.filter p⟩

/-- The same rows are listed in the same order. -/
theorem newest_eq (time : ρ → Int) (h : SameRows id rows other) :
    (rows.mergeSort fun a b =>
        ((compare (time b) (time a)).then (compare (id a) (id b))).isLE) =
      other.mergeSort fun a b =>
        ((compare (time b) (time a)).then (compare (id a) (id b))).isLE := by
  rcases h with rfl | ⟨hdistinct, hperm⟩
  · rfl
  · exact hdistinct.newest_eq_of_perm time hperm

/-- The same rows are ordered alike for a page. -/
theorem sorted_eq (cmp : ρ → ρ → Ordering) [Std.TransCmp cmp] (direction : Direction)
    (h : SameRows id rows other) :
    (rows.mergeSort fun a b => (direction.order cmp id a b).isLE) =
      other.mergeSort fun a b => (direction.order cmp id a b).isLE := by
  rcases h with rfl | ⟨hdistinct, hperm⟩
  · rfl
  · exact Direction.sorted_eq_of_perm hdistinct hperm

end SameRows

/-- The same rows are listed alike. -/
theorem newestFirst_eq_of_sameRows {rows other : List Feedback}
    (h : SameRows Feedback.id rows other) : newestFirst rows = newestFirst other :=
  h.newest_eq fun row : Feedback => row.createdAt.toInt

/-- The same stored rows are listed alike. -/
theorem StoredRow.newestFirst_eq_of_sameRows {rows other : List StoredRow}
    (h : SameRows StoredRow.id rows other) : newestFirst rows = newestFirst other :=
  h.newest_eq fun row : StoredRow => row.createdAt.toInt

/-- Either all rows have something to be ordered by, or some row has not. -/
theorem StoredRow.cells_or_missing (field : SortField) (rows : List StoredRow) :
    (∀ row ∈ rows, (row.pageCell? field).isSome) ∨ ∃ row ∈ rows, row.pageCell? field = none := by
  by_contra hneither
  rw [not_or] at hneither
  obtain ⟨hcells, hmissing⟩ := hneither
  refine hcells fun row hrow => ?_
  rw [Option.isSome_iff_ne_none]
  exact fun hnone => hmissing ⟨row, hrow, hnone⟩

/-- Rows can be ordered for a page or not, whatever their order was before. -/
theorem StoredRow.pageRows?_eq_of_sameRows {rows other : List StoredRow}
    (h : SameRows StoredRow.id rows other) (field : SortField) (direction : Direction) :
    pageRows? field direction rows = pageRows? field direction other := by
  rcases cells_or_missing field rows with hcells | ⟨row, hrow, hmissing⟩
  · have hother : ∀ row ∈ other, (row.pageCell? field).isSome :=
      fun row hrow => hcells row (h.perm.mem_iff.mpr hrow)
    rw [pageRows?_of_isSome hcells, pageRows?_of_isSome hother,
      h.sorted_eq (compareCell field) direction]
  · rw [pageRows?_of_none hrow hmissing, pageRows?_of_none (h.perm.mem_iff.mp hrow) hmissing]

/-! ## Rows without conversations -/

/-- What a change to rows leaves alone is read alike after it, if it leaves their order alone. -/
theorem map_mergeSort_map {ρ β : Type} {change : ρ → ρ} {le : ρ → ρ → Bool} {f : ρ → β}
    (hle : ∀ a b, le (change a) (change b) = le a b) (hf : ∀ row, f (change row) = f row)
    (rows : List ρ) : ((rows.map change).mergeSort le).map f = (rows.mergeSort le).map f := by
  rw [← List.map_mergeSort fun a _ b _ => (hle a b).symm, List.map_map]
  exact List.map_congr_left fun row _ => hf row

/-- The row without its conversation. -/
def Feedback.withoutSnapshot (row : Feedback) : Feedback :=
  { row with snapshot := none }

/-- What does not depend on conversations can be read after they have been left out. -/
theorem map_newestFirst_withoutSnapshot {β : Type} {f : Feedback → β}
    (hf : ∀ row, f row.withoutSnapshot = f row) (rows : List Feedback) :
    (newestFirst (rows.map Feedback.withoutSnapshot)).map f = (newestFirst rows).map f := by
  refine map_mergeSort_map (fun a b => ?_) hf rows
  rfl

/-- Rows are ordered for a page without looking at their conversations. -/
theorem sorted_map_withoutSnapshot (field : SortField) (direction : Direction)
    (rows : List Feedback) :
    ((rows.map Feedback.withoutSnapshot).mergeSort fun a b =>
        (pageOrder field direction a b).isLE) =
      (rows.mergeSort fun a b => (pageOrder field direction a b).isLE).map
        Feedback.withoutSnapshot := by
  rw [List.map_mergeSort fun _ _ _ _ => ?_]
  rfl

namespace StoredRow

/-- The stored row without its conversation. -/
def withoutSnapshot (row : StoredRow) : StoredRow :=
  { row with snapshot := none }

/-- What does not depend on conversations can be read after they have been left out. -/
theorem map_newestFirst_withoutSnapshot {β : Type} {f : StoredRow → β}
    (hf : ∀ row, f row.withoutSnapshot = f row) (rows : List StoredRow) :
    (newestFirst (rows.map withoutSnapshot)).map f = (newestFirst rows).map f := by
  refine map_mergeSort_map (fun a b => ?_) hf rows
  rfl

/-- Stored rows are ordered for a page, or refused, without looking at their conversations. -/
theorem pageRows?_map_withoutSnapshot (field : SortField) (direction : Direction)
    (rows : List StoredRow) :
    pageRows? field direction (rows.map withoutSnapshot) =
      (pageRows? field direction rows).map fun sorted => sorted.map withoutSnapshot := by
  rcases cells_or_missing field rows with hcells | ⟨row, hrow, hmissing⟩
  · have hmapped : ∀ row ∈ rows.map withoutSnapshot, (row.pageCell? field).isSome := by
      intro row hrow
      obtain ⟨origin, horigin, rfl⟩ := List.mem_map.mp hrow
      exact hcells origin horigin
    rw [pageRows?_of_isSome hcells, pageRows?_of_isSome hmapped, Option.map_some,
      List.map_mergeSort fun _ _ _ _ => ?_]
    rfl
  · rw [pageRows?_of_none hrow hmissing,
      @pageRows?_of_none _ _ row.withoutSnapshot (List.mem_map_of_mem hrow) hmissing]
    rfl

/-- The rows of a page; none if a row cannot be ordered. -/
def pageOf? (query : PageQuery) (rows : List StoredRow) : Option (List StoredRow) :=
  if query.limit ≤ 0 then some []
  else (pageRows? query.field query.direction rows).map (pageSlice query)

/-- A page shows the same rows after conversations have been left out. -/
theorem pageOf?_map_withoutSnapshot (query : PageQuery) (rows : List StoredRow) :
    pageOf? query (rows.map withoutSnapshot) =
      (pageOf? query rows).map (List.map withoutSnapshot) := by
  rw [pageOf?, pageOf?, pageRows?_map_withoutSnapshot]
  split
  · rfl
  · cases pageRows? query.field query.direction rows with
    | none => rfl
    | some sorted =>
        simp only [Option.map_some, pageSlice, List.map_take, List.map_drop]

end StoredRow

namespace Store

/-! ## What listings read -/

/-- What listings read of a store. -/
structure Listings where
  all : Except StoreError (List Feedback.Outline)
  ofUser : String → Except StoreError (List Feedback.Outline)
  stamps : Except StoreError (List Feedback.Stamp)
  standings : Except StoreError (List Standing)
  page : PageQuery → Except StoreError (List Feedback.Outline × Nat)

/-- The rows of a page without their conversations, and how many rows there are. -/
def outlinePage (page : Page) : List Feedback.Outline × Nat :=
  (page.items.map Feedback.outline, page.total)

/-- What listings read of this store. -/
def listings (store : Store) : Listings where
  all := store.newest.map fun rows => rows.map Feedback.outline
  ofUser user := (store.newestOf user).map fun rows => rows.map Feedback.outline
  stamps := store.stamps
  standings := store.standings
  page query := (store.page query).map outlinePage

/-- A page of a database: how many rows there are, and the rows that the query gives. -/
theorem page_eq_match (db : Database) (query : PageQuery) :
    (Store.database db).page query =
      match if db.isReady then StoredRow.pageOf? query db.rows else none with
      | some rows => .ok { items := rows.map StoredRow.toFeedback, total := db.rows.length }
      | none => .error .refused := by
  have hrows : (Query.page query).onRows? db.rows = StoredRow.pageOf? query db.rows := by
    rw [Query.onRows?, StoredRow.pageOf?]
    cases StoredRow.pageRows? query.field query.direction db.rows <;> rfl
  rw [page, answerOf, Call.page, Call.run, Query.answer?]
  cases hready : db.isReady with
  | false => rfl
  | true =>
      simp only [Call.run, Query.answer?, hready, hrows, if_true]
      cases StoredRow.pageOf? query db.rows <;> rfl

/-! ## Stores with the same rows -/

/-- Stores of one kind that hold the same rows. -/
inductive HoldsSame : Store → Store → Prop
  | memory {rows other : RowList} (hrows : SameRows Feedback.id rows other) :
    HoldsSame (.memory rows) (.memory other)
  | database {db other : Database} (hready : db.isReady = other.isReady)
    (hrows : SameRows StoredRow.id db.rows other.rows) :
    HoldsSame (.database db) (.database other)

section Same

variable {rows other : RowList} {db odb : Database}

theorem listings_eq_of_memory (hrows : SameRows Feedback.id rows other) :
    (Store.memory rows).listings = (Store.memory other).listings := by
  have hnewest : newestFirst rows = newestFirst other := newestFirst_eq_of_sameRows hrows
  have hnewestOf : ∀ user : String, (Store.memory rows).newestOf user =
      (Store.memory other).newestOf user := fun user =>
    congrArg Except.ok (newestFirst_eq_of_sameRows (hrows.filter fun row => row.userId == user))
  have hstandings : (Store.memory rows).standings = (Store.memory other).standings :=
    congrArg Except.ok
      (leaderboard_eq_of_perm ((hrows.filter Feedback.isRating).perm.map Feedback.payload))
  have hpage : ∀ query, (Store.memory rows).page query = (Store.memory other).page query := by
    intro query
    rw [page_memory, page_memory, PageQuery.select, PageQuery.select,
      hrows.sorted_eq (Feedback.compareKey query.field) query.direction, hrows.perm.length_eq]
  simp only [listings, newest, stamps, RowList.newest, hnewest, hnewestOf, hstandings, hpage]

theorem listings_eq_of_database (hready : db.isReady = odb.isReady)
    (hrows : SameRows StoredRow.id db.rows odb.rows) :
    (Store.database db).listings = (Store.database odb).listings := by
  have hnewest : ∀ filter : RowFilter, StoredRow.newestFirst (db.rows.filter filter.accepts) =
      StoredRow.newestFirst (odb.rows.filter filter.accepts) := fun filter =>
    StoredRow.newestFirst_eq_of_sameRows (hrows.filter filter.accepts)
  have hstandings : (Store.database db).standings = (Store.database odb).standings := by
    rw [standings, standings, ratings_database, ratings_database, hready]
    cases odb.isReady with
    | false => rfl
    | true =>
        have hpayloads := (hrows.filter fun row => row.kind == Feedback.ratingKind).perm.map
          StoredRow.payload
        exact congrArg Except.ok (leaderboard_eq_of_perm hpayloads)
  have hpage : ∀ query, (Store.database db).page query = (Store.database odb).page query := by
    intro query
    rw [page_eq_match, page_eq_match, hready, StoredRow.pageOf?, StoredRow.pageOf?,
      StoredRow.pageRows?_eq_of_sameRows hrows, hrows.perm.length_eq]
  simp only [listings, newest_database, newestOf_database, answerOf_newest, stamps_database,
    hnewest, hready, hstandings, hpage]

end Same

/-- Stores with the same rows have the same listings. -/
theorem listings_eq_of_holdsSame {s t : Store} (h : s.HoldsSame t) : s.listings = t.listings := by
  cases h with
  | memory hrows => exact listings_eq_of_memory hrows
  | database hready hrows => exact listings_eq_of_database hready hrows

/-! ## Stores without conversations -/

/-- The store without any conversations. -/
def withoutSnapshots : Store → Store
  | memory rows => .memory (rows.map Feedback.withoutSnapshot)
  | database db => .database { db with rows := db.rows.map StoredRow.withoutSnapshot }

/-- The rows of a filter without their conversations, the newest first. -/
theorem map_outline_answerOf_newest (db : Database) (filter : RowFilter) :
    (answerOf (.newest filter) db).map (List.map Feedback.outline) =
      if db.isReady then
        .ok ((StoredRow.newestFirst (db.rows.filter filter.accepts)).map fun row =>
          row.toFeedback.outline)
      else .error .refused := by
  rw [answerOf_newest]
  cases db.isReady with
  | false => rfl
  | true => exact congrArg Except.ok List.map_map

/-- What listings read of rows in memory does not depend on conversations. -/
theorem listings_withoutSnapshots_memory (rows : RowList) :
    (Store.memory rows).withoutSnapshots.listings = (Store.memory rows).listings := by
  have hall : (newestFirst (rows.map Feedback.withoutSnapshot)).map Feedback.outline =
      (newestFirst rows).map Feedback.outline :=
    map_newestFirst_withoutSnapshot (fun _ => rfl) rows
  have hofUser : ∀ user : String,
      (RowList.newestOf (rows.map Feedback.withoutSnapshot) user).map Feedback.outline =
        (RowList.newestOf rows user).map Feedback.outline := by
    intro user
    rw [RowList.newestOf, List.filter_map]
    exact map_newestFirst_withoutSnapshot (fun _ => rfl) (rows.filter fun row => row.userId == user)
  have hstamps : (newestFirst (rows.map Feedback.withoutSnapshot)).map Feedback.stamp =
      (newestFirst rows).map Feedback.stamp :=
    map_newestFirst_withoutSnapshot (fun _ => rfl) rows
  have hratings : RowList.ratings (rows.map Feedback.withoutSnapshot) = RowList.ratings rows := by
    rw [RowList.ratings, List.filter_map, List.map_map]
    rfl
  have hpage : ∀ query : PageQuery,
      outlinePage (RowList.page (rows.map Feedback.withoutSnapshot) query) =
        outlinePage (RowList.page rows query) := by
    intro query
    rw [outlinePage, outlinePage, RowList.page, RowList.page, sorted_map_withoutSnapshot,
      pageSlice, pageSlice, ← List.map_drop, ← List.map_take, List.map_map, List.length_map]
    rfl
  simp only [withoutSnapshots, listings, newest, newestOf, stamps, standings, ratings, page,
    RowList.newest, Except.map, hall, hofUser, hstamps, hratings, hpage]

/-- What listings read of a database does not depend on conversations. -/
theorem listings_withoutSnapshots_database (db : Database) :
    (Store.database db).withoutSnapshots.listings = (Store.database db).listings := by
  have hfilter : ∀ filter : RowFilter,
      (db.rows.map StoredRow.withoutSnapshot).filter filter.accepts =
        (db.rows.filter filter.accepts).map StoredRow.withoutSnapshot := by
    intro filter
    rw [List.filter_map]
    cases filter <;> rfl
  have hnewest : ∀ filter : RowFilter,
      (answerOf (.newest filter) { db with rows := db.rows.map StoredRow.withoutSnapshot }).map
          (List.map Feedback.outline) =
        (answerOf (.newest filter) db).map (List.map Feedback.outline) := by
    intro filter
    rw [map_outline_answerOf_newest, map_outline_answerOf_newest, hfilter,
      StoredRow.map_newestFirst_withoutSnapshot fun _ => rfl]
    rfl
  have hstamps : (Store.database db).withoutSnapshots.stamps = (Store.database db).stamps := by
    rw [withoutSnapshots, stamps_database, stamps_database, hfilter,
      StoredRow.map_newestFirst_withoutSnapshot fun _ => rfl]
    rfl
  have hstandings :
      (Store.database db).withoutSnapshots.standings = (Store.database db).standings := by
    rw [withoutSnapshots, standings, standings, ratings_database, ratings_database,
      List.filter_map, List.map_map]
    rfl
  have hpage : ∀ query : PageQuery,
      ((Store.database db).withoutSnapshots.page query).map outlinePage =
        ((Store.database db).page query).map outlinePage := by
    intro query
    have hready : { db with rows := db.rows.map StoredRow.withoutSnapshot }.isReady = db.isReady :=
      rfl
    rw [withoutSnapshots, page_eq_match, page_eq_match, hready,
      StoredRow.pageOf?_map_withoutSnapshot]
    cases db.isReady with
    | false => rfl
    | true =>
        cases StoredRow.pageOf? query db.rows with
        | none => rfl
        | some rows =>
            simp only [if_true, Option.map_some, Except.map, outlinePage, List.map_map,
              List.length_map]
            rfl
  rw [listings, listings, newest_database, hstamps, hstandings]
  simp only [withoutSnapshots, newest_database, newestOf_database, hnewest] at hpage ⊢
  simp only [hpage]

/-- Listings do not depend on conversations. -/
theorem listings_withoutSnapshots (store : Store) :
    store.withoutSnapshots.listings = store.listings := by
  cases store with
  | memory rows => exact listings_withoutSnapshots_memory rows
  | database db => exact listings_withoutSnapshots_database db

end Store

end FeedbackBoard
