import FeedbackBoard.Proofs.Database.LenientTrees
import FeedbackBoard.Proofs.Store.Listings
import FeedbackBoard.Proofs.Store.PageComparison

/-!
# The order of pages

The pages of a store are the consecutive parts of one list of all rows.  The list is in
the order of the store's own keys, with rows of one key by ascending id, and it does not
depend on how the rows were added.  What a database has to say about its keys is written
down without comparing, as it is for the keys of rows in memory.

Main definitions:

- `pageCount`: how many pages there are.
- `Cell.Precedes`, `Cell.IsSame`: which cells come first, and which are one.
- `StoredRow.Precedes`: which rows of a database come first on a page.
- `StoredRow.IsReadAs`: what a row of a database is read as.
- `Store.HoldsJson`: the database can look into all data.
- `Store.InPageOrder`: all rows of a store in the order of a page.

Main results:

- `flatMap_range_parts`: the parts of a list put one after another.
- `Cell.totallyOrders_compare`: the order of cells.
- `Store.InPageOrder.unique`: there is one such list.
- `Store.exists_inPageOrder`: a store shows parts of it.
-/

namespace FeedbackBoard

/-! ## Parts of a list -/

section Parts

variable {α : Type} {size : Nat}

/-- How many pages of a size there are. -/
def pageCount (size total : Nat) : Nat :=
  (total + size - 1) / size

theorem pageCount_mul_ge (hsize : 1 ≤ size) (total : Nat) :
    total ≤ pageCount size total * size := by
  rw [pageCount, Nat.mul_comm]
  have hdivision := Nat.div_add_mod (total + size - 1) size
  have hmod := Nat.mod_lt (total + size - 1) hsize
  omega

/-- Pages before the last one end before the last row. -/
theorem mul_lt_of_lt_pageCount (hsize : 1 ≤ size) {n total : Nat} (h : n < pageCount size total) :
    n * size < total := by
  have hle : (n + 1) * size ≤ total + size - 1 := (Nat.le_div_iff_mul_le hsize).mp h
  rw [Nat.succ_mul] at hle
  omega

/-- The first parts put one after another are the beginning of the list. -/
theorem flatMap_range_parts (l : List α) (size count : Nat) :
    (List.range count).flatMap (fun i => (l.drop (i * size)).take size) =
      l.take (count * size) := by
  induction count with
  | zero => rw [Nat.zero_mul, List.take_zero, List.range_zero, List.flatMap_nil]
  | succ count ih =>
      rw [List.range_succ, List.flatMap_append, ih, List.flatMap_singleton, Nat.succ_mul,
        List.take_add]

end Parts

/-! ## The order of cells -/

/-- Texts are ordered by their code points. -/
theorem CodePoints.compare_eq_lt_iff (s t : CodePoints) : compare s t = .lt ↔ s < t := by
  induction s generalizing t with
  | nil => cases t <;> simp
  | cons a s ih =>
      cases t with
      | nil => simp
      | cons b t =>
          rw [List.compare_cons_cons, Ordering.then_eq_lt, List.cons_lt_cons_iff, ih,
            Nat.compare_eq_lt, Nat.compare_eq_eq]

namespace Cell

/-- A cell is a number, counted in units; infinities are counted past all other numbers. -/
inductive IsNumber : Cell → Int → Prop
  | integer (n : Int) : IsNumber (.integer n) (n * Binary64.one)
  | positive (rank : Nat) : IsNumber (.real false rank) (Binary64.units rank)
  | negative (rank : Nat) : IsNumber (.real true rank) (-(Binary64.units rank : Int))

/--
One cell comes before another: nothing before numbers, numbers before texts, numbers by
their values, and texts by their code points.
-/
inductive Precedes : Cell → Cell → Prop
  | null_number {y : Cell} {m : Int} (hy : y.IsNumber m) : Precedes .null y
  | null_text (t : CodePoints) : Precedes .null (.text t)
  | number_text {x : Cell} {n : Int} (hx : x.IsNumber n) (t : CodePoints) : Precedes x (.text t)
  | less {x y : Cell} {n m : Int} (hx : x.IsNumber n) (hy : y.IsNumber m) (hless : n < m) :
    Precedes x y
  | text {s t : CodePoints} (hless : s < t) : Precedes (.text s) (.text t)

/-- Two cells are one: both nothing, numbers of one value, or the same text. -/
inductive IsSame : Cell → Cell → Prop
  | null : IsSame .null .null
  | number {x y : Cell} {n : Int} (hx : x.IsNumber n) (hy : y.IsNumber n) : IsSame x y
  | text (s : CodePoints) : IsSame (.text s) (.text s)

variable {a b : Cell} {n m : Int}

/-- A cell is nothing, a number or a text. -/
theorem eq_null_or_isNumber_or_eq_text (cell : Cell) :
    cell = .null ∨ (∃ n, cell.IsNumber n) ∨ ∃ s, cell = .text s := by
  cases cell with
  | null => exact .inl rfl
  | integer n => exact .inr (.inl ⟨_, .integer n⟩)
  | real negative rank =>
      cases negative with
      | false => exact .inr (.inl ⟨_, .positive rank⟩)
      | true => exact .inr (.inl ⟨_, .negative rank⟩)
  | text s => exact .inr (.inr ⟨s, rfl⟩)

/-- Numbers are compared by their values. -/
theorem compare_number (ha : a.IsNumber n) (hb : b.IsNumber m) : a.compare b = Ord.compare n m := by
  cases ha <;> cases hb <;> rfl

/-- A cell that comes before another is found to be less. -/
theorem compare_of_precedes (h : a.Precedes b) : a.compare b = .lt := by
  cases h with
  | null_number hb => cases hb <;> rfl
  | null_text t => rfl
  | number_text ha t => cases ha <;> rfl
  | less ha hb hless =>
      rw [compare_number ha hb, Int.compare_eq_lt]
      exact hless
  | text hless => exact (CodePoints.compare_eq_lt_iff _ _).mpr hless

/-- Cells that are one are found to be equal. -/
theorem compare_of_isSame (h : a.IsSame b) : a.compare b = .eq := by
  cases h with
  | null => rfl
  | number ha hb => rw [compare_number ha hb, Int.compare_eq_eq]
  | text s => exact Std.ReflCmp.compare_self

/-- Of two cells one comes before the other, or they are one. -/
theorem precedes_or_isSame_or_precedes (a b : Cell) :
    a.Precedes b ∨ a.IsSame b ∨ b.Precedes a := by
  rcases a.eq_null_or_isNumber_or_eq_text with rfl | ⟨n, ha⟩ | ⟨s, rfl⟩ <;>
    rcases b.eq_null_or_isNumber_or_eq_text with rfl | ⟨m, hb⟩ | ⟨t, rfl⟩
  · exact .inr (.inl .null)
  · exact .inl (.null_number hb)
  · exact .inl (.null_text t)
  · exact .inr (.inr (.null_number ha))
  · rcases Int.lt_trichotomy n m with hless | rfl | hgreater
    · exact .inl (.less ha hb hless)
    · exact .inr (.inl (.number ha hb))
    · exact .inr (.inr (.less hb ha hgreater))
  · exact .inl (.number_text ha t)
  · exact .inr (.inr (.null_text s))
  · exact .inr (.inr (.number_text hb s))
  · cases h : Ord.compare s t with
    | lt => exact .inl (.text ((CodePoints.compare_eq_lt_iff s t).mp h))
    | eq =>
        rw [Std.LawfulEqCmp.eq_of_compare h]
        exact .inr (.inl (.text t))
    | gt =>
        have hless : Ord.compare t s = .lt := Std.OrientedCmp.lt_of_gt h
        exact .inr (.inr (.text ((CodePoints.compare_eq_lt_iff t s).mp hless)))

/-- Cells are totally ordered, and only those that are one are equal. -/
theorem totallyOrders_compare : TotallyOrders compare Precedes IsSame :=
  .of_trichotomy compare_of_precedes compare_of_isSame precedes_or_isSame_or_precedes

end Cell

/-! ## Rows of a database -/

namespace StoredRow

/-- A row comes before another on a page: by its cell in the direction, or else by its id. -/
def Precedes (field : SortField) (direction : Direction) (a b : StoredRow) : Prop :=
  direction.Leads Cell.Precedes (a.pageCell field) (b.pageCell field) ∨
    (a.pageCell field).IsSame (b.pageCell field) ∧ bytesOfText a.id < bytesOfText b.id

/-- Rows are totally ordered for a page, and only rows of one cell and one id are equal. -/
theorem totallyOrders_order (field : SortField) (direction : Direction) :
    TotallyOrders (direction.order (compareCell field) id) (Precedes field direction) fun a b =>
      (a.pageCell field).IsSame (b.pageCell field) ∧ a.id = b.id :=
  ((direction.totallyOrders_apply Cell.totallyOrders_compare).on (pageCell field)).thenBy
    (totallyOrders_text.on id)

/-- A row is read with its columns; contents are what their texts are read as, if they are JSON. -/
structure IsReadAs (stored : StoredRow) (row : Feedback) : Prop where
  id : row.id = stored.id
  userId : row.userId = stored.userId
  version : row.version = stored.version
  kind : row.kind = stored.kind
  data : row.data = stored.data.bind Json.readValue?
  info : row.info = stored.info.bind Json.readValue?
  snapshot : row.snapshot = stored.snapshot.bind Json.readValue?
  createdAt : row.createdAt = stored.createdAt
  updatedAt : row.updatedAt = stored.updatedAt

theorem isReadAs_iff {stored : StoredRow} {row : Feedback} :
    stored.IsReadAs row ↔ row = stored.toFeedback := by
  constructor
  · rintro ⟨hid, huserId, hversion, hkind, hdata, hinfo, hsnapshot, hcreatedAt, hupdatedAt⟩
    obtain ⟨id, userId, version, kind, data, info, snapshot, createdAt, updatedAt⟩ := row
    subst_vars
    rfl
  · rintro rfl
    exact ⟨rfl, rfl, rfl, rfl, rfl, rfl, rfl, rfl, rfl⟩

/-- Rows are read one by one. -/
theorem forall₂_isReadAs_iff {stored : List StoredRow} {rows : List Feedback} :
    List.Forall₂ IsReadAs stored rows ↔ rows = stored.map toFeedback := by
  have hread : IsReadAs = fun stored row => toFeedback stored = row := by
    funext stored row
    exact propext (isReadAs_iff.trans eq_comm)
  rw [hread, ← List.forall₂_map_left_iff, List.forall₂_eq_eq_eq, eq_comm]

end StoredRow

/-! ## The order of pages -/

namespace Store

/-- Whether all data are JSON, so that the database can look into them. -/
def HoldsJson : Store → Prop
  | memory _ => True
  | database db => ∀ row ∈ db.rows, ∀ text ∈ row.data,
    ∃ tree, JsonTree.ofText? text = some tree ∧ tree.IsValued

/-- The database can look into data that read as JSON. -/
theorem holdsJson_of_isSome {db : Database}
    (h : ∀ row ∈ db.rows, ∀ text ∈ row.data, (Json.readValue? text).isSome) :
    (database db).HoldsJson := fun row hrow text htext =>
  (JsonTree.exists_ofText?_of_readValue? (h row hrow text htext)).imp fun _ =>
    And.imp_right JsonTree.IsLegible.isValued

/-- All rows of a store, each once, in the order of its keys; rows of one key by ascending id. -/
inductive InPageOrder (field : SortField) (direction : Direction) : Store → List Feedback → Prop
  | memory {stored rows : List Feedback} (hperm : rows.Perm stored)
    (hsorted : rows.Pairwise (Feedback.Precedes field direction)) :
    InPageOrder field direction (.memory stored) rows
  | database {db : Database} {stored : List StoredRow} {rows : List Feedback}
    (hperm : stored.Perm db.rows) (hsorted : stored.Pairwise (StoredRow.Precedes field direction))
    (hread : List.Forall₂ StoredRow.IsReadAs stored rows) :
    InPageOrder field direction (.database db) rows

/-- There is only one list of all rows in order. -/
theorem InPageOrder.unique {field : SortField} {direction : Direction} {store : Store}
    {rows other : List Feedback} (h : store.InPageOrder field direction rows)
    (h' : store.InPageOrder field direction other) : rows = other := by
  cases h with
  | memory hperm hsorted =>
      cases h' with
      | memory hperm' hsorted' =>
          exact (Feedback.totallyOrders_pageOrder field direction).eq_of_perm
            (hperm.trans hperm'.symm) hsorted hsorted'
  | database hperm hsorted hread =>
      cases h' with
      | database hperm' hsorted' hread' =>
          obtain rfl := (StoredRow.totallyOrders_order field direction).eq_of_perm
            (hperm.trans hperm'.symm) hsorted hsorted'
          rw [StoredRow.forall₂_isReadAs_iff.mp hread, StoredRow.forall₂_isReadAs_iff.mp hread']

/-- Rows with JSON data can be ordered by every field. -/
theorem isSome_pageCell?_of_isJson {row : StoredRow}
    (h : ∀ text ∈ row.data, ∃ tree, JsonTree.ofText? text = some tree ∧ tree.IsValued)
    (field : SortField) : (row.pageCell? field).isSome := by
  have hmember : ∀ key, (row.dataMember? key).isSome := by
    intro key
    rw [StoredRow.dataMember?]
    split
    next => rfl
    next text htext =>
      obtain ⟨tree, htree, hvalued⟩ := h text htext
      rw [htree]
      exact hvalued.member key
  cases field with
  | model => exact hmember "model_id"
  | rating => exact hmember "rating"
  | createdAt | updatedAt => rfl

variable {store : Store}

/-- All pages of a store are parts of one ordered list of its rows, however they were added. -/
theorem exists_inPageOrder (hdistinct : store.ids.Nodup) (hready : store.isReady = true)
    (hjson : store.HoldsJson) (field : SortField) (direction : Direction) :
    ∃ rows, InPageOrder field direction store rows ∧ ∀ other, store.HoldsSame other →
      ∀ skip limit, other.page ⟨field, direction, skip, limit⟩ =
        .ok { items := pageSlice ⟨field, direction, skip, limit⟩ rows, total := rows.length } := by
  cases store with
  | memory stored =>
      have hsorted :=
        Direction.pairwise_sorted_lt (Feedback.compareKey field) direction hdistinct
      refine ⟨stored.mergeSort fun a b =>
        (direction.order (Feedback.compareKey field) Feedback.id a b).isLE,
        .memory (List.mergeSort_perm _ _)
          ((Feedback.totallyOrders_pageOrder field direction).pairwise_iff.mp hsorted), ?_⟩
      intro other hsame skip limit
      cases hsame with
      | memory hrows =>
          rw [page_memory, PageQuery.select, List.length_mergeSort, hrows.perm.length_eq,
            hrows.sorted_eq (Feedback.compareKey field) direction]
  | database db =>
      have hsorted :=
        Direction.pairwise_sorted_lt (StoredRow.compareCell field) direction hdistinct
      refine ⟨_, .database (List.mergeSort_perm db.rows _)
        ((StoredRow.totallyOrders_order field direction).pairwise_iff.mp hsorted)
        (StoredRow.forall₂_isReadAs_iff.mpr rfl), ?_⟩
      intro other hsame skip limit
      cases hsame with
      | @database db odb hboth hrows =>
          have hcells : ∀ row ∈ odb.rows, (row.pageCell? field).isSome := fun row hrow =>
            isSome_pageCell?_of_isJson (hjson row (hrows.perm.mem_iff.mpr hrow)) field
          rw [page_of_isSome (hboth.symm.trans hready) hcells, List.length_map,
            List.length_mergeSort, hrows.perm.length_eq,
            hrows.sorted_eq (StoredRow.compareCell field) direction]
          simp only [pageSlice, List.map_take, List.map_drop]

end Store

end FeedbackBoard
