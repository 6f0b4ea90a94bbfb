import FeedbackBoard.Proofs.Store.Mirror
import FeedbackBoard.Proofs.Store.Pages
import Mathlib.Logic.Function.Basic

/-!
# Rows in memory as a finite map

Rows in memory are a plain list without an index.  As long as fresh ids are fresh the
list represents a map from ids to rows: every operation answers what it would answer
from the map, and leaves a list that represents the map after the operation.

Main definitions:

- `RowMap`, `RowMap.after`, `RowMap.Answers`: a map from ids to rows, and what operations do
  to it and answer from it.
- `RowMap.Lists`: the listing of the rows with a property.
- `RowMap.Run`: operations on a map, one after the other.
- `RowList.Represents`: a list with distinct ids that holds the rows of a map.

Main results:

- `RowMap.Lists.unique`: there is one listing.
- `RowList.Represents.perform`: one operation.
- `Store.performAll_represents`: every point of a sequence of operations.
-/

namespace FeedbackBoard

/-! ## Maps from ids to rows -/

/-- The rows of a store by their ids. -/
abbrev RowMap := String → Option Feedback

namespace RowMap

variable {m : RowMap}

/-- A map without rows. -/
def empty : RowMap := fun _ => none

/-- Sets the row of an id. -/
def set (m : RowMap) (row : Feedback) : RowMap :=
  Function.update m row.id (some row)

/-- The row of an id; within the rows of an owner a row of somebody else is absent. -/
def find (m : RowMap) (id : String) (owner : Option String) : Option Feedback :=
  match owner with
  | none => m id
  | some user => (m id).filter fun row => row.userId = user

/-- The row that is found, with another kind, other contents and another time of change. -/
def revised (m : RowMap) (id : String) (owner : Option String) (form : Feedback.Form)
    (now : Int64) : Option Feedback :=
  (m.find id owner).map fun row =>
    { row with
      kind := form.kind
      data := form.data
      info := form.info
      snapshot := form.snapshot
      updatedAt := now }

/-- The map after an operation; readings leave it as it is. -/
def after (freshId : String) (now : Int64) (operation : Operation) (m : RowMap) : RowMap :=
  match operation with
  | .insert userId form => m.set (Feedback.ofForm freshId userId form now)
  | .restore row => m.set row
  | .restoreAll batch => batch.foldl set m
  | .importAll batch => if batch.all Store.hasKeys then batch.foldl set m else m
  | .revise id owner form =>
    match m.revised id owner form now with
    | some row => m.set row
    | none => m
  | .remove id owner => if (m.find id owner).isSome then Function.update m id none else m
  | .removeUser user => fun id => (m id).filter fun row => row.userId ≠ user
  | .removeAll => empty
  | .find _ _ | .newest | .newestOf _ | .stamps | .ratings | .standings | .page _ => m

/-! ### Listings -/

/-- The rows of a map with a property, each of them once. -/
structure Enumerates (m : RowMap) (p : Feedback → Prop) (rows : List Feedback) : Prop where
  nodup : rows.Nodup
  mem_iff : ∀ row, row ∈ rows ↔ m row.id = some row ∧ p row

/-- The rows of a map with a property: the newest first, and those of one time by ascending id. -/
structure Lists (m : RowMap) (p : Feedback → Prop) (rows : List Feedback) : Prop where
  sorted : rows.Pairwise fun a b =>
    b.createdAt < a.createdAt ∨ b.createdAt = a.createdAt ∧ a.id < b.id
  mem_iff : ∀ row, row ∈ rows ↔ m row.id = some row ∧ p row

/-- What an operation answers from a map. -/
def Answers (freshId : String) (now : Int64) (operation : Operation) (m : RowMap)
    (outcome : Outcome) : Prop :=
  match operation with
  | .insert userId form => outcome = .row (Feedback.ofForm freshId userId form now)
  | .restore _ => outcome = .unit
  | .restoreAll batch => outcome = .count batch.length
  | .importAll batch =>
    outcome = if batch.all Store.hasKeys then .count batch.length else .failed .blankKey
  | .revise id owner form => outcome = .rowOrNone (m.revised id owner form now)
  | .remove id owner => outcome = .flag (m.find id owner).isSome
  | .removeUser user => ∃ removed, outcome = .flag removed ∧
      (removed = true ↔ ∃ id row, m id = some row ∧ row.userId = user)
  | .removeAll => ∃ removed, outcome = .flag removed ∧
      (removed = true ↔ ∃ id row, m id = some row)
  | .find id owner => outcome = .rowOrNone (m.find id owner)
  | .newest => ∃ rows, m.Lists (fun _ => True) rows ∧ outcome = .rows rows
  | .newestOf user => ∃ rows, m.Lists (fun row => row.userId = user) rows ∧ outcome = .rows rows
  | .stamps => ∃ rows, m.Lists (fun _ => True) rows ∧
      outcome = .stamps (rows.map Feedback.stamp)
  | .ratings => ∃ rows, m.Enumerates (fun row => row.kind = "rating") rows ∧
      outcome = .payloads (rows.map Feedback.payload)
  | .standings => ∃ rows, m.Enumerates (fun row => row.kind = "rating") rows ∧
      outcome = .standings (leaderboard (rows.map Feedback.payload))
  | .page query => ∃ rows, m.Enumerates (fun _ => True) rows ∧
      rows.Pairwise (fun a b => pageOrder query.field query.direction a b = .lt) ∧
        outcome = .page ⟨pageSlice query rows, rows.length⟩

/-- Operations on a map, one after the other, with their answers and the map after them. -/
inductive Run : RowMap → List (String × Int64 × Operation) → List Outcome → RowMap → Prop
  | nil (m : RowMap) : Run m [] [] m
  | cons {m last : RowMap} {freshId : String} {now : Int64} {operation : Operation}
      {rest : List (String × Int64 × Operation)} {outcome : Outcome} {outcomes : List Outcome}
      (answers : m.Answers freshId now operation outcome)
      (run : Run (m.after freshId now operation) rest outcomes last) :
      Run m ((freshId, now, operation) :: rest) (outcome :: outcomes) last

end RowMap

/-- One row is listed before another if it is newer, or as new and of a smaller id. -/
theorem newestOrder_eq_lt_iff {a b : Feedback} :
    newestOrder a b = .lt ↔
      b.createdAt < a.createdAt ∨ b.createdAt = a.createdAt ∧ a.id < b.id := by
  have hid : compare a.id b.id = .lt ↔ a.id < b.id := compareOfLessAndEq_eq_lt
  rw [newestOrder, Ordering.then_eq_lt, hid, Int.compare_eq_lt, Int.compare_eq_eq,
    Int64.lt_iff_toInt_lt, Int64.toInt_inj]

/-- There is one listing of the rows of a map with a property. -/
theorem RowMap.Lists.unique {m : RowMap} {p : Feedback → Prop} {rows other : List Feedback}
    (h : m.Lists p rows) (hother : m.Lists p other) : rows = other := by
  have htrans : Std.TransCmp newestOrder :=
    transCmp_newest Feedback.id fun row => row.createdAt.toInt
  apply eq_of_strictly_sorted _ h.sorted hother.sorted
  · intro row
    rw [h.mem_iff, hother.mem_iff]
  · intro a b hab hba
    rw [← newestOrder_eq_lt_iff] at hab hba
    have hgt : newestOrder b a = .gt := Std.OrientedCmp.gt_of_lt hab
    rw [hgt] at hba
    cases hba

/-! ## Lists that represent maps -/

/-- A list with distinct ids holds the rows of a map. -/
structure RowList.Represents (rows : RowList) (m : RowMap) : Prop where
  distinct : DistinctIds Feedback.id rows
  lookup : ∀ id row, m id = some row ↔ row ∈ rows ∧ row.id = id

namespace RowList.Represents

variable {rows : RowList} {m : RowMap} (h : rows.Represents m)

theorem nil : RowList.Represents [] RowMap.empty where
  distinct := List.nodup_nil
  lookup := by simp [RowMap.empty]

include h

/-- The map holds a row at its own id. -/
theorem mem_iff (row : Feedback) : row ∈ rows ↔ m row.id = some row := by
  simp [h.lookup]

/-! ### Changes -/

theorem restore (row : Feedback) : (rows.restore row).Represents (m.set row) where
  distinct := by
    apply (h.distinct.filter _).append_fresh
    simp [List.mem_map, List.mem_filter]
  lookup id other := by
    rw [RowMap.set, RowList.restore, List.mem_append, List.mem_filter, List.mem_singleton,
      bne_iff_ne]
    by_cases hid : id = row.id
    · subst hid
      rw [Function.update_self, Option.some.injEq]
      constructor
      · rintro rfl
        exact ⟨Or.inr rfl, rfl⟩
      · rintro ⟨⟨-, hne⟩ | rfl, hother⟩
        · exact absurd hother hne
        · rfl
    · rw [Function.update_of_ne hid, h.lookup]
      constructor
      · rintro ⟨hmem, rfl⟩
        exact ⟨Or.inl ⟨hmem, hid⟩, rfl⟩
      · rintro ⟨⟨hmem, -⟩ | rfl, rfl⟩
        · exact ⟨hmem, rfl⟩
        · exact absurd rfl hid

/-- A row with a fresh id is set where no row is. -/
theorem insert {row : Feedback} (hfresh : row.id ∉ rows.map Feedback.id) :
    (rows.insert row).Represents (m.set row) := by
  rw [RowList.insert, ← RowList.restore_eq_append hfresh]
  exact h.restore row

omit h in
theorem restoreAll (batch : List Feedback) :
    ∀ {rows : RowList} {m : RowMap}, rows.Represents m →
      (rows.restoreAll batch).Represents (batch.foldl RowMap.set m) := by
  induction batch with
  | nil => exact fun h => h
  | cons row rest ih => exact fun h => ih (h.restore row)

/-- The rows that are kept are kept in the map. -/
theorem filter (p : Feedback → Bool) :
    RowList.Represents (rows.filter p) fun id => (m id).filter p where
  distinct := h.distinct.filter p
  lookup id row := by
    rw [Option.filter_eq_some_iff, h.lookup, List.mem_filter]
    exact and_right_comm

/-! ### Looking up -/

theorem find_eq_some_iff {id : String} {owner : Option String} {row : Feedback} :
    m.find id owner = some row ↔ row ∈ rows ∧ isTarget id owner row := by
  have hlookup := h.lookup id row
  cases owner with
  | none => simp [RowMap.find, hlookup, isTarget, Feedback.ownedBy]
  | some user => simp [RowMap.find, hlookup, isTarget, Feedback.ownedBy, and_assoc]

/-- Where nothing is found, no row is a target. -/
theorem not_isTarget_of_find_eq_none {id : String} {owner : Option String}
    (hfind : m.find id owner = none) {row : Feedback} (hrow : row ∈ rows) :
    ¬ isTarget id owner row := by
  intro htarget
  have hfound := h.find_eq_some_iff.mpr ⟨hrow, htarget⟩
  rw [hfind] at hfound
  cases hfound

/-- The first row that is found in the list is the one that is found in the map. -/
theorem find?_eq (id : String) (owner : Option String) : rows.find? id owner = m.find id owner := by
  apply Option.ext
  intro row
  rw [h.find_eq_some_iff]
  exact h.distinct.find?_eq_some_iff fun row => RowList.id_of_isTarget

/-- Something is found if the list holds a target. -/
theorem any_isTarget (id : String) (owner : Option String) :
    rows.any (isTarget id owner) = (m.find id owner).isSome := by
  rw [← h.find?_eq, RowList.find?, Bool.eq_iff_iff, List.any_eq_true, List.find?_isSome]

/-- Some row of the map has a property if some row of the list has it. -/
theorem any_iff {p : Feedback → Bool} {P : Feedback → Prop} (hp : ∀ row, p row = true ↔ P row) :
    rows.any p = true ↔ ∃ id row, m id = some row ∧ P row := by
  rw [List.any_eq_true]
  constructor
  · rintro ⟨row, hrow, hrowp⟩
    exact ⟨row.id, row, (h.mem_iff row).mp hrow, (hp row).mp hrowp⟩
  · rintro ⟨id, row, hrow, hrowp⟩
    exact ⟨row, ((h.lookup id row).mp hrow).1, (hp row).mpr hrowp⟩

/-! ### Changes of what is found -/

/-- A form is applied to the row that is found. -/
theorem revise (id : String) (owner : Option String) (form : Feedback.Form) (now : Int64) :
    RowList.Represents
      (rows.map fun row => if isTarget id owner row then row.revise form now else row)
      (match m.revised id owner form now with
        | some row => m.set row
        | none => m) := by
  have hkept : ∀ row : Feedback,
      (if isTarget id owner row then row.revise form now else row).id = row.id := by
    intro row
    split <;> rfl
  refine ⟨h.distinct.map hkept, ?_⟩
  rw [RowMap.revised]
  cases hfind : m.find id owner with
  | none =>
      have hsame : (rows.map fun row =>
          if isTarget id owner row then row.revise form now else row) = rows :=
        map_if_eq_self fun row hrow => h.not_isTarget_of_find_eq_none hfind hrow
      rw [hsame]
      exact h.lookup
  | some found =>
      obtain ⟨hfound, htarget⟩ := h.find_eq_some_iff.mp hfind
      have hid : found.id = id := RowList.id_of_isTarget htarget
      intro key row
      change m.set (found.revise form now) key = some row ↔ _
      rw [RowMap.set, show (found.revise form now).id = id from hid, List.mem_map]
      by_cases hkey : key = id
      · subst hkey
        rw [Function.update_self, Option.some.injEq]
        constructor
        · rintro rfl
          exact ⟨⟨found, hfound, if_pos htarget⟩, hid⟩
        · rintro ⟨⟨before, hbefore, rfl⟩, hrow⟩
          rw [hkept] at hrow
          have hsame : before = found := h.distinct.eq_of_id_eq hbefore hfound (hrow.trans hid.symm)
          rw [hsame, if_pos htarget]
      · have hspared : ∀ other : Feedback, other.id = key → ¬ isTarget id owner other := by
          intro other hother htarget
          exact hkey (hother.symm.trans (RowList.id_of_isTarget htarget))
        rw [Function.update_of_ne hkey, h.lookup]
        constructor
        · rintro ⟨hrow, hrowkey⟩
          exact ⟨⟨row, hrow, if_neg (hspared row hrowkey)⟩, hrowkey⟩
        · rintro ⟨⟨before, hbefore, rfl⟩, hrow⟩
          rw [hkept] at hrow
          rw [if_neg (hspared before hrow)]
          exact ⟨hbefore, hrow⟩

/-- The row that is found is the only one that goes. -/
theorem remove (id : String) (owner : Option String) :
    (rows.remove id owner).Represents
      (if (m.find id owner).isSome then Function.update m id none else m) := by
  refine ⟨h.distinct.filter _, ?_⟩
  cases hfind : m.find id owner with
  | none =>
      have hsame : rows.remove id owner = rows := by
        rw [RowList.remove, List.filter_eq_self]
        intro row hrow
        rw [Bool.not_eq_true', ← Bool.not_eq_true]
        exact fun htarget => h.not_isTarget_of_find_eq_none hfind hrow htarget
      rw [hsame]
      exact h.lookup
  | some found =>
      obtain ⟨hfound, htarget⟩ := h.find_eq_some_iff.mp hfind
      have hid : found.id = id := id_of_isTarget htarget
      intro key row
      rw [Option.isSome_some, if_pos rfl, RowList.remove, List.mem_filter, Bool.not_eq_true',
        ← Bool.not_eq_true]
      by_cases hkey : key = id
      · subst hkey
        rw [Function.update_self]
        refine iff_of_false nofun ?_
        rintro ⟨⟨hrow, hspared⟩, hrowkey⟩
        rw [h.distinct.eq_of_id_eq hrow hfound (hrowkey.trans hid.symm)] at hspared
        exact hspared htarget
      · rw [Function.update_of_ne hkey, h.lookup]
        refine and_congr_left fun hrowkey => (and_iff_left fun htarget => ?_).symm
        exact hkey (hrowkey.symm.trans (id_of_isTarget htarget))

theorem removeUser (user : String) :
    RowList.Represents (rows.filter fun row => !(row.userId == user))
      fun id => (m id).filter fun row => row.userId ≠ user := by
  have hother : (fun row : Feedback => !(row.userId == user)) =
      fun row => decide (row.userId ≠ user) := by
    funext row
    rw [decide_not]
    rfl
  rw [hother]
  exact h.filter _

/-! ### Listings -/

/-- The rows of a property in the list are those in the map. -/
theorem mem_filter_iff {p : Feedback → Bool} {P : Feedback → Prop}
    (hp : ∀ row, p row = true ↔ P row) (row : Feedback) :
    row ∈ rows.filter p ↔ m row.id = some row ∧ P row := by
  rw [List.mem_filter, h.mem_iff, hp]

theorem enumerates {p : Feedback → Bool} {P : Feedback → Prop}
    (hp : ∀ row, p row = true ↔ P row) : m.Enumerates P (rows.filter p) where
  nodup := (h.distinct.filter p).nodup
  mem_iff := h.mem_filter_iff hp

theorem lists {p : Feedback → Bool} {P : Feedback → Prop} (hp : ∀ row, p row = true ↔ P row) :
    m.Lists P (newestFirst (rows.filter p)) where
  sorted := by
    have htrans : Std.TransCmp fun a b : Feedback =>
        compare b.createdAt.toInt a.createdAt.toInt :=
      transCmp_on (fun row : Feedback => row.createdAt.toInt) fun x y => compare y x
    refine (Direction.pairwise_sorted_lt _ .ascending (h.distinct.filter p)).imp ?_
    exact fun hlt => newestOrder_eq_lt_iff.mp hlt
  mem_iff row := List.mem_mergeSort.trans (h.mem_filter_iff hp row)

/-- All rows are rows with the property that all have. -/
theorem lists_all : m.Lists (fun _ => True) rows.newest := by
  have hall := h.lists (p := fun _ => true) (P := fun _ => True) fun _ => by simp
  rwa [List.filter_true] at hall

/-- The rows of all pages, one after the other. -/
theorem pages (field : SortField) (direction : Direction) :
    let sorted := rows.mergeSort fun a b => (pageOrder field direction a b).isLE
    m.Enumerates (fun _ => True) sorted ∧
      sorted.Pairwise (fun a b => pageOrder field direction a b = .lt) ∧
        sorted.length = rows.length := by
  intro sorted
  have hperm : sorted.Perm rows := List.mergeSort_perm _ _
  refine ⟨⟨hperm.nodup_iff.mpr h.distinct.nodup, fun row => ?_⟩, ?_, hperm.length_eq⟩
  · rw [hperm.mem_iff, h.mem_iff, and_true]
  · exact Direction.pairwise_sorted_lt (Feedback.compareKey field) direction h.distinct

end RowList.Represents

/-! ## Operations -/

/-- An operation on a list that represents a map is that operation on the map. -/
theorem RowList.Represents.perform {rows : RowList} {m : RowMap} (h : rows.Represents m)
    (freshId : String) (now : Int64) {operation : Operation}
    (hfresh : ∀ userId form, operation = .insert userId form → freshId ∉ rows.map Feedback.id) :
    m.Answers freshId now operation ((Store.memory rows).perform freshId now operation).1 ∧
      ∃ rows', ((Store.memory rows).perform freshId now operation).2 = .memory rows' ∧
        rows'.Represents (m.after freshId now operation) := by
  have hrating : ∀ row : Feedback, row.isRating = true ↔ row.kind = "rating" :=
    fun row => beq_iff_eq
  cases operation with
  | insert userId form => exact ⟨rfl, _, rfl, h.insert (hfresh userId form rfl)⟩
  | restore row => exact ⟨rfl, _, rfl, h.restore row⟩
  | restoreAll batch => exact ⟨rfl, _, rfl, .restoreAll batch h⟩
  | importAll batch =>
      rw [RowMap.Answers, RowMap.after, Store.perform, Store.importAll]
      by_cases hkeys : batch.all Store.hasKeys
      · simp only [if_pos hkeys]
        exact ⟨rfl, _, rfl, .restoreAll batch h⟩
      · simp only [if_neg hkeys]
        exact ⟨rfl, _, rfl, h⟩
  | revise id owner form =>
      rw [Store.perform, Store.revise_memory h.distinct, h.find?_eq]
      exact ⟨rfl, _, rfl, h.revise id owner form now⟩
  | remove id owner =>
      rw [Store.perform, Store.remove_memory, h.any_isTarget]
      exact ⟨rfl, _, rfl, h.remove id owner⟩
  | removeUser user =>
      rw [Store.perform, Store.removeUser_memory]
      exact ⟨⟨_, rfl, h.any_iff fun row => beq_iff_eq⟩, _, rfl, h.removeUser user⟩
  | removeAll =>
      have hany : (!rows.isEmpty) = true ↔ ∃ id row, m id = some row := by
        have hsome := h.any_iff (p := fun _ => true) (P := fun _ => True) fun _ => by simp
        cases rows <;> simpa using hsome
      exact ⟨⟨_, rfl, hany⟩, _, rfl, .nil⟩
  | find id owner => exact ⟨congrArg Outcome.rowOrNone (h.find?_eq id owner), _, rfl, h⟩
  | newest => exact ⟨⟨_, h.lists_all, rfl⟩, _, rfl, h⟩
  | newestOf user => exact ⟨⟨_, h.lists fun row => beq_iff_eq, rfl⟩, _, rfl, h⟩
  | stamps => exact ⟨⟨_, h.lists_all, rfl⟩, _, rfl, h⟩
  | ratings => exact ⟨⟨_, h.enumerates hrating, rfl⟩, _, rfl, h⟩
  | standings => exact ⟨⟨_, h.enumerates hrating, rfl⟩, _, rfl, h⟩
  | page query =>
      obtain ⟨hrows, hsorted, hlength⟩ := h.pages query.field query.direction
      refine ⟨⟨_, hrows, hsorted, ?_⟩, _, rfl, h⟩
      rw [hlength]
      rfl

/-- So is a sequence of operations. -/
theorem RowList.Represents.performAll {steps : List (String × Int64 × Operation)} :
    ∀ {rows : RowList} {m : RowMap}, rows.Represents m → Store.DrawsFresh steps (.memory rows) →
      ∃ rows' m', ((Store.memory rows).performAll steps).2 = .memory rows' ∧
        rows'.Represents m' ∧ m.Run steps ((Store.memory rows).performAll steps).1 m' := by
  induction steps with
  | nil => exact fun {rows m} h _ => ⟨rows, m, rfl, h, .nil m⟩
  | cons step rest ih =>
      obtain ⟨freshId, now, operation⟩ := step
      intro rows m h hfresh
      obtain ⟨hfirst, hrest⟩ := hfresh
      obtain ⟨hanswers, next, hnext, hrepresents⟩ := h.perform freshId now hfirst
      rw [hnext] at hrest
      obtain ⟨rows', m', hlast, hrepresents', hrun⟩ := ih hrepresents hrest
      have hperform : (Store.memory rows).perform freshId now operation =
          (((Store.memory rows).perform freshId now operation).1, .memory next) :=
        Prod.ext rfl hnext
      rw [Store.performAll, hperform]
      exact ⟨rows', m', hlast, hrepresents', .cons hanswers hrun⟩

/-- A sequence draws fresh ids up to every point. -/
theorem Store.DrawsFresh.take {steps : List (String × Int64 × Operation)} {store : Store}
    (h : DrawsFresh steps store) (n : Nat) : DrawsFresh (steps.take n) store := by
  induction steps generalizing store n with
  | nil =>
      rw [List.take_nil]
      exact h
  | cons step rest ih =>
      cases n with
      | zero => exact trivial
      | succ n => exact ⟨h.1, ih h.2 n⟩

end FeedbackBoard
