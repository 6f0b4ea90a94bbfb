import FeedbackBoard.Proofs.Order.Sorted
import FeedbackBoard.Store.Basic
import Mathlib.Data.List.Nodup

/-!
# Rows with distinct ids

Rows in memory and rows of a table are lists in which no two rows have one id.
Such a list is a finite map from ids to rows: what is looked up by its id is
found wherever it stands, and changing the row of an id changes one row.

Main definitions:

- `DistinctIds`: no two rows have one id.

Main results:

- `DistinctIds.find?_eq_some_iff`: finding by the id is membership.
- `DistinctIds.find?_eq_of_mem_iff`, `DistinctIds.perm_of_mem_iff`: lists with the same
  rows find the same, and differ only in their order.
- `RowList.revise_eq_map`: the first row of an id is the only one.
- `storeRow_eq_append`, `storeRow_perm`: storing a row keeps the rows of all other ids.
- `foldl_storeRow_perm`, `foldl_storeRow_eq_self`: so does storing several, and storing them
  again changes nothing.
-/

namespace FeedbackBoard

section Distinct

variable {ρ : Type} (id : ρ → String)

/-- No two rows have one id. -/
def DistinctIds (rows : List ρ) : Prop :=
  (rows.map id).Nodup

namespace DistinctIds

variable {id} {rows other : List ρ}

/-- Rows of one id are one row. -/
theorem eq_of_id_eq (h : DistinctIds id rows) {a b : ρ} (ha : a ∈ rows) (hb : b ∈ rows)
    (hid : id a = id b) : a = b :=
  List.inj_on_of_nodup_map h ha hb hid

/-- No row comes twice. -/
theorem nodup (h : DistinctIds id rows) : rows.Nodup :=
  List.Nodup.of_map id h

/-- Of rows with distinct ids there is one list with these ids. -/
theorem eq_of_map_id_eq (h : DistinctIds id rows) {l l' : List ρ} (hl : ∀ row ∈ l, row ∈ rows)
    (hl' : ∀ row ∈ l', row ∈ rows) (hids : l.map id = l'.map id) : l = l' := by
  induction l generalizing l' with
  | nil => exact (List.map_eq_nil_iff.mp hids.symm).symm
  | cons a rest ih =>
      obtain ⟨b, rest', rfl, hid, hrest⟩ := List.map_eq_cons_iff.mp hids.symm
      obtain ⟨ha, hrest₁⟩ := List.forall_mem_cons.mp hl
      obtain ⟨hb, hrest₂⟩ := List.forall_mem_cons.mp hl'
      rw [h.eq_of_id_eq hb ha hid, ih hrest₁ hrest₂ hrest.symm]

/-! ### Changes keep ids distinct -/

theorem filter (p : ρ → Bool) (h : DistinctIds id rows) : DistinctIds id (rows.filter p) :=
  h.sublist (List.filter_sublist.map id)

theorem map {f : ρ → ρ} (hf : ∀ row, id (f row) = id row) (h : DistinctIds id rows) :
    DistinctIds id (rows.map f) := by
  have hids : (rows.map f).map id = rows.map id := by
    rw [List.map_map]
    exact List.map_congr_left fun row _ => hf row
  rw [DistinctIds, hids]
  exact h

theorem append_fresh {row : ρ} (hfresh : id row ∉ rows.map id) (h : DistinctIds id rows) :
    DistinctIds id (rows ++ [row]) := by
  rw [DistinctIds, List.map_append, List.nodup_append]
  refine ⟨h, List.nodup_singleton _, ?_⟩
  intro key hkey new hnew
  rw [List.map_singleton, List.mem_singleton] at hnew
  rintro rfl
  exact hfresh (hnew ▸ hkey)

theorem perm (hperm : rows.Perm other) (h : DistinctIds id rows) : DistinctIds id other :=
  (hperm.map id).nodup_iff.mp h

/-! ### Lists with the same rows -/

/-- Lists with the same rows differ only in their order. -/
theorem perm_of_mem_iff (h : DistinctIds id rows) (hother : DistinctIds id other)
    (hmem : ∀ row, row ∈ rows ↔ row ∈ other) : rows.Perm other :=
  (List.perm_ext_iff_of_nodup h.nodup hother.nodup).mpr hmem

/-- A row is found by its id wherever it stands. -/
theorem find?_eq_some_iff (h : DistinctIds id rows) {key : String} {p : ρ → Bool}
    (hp : ∀ row, p row → id row = key) {row : ρ} :
    rows.find? p = some row ↔ row ∈ rows ∧ p row := by
  constructor
  · intro hfind
    exact ⟨List.mem_of_find?_eq_some hfind, List.find?_some hfind⟩
  · rintro ⟨hmem, hrow⟩
    cases hfind : rows.find? p with
    | none => exact absurd hrow (List.find?_eq_none.mp hfind row hmem)
    | some found =>
        have hfound : p found := List.find?_some hfind
        have hid : id found = id row := (hp found hfound).trans (hp row hrow).symm
        rw [h.eq_of_id_eq (List.mem_of_find?_eq_some hfind) hmem hid]

/-- Lists with the same rows of an id find the same row. -/
theorem find?_eq_of_mem_iff (h : DistinctIds id rows) (hother : DistinctIds id other)
    {key : String} {p : ρ → Bool} (hp : ∀ row, p row → id row = key)
    (hmem : ∀ row, p row → (row ∈ rows ↔ row ∈ other)) :
    rows.find? p = other.find? p := by
  apply Option.ext
  intro row
  rw [h.find?_eq_some_iff hp, hother.find?_eq_some_iff hp]
  constructor
  · rintro ⟨hrow, hprow⟩
    exact ⟨(hmem row hprow).mp hrow, hprow⟩
  · rintro ⟨hrow, hprow⟩
    exact ⟨(hmem row hprow).mpr hrow, hprow⟩

end DistinctIds

/-- Where there is no target nothing is changed. -/
theorem map_if_eq_self {p : ρ → Bool} {f : ρ → ρ} {rows : List ρ} (h : ∀ row ∈ rows, ¬ p row) :
    (rows.map fun row => if p row then f row else row) = rows := by
  conv => rhs; rw [← List.map_id' rows]
  apply List.map_congr_left
  intro row hrow
  rw [if_neg (h row hrow)]

/-- Finding a row after the targets have been changed finds the changed row. -/
theorem find?_map_if {p : ρ → Bool} {f : ρ → ρ} (hf : ∀ row, p (f row) = p row)
    (rows : List ρ) :
    (rows.map fun row => if p row then f row else row).find? p = (rows.find? p).map f := by
  induction rows with
  | nil => rfl
  | cons row rest ih =>
      rw [List.map_cons]
      by_cases hrow : p row
      · rw [if_pos hrow, List.find?_cons_of_pos ((hf row).trans hrow),
          List.find?_cons_of_pos hrow, Option.map_some]
      · rw [if_neg hrow, List.find?_cons_of_neg hrow, List.find?_cons_of_neg hrow, ih]

/-- The order of listings, by times and then by ids. -/
theorem transCmp_newest (time : ρ → Int) :
    Std.TransCmp fun a b : ρ => (compare (time b) (time a)).then (compare (id a) (id b)) :=
  have : Std.TransCmp fun a b : ρ => compare (time b) (time a) :=
    transCmp_on time fun x y => compare y x
  have : Std.TransCmp fun a b : ρ => compare (id a) (id b) := transCmp_on id compare
  transCmp_then (fun a b : ρ => compare (time b) (time a)) fun a b => compare (id a) (id b)

/-- A listing of rows with distinct ids does not depend on how the rows came. -/
theorem DistinctIds.newest_eq_of_perm {id} {rows other : List ρ} (time : ρ → Int)
    (h : DistinctIds id rows) (hperm : rows.Perm other) :
    (rows.mergeSort fun a b =>
        ((compare (time b) (time a)).then (compare (id a) (id b))).isLE) =
      other.mergeSort fun a b =>
        ((compare (time b) (time a)).then (compare (id a) (id b))).isLE := by
  have := transCmp_newest id time
  apply sorted_eq_of_perm (fun a b : ρ =>
    (compare (time b) (time a)).then (compare (id a) (id b))) hperm
  intro a ha b hb hab
  have hid : compare (id a) (id b) = .eq := (Ordering.then_eq_eq.mp hab).2
  exact h.eq_of_id_eq ha hb (Std.LawfulEqCmp.eq_of_compare hid)

end Distinct

/-! ## Rows in memory -/

namespace RowList

/-- A target has the id that is looked for. -/
theorem id_of_isTarget {id : String} {owner : Option String} {row : Feedback}
    (h : isTarget id owner row) : row.id = id := by
  simp only [isTarget, Bool.and_eq_true, beq_iff_eq] at h
  exact h.1

/-- The first row of an id is the only one, so changing it is changing all. -/
theorem revise_eq_map {rows : RowList} (h : DistinctIds Feedback.id rows) (id : String)
    (owner : Option String) (form : Feedback.Form) (now : Int64) :
    revise id owner form now rows =
      rows.map fun row => if isTarget id owner row then row.revise form now else row := by
  induction rows with
  | nil => rfl
  | cons row rest ih =>
      obtain ⟨hhead, htail⟩ := List.nodup_cons.mp h
      rw [revise, List.map_cons]
      by_cases hrow : isTarget id owner row
      · have hrest : ∀ other ∈ rest, ¬ isTarget id owner other := by
          intro other hother htarget
          apply hhead
          rw [id_of_isTarget hrow, ← id_of_isTarget htarget]
          exact List.mem_map_of_mem hother
        rw [if_pos hrow, if_pos hrow, map_if_eq_self hrest]
      · rw [if_neg hrow, if_neg hrow, ih htail]

/-- A row with a new id is added at the end. -/
theorem restore_eq_append {rows : RowList} {row : Feedback}
    (hfresh : row.id ∉ rows.map Feedback.id) : rows.restore row = rows ++ [row] := by
  rw [restore, List.filter_eq_self.mpr]
  intro other hother
  rw [bne_iff_ne]
  intro heq
  exact hfresh (heq ▸ List.mem_map_of_mem hother)

end RowList

/-! ## Rows of a table -/

/-- A statement about the row of an id is about rows with this id. -/
theorem RowFilter.id_of_accepts {id : String} {owner : Option String} {row : StoredRow}
    (h : (RowFilter.row id owner).accepts row) : row.id = id := by
  simp only [accepts, Bool.and_eq_true, beq_iff_eq] at h
  exact h.1

/-- A row with a new id is added at the end. -/
theorem storeRow_eq_append {row : StoredRow} {rows : List StoredRow}
    (hfresh : row.id ∉ rows.map StoredRow.id) : storeRow row rows = rows ++ [row] := by
  induction rows with
  | nil => rfl
  | cons other rest ih =>
      rw [List.map_cons, List.mem_cons, not_or] at hfresh
      rw [storeRow, if_neg (Ne.symm hfresh.1), ih hfresh.2, List.cons_append]

/-- Storing a row puts it in the place of the row with its id, if there is one. -/
theorem storeRow_perm {row : StoredRow} {rows : List StoredRow}
    (h : DistinctIds StoredRow.id rows) :
    (storeRow row rows).Perm (rows.filter (fun other => other.id != row.id) ++ [row]) := by
  induction rows with
  | nil => exact List.Perm.refl _
  | cons other rest ih =>
      obtain ⟨hhead, htail⟩ := List.nodup_cons.mp h
      rw [storeRow]
      by_cases hid : other.id = row.id
      · have hrest : rest.filter (fun other => other.id != row.id) = rest := by
          rw [List.filter_eq_self]
          intro kept hkept
          rw [bne_iff_ne]
          intro heq
          apply hhead
          rw [hid, ← heq]
          exact List.mem_map_of_mem hkept
        rw [if_pos hid, List.filter_cons_of_neg (by simp [hid]), hrest]
        exact (List.perm_append_singleton row rest).symm
      · rw [if_neg hid, List.filter_cons_of_pos (by simp [hid]), List.cons_append]
        exact (ih htail).cons other

/-- Storing a row that is there changes nothing. -/
theorem storeRow_eq_self {row : StoredRow} {rows : List StoredRow}
    (h : DistinctIds StoredRow.id rows) (hrow : row ∈ rows) : storeRow row rows = rows := by
  induction rows with
  | nil => cases hrow
  | cons other rest ih =>
      rw [storeRow]
      by_cases hid : other.id = row.id
      · rw [if_pos hid, h.eq_of_id_eq List.mem_cons_self hrow hid]
      · have hrest : row ∈ rest := (List.mem_cons.mp hrow).resolve_left fun heq => hid (heq ▸ rfl)
        rw [if_neg hid, ih (List.nodup_cons.mp h).2 hrest]

/-- Storing rows that are there changes nothing. -/
theorem foldl_storeRow_eq_self {batch rows : List StoredRow} (h : DistinctIds StoredRow.id rows)
    (hbatch : ∀ row ∈ batch, row ∈ rows) :
    batch.foldl (fun rows row => storeRow row rows) rows = rows := by
  induction batch with
  | nil => rfl
  | cons row rest ih =>
      rw [List.foldl_cons, storeRow_eq_self h (hbatch row List.mem_cons_self)]
      exact ih fun other hother => hbatch other (List.mem_cons_of_mem row hother)

theorem DistinctIds.storeRow {row : StoredRow} {rows : List StoredRow}
    (h : DistinctIds StoredRow.id rows) : DistinctIds StoredRow.id (storeRow row rows) := by
  refine DistinctIds.perm (storeRow_perm h).symm ((h.filter _).append_fresh ?_)
  simp [List.mem_map, List.mem_filter]

theorem DistinctIds.foldl_storeRow {batch rows : List StoredRow}
    (h : DistinctIds StoredRow.id rows) :
    DistinctIds StoredRow.id (batch.foldl (fun rows row => FeedbackBoard.storeRow row rows) rows) := by
  induction batch generalizing rows with
  | nil => exact h
  | cons row rest ih => exact ih h.storeRow

/-- Storing rows puts them in the place of the rows with their ids. -/
theorem foldl_storeRow_perm {batch rows : List StoredRow} (hbatch : DistinctIds StoredRow.id batch)
    (h : DistinctIds StoredRow.id rows) :
    (batch.foldl (fun rows row => storeRow row rows) rows).Perm
      (rows.filter (fun row => row.id ∉ batch.map StoredRow.id) ++ batch) := by
  induction batch generalizing rows with
  | nil => simp
  | cons row rest ih =>
      obtain ⟨hfresh, hrest⟩ := List.nodup_cons.mp hbatch
      rw [List.foldl_cons]
      refine (ih hrest h.storeRow).trans ?_
      have hkept := (@storeRow_perm row _ h).filter fun other =>
        other.id ∉ rest.map StoredRow.id
      have hfilter : (rows.filter (fun other => other.id != row.id) ++ [row]).filter
          (fun other => other.id ∉ rest.map StoredRow.id) =
          rows.filter (fun other => other.id ∉ (row :: rest).map StoredRow.id) ++ [row] := by
        rw [List.filter_append, List.filter_filter, List.filter_cons_of_pos (by simpa using hfresh)]
        congr 1
        apply List.filter_congr
        intro other _
        rw [Bool.eq_iff_iff]
        simp only [Bool.and_eq_true, decide_eq_true_iff, bne_iff_ne, List.map_cons, List.mem_cons,
          not_or]
        exact and_comm
      rw [hfilter] at hkept
      simpa using hkept.append_right rest

end FeedbackBoard
