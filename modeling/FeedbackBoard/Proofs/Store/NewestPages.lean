import FeedbackBoard.Proofs.Store.Pages
import FeedbackBoard.Proofs.Store.Shown

/-!
# Pages of the newest rows

Listings and pages put the newest rows first by two orders of their own.  A listing
compares times as integers.  A page of a database does so too, but a page of rows in
memory compares the binary64 numbers nearest to the times.  Rounding keeps times in
their order and may make them equal, and the ids decide between equal times.  So
pages are parts of the listing exactly if no later row is put behind an earlier one
by its id alone.

Main definitions:

- `RowList.TellsTimes`, `Store.TellsTimes`: rounding puts no row behind an earlier one.

Main results:

- `Binary64.place_ofInt_mono`: rounding keeps integers in their order.
- `Store.newest_and_pages`: listings, stamps, and when pages are parts of the listing.
- `Store.tellsTimes_of_natAbs_le`: they are for times up to `2 ^ 53`.
-/

namespace FeedbackBoard

/-! ## Rounded times -/

namespace Binary64

/-- Ranks past the finite numbers are taken back to the last one. -/
theorem place_ofRank (negative : Bool) (rank : Nat) :
    (ofRank negative rank).place =
      if negative then -((min rank (infinityRank - 1) : Nat) : Int) - 1
      else (min rank (infinityRank - 1) : Nat) := by
  by_cases h : rank < infinityRank
  · rw [ofRank, dif_pos h, place, Nat.min_eq_left (Nat.le_sub_one_of_lt h)]
  · rw [ofRank, dif_neg h, place,
      Nat.min_eq_right ((Nat.sub_le infinityRank 1).trans (Nat.not_lt.mp h))]

/-- Rounding keeps integers in their order. -/
theorem place_ofInt_mono {m n : Int} (h : m ≤ n) : (ofInt m).place ≤ (ofInt n).place := by
  rw [ofInt, ofInt, place_ofRank, place_ofRank]
  by_cases hm : m < 0
  · by_cases hn : n < 0
    · have hrank : naturalRank n.natAbs ≤ naturalRank m.natAbs := naturalRank_mono (by omega)
      rw [if_pos (decide_eq_true hm), if_pos (decide_eq_true hn)]
      omega
    · rw [if_pos (decide_eq_true hm), if_neg (by simpa using hn)]
      omega
  · have hn : ¬ n < 0 := by omega
    have hrank : naturalRank m.natAbs ≤ naturalRank n.natAbs := naturalRank_mono (by omega)
    rw [if_neg (by simpa using hm), if_neg (by simpa using hn)]
    omega

/-- Integers up to `2 ^ 53` are told apart after rounding. -/
theorem ofInt_injective {m n : Int} (hm : m.natAbs ≤ 2 ^ 53) (hn : n.natAbs ≤ 2 ^ 53)
    (h : ofInt m = ofInt n) : m = n := by
  have hleft : m * one = (ofInt m).amount := (SortKey.shownBy_integer hm).2.1
  have hright : n * one = (ofInt n).amount := (SortKey.shownBy_integer hn).2.1
  have hone : (one : Int) ≠ 0 := Int.natCast_ne_zero.mpr (Nat.ne_of_gt (powerOfTwo_pos 1074))
  rw [← h, ← hleft] at hright
  exact (Int.eq_of_mul_eq_mul_right hone hright).symm

end Binary64

/-! ## Two orders of rows in memory -/

namespace Feedback

/-- How listings compare rows: by the integers of their times. -/
def compareTime (a b : Feedback) : Ordering :=
  compare a.createdAt.toInt b.createdAt.toInt

instance : Std.TransCmp compareTime :=
  transCmp_on (fun row : Feedback => row.createdAt.toInt) compare

/-- Listings put the rows of the greatest times first. -/
theorem newestOrder_eq_order (a b : Feedback) :
    newestOrder a b = Direction.descending.order compareTime id a b := by
  have hswap : compare b.createdAt.toInt a.createdAt.toInt = (compareTime a b).swap :=
    Std.OrientedCmp.eq_swap
  rw [newestOrder, hswap]
  rfl

theorem newestFirst_eq_sorted (rows : List Feedback) : newestFirst rows =
    rows.mergeSort fun a b => (Direction.descending.order compareTime id a b).isLE := by
  simp only [newestFirst, newestOrder_eq_order]

variable {a b : Feedback}

/-- By its key a row does not come after a row that is later. -/
theorem compareKey_createdAt (h : a.createdAt.toInt ≤ b.createdAt.toInt) :
    compareKey .createdAt a b =
      if SortKey.ofRow .createdAt a = SortKey.ofRow .createdAt b then .eq else .lt := by
  have hmono := Binary64.place_ofInt_mono h
  have hcompare : compareKey .createdAt a b =
      compare (Binary64.ofInt a.createdAt.toInt).place (Binary64.ofInt b.createdAt.toInt).place :=
    Binary64.totalOrder_eq_compare _ _
  have hsame : SortKey.ofRow .createdAt a = SortKey.ofRow .createdAt b ↔
      (Binary64.ofInt a.createdAt.toInt).place = (Binary64.ofInt b.createdAt.toInt).place := by
    rw [SortKey.ofRow, SortKey.ofRow, SortKey.number.injEq]
    exact ⟨congrArg Binary64.place, Binary64.place_injective⟩
  rw [hcompare]
  split
  next hkeys => exact Int.compare_eq_eq.mpr (hsame.mp hkeys)
  next hkeys =>
    rw [hsame] at hkeys
    exact Int.compare_eq_lt.mpr (by omega)

/-- A page puts a later row first, unless rounding makes the times equal and its id is greater. -/
theorem order_eq_of_lt_iff (hlt : a.createdAt.toInt < b.createdAt.toInt) (hid : a.id ≠ b.id) :
    Direction.descending.order (compareKey .createdAt) id a b =
        Direction.descending.order compareTime id a b ↔
      (a.id < b.id → SortKey.ofRow .createdAt a ≠ SortKey.ofRow .createdAt b) := by
  have htime : compareTime a b = .lt := Int.compare_eq_lt.mpr hlt
  rw [Direction.order, Direction.order, compareKey_createdAt (Int.le_of_lt hlt), htime]
  by_cases hkeys : SortKey.ofRow .createdAt a = SortKey.ofRow .createdAt b
  · have hahead : compare a.id b.id = .lt ↔ a.id < b.id := compareOfLessAndEq_eq_lt
    have htie : compare a.id b.id ≠ .eq := fun heq => hid (Std.LawfulEqCmp.eq_of_compare heq)
    have hbehind : compare a.id b.id = .gt ↔ ¬ a.id < b.id := by
      rw [← hahead]
      cases hcompare : compare a.id b.id with
      | eq => exact absurd hcompare htie
      | lt | gt => decide
    rw [if_pos hkeys]
    exact hbehind.trans ⟨fun hnot hless => absurd hless hnot, fun h hless => h hless hkeys⟩
  · rw [if_neg hkeys]
    exact iff_of_true rfl fun _ => hkeys

end Feedback

/-- No row is put behind an earlier one because rounding makes their times equal. -/
def RowList.TellsTimes (rows : RowList) : Prop :=
  ∀ a ∈ rows, ∀ b ∈ rows, a.createdAt.toInt < b.createdAt.toInt → a.id < b.id →
    SortKey.ofRow .createdAt a ≠ SortKey.ofRow .createdAt b

/-- Rows in memory are in one order for pages and for listings exactly if they tell times. -/
theorem RowList.sorted_eq_newestFirst_iff {rows : RowList}
    (hdistinct : DistinctIds Feedback.id rows) :
    (rows.mergeSort fun a b =>
        (Direction.descending.order (Feedback.compareKey .createdAt) Feedback.id a b).isLE) =
      newestFirst rows ↔ rows.TellsTimes := by
  rw [Feedback.newestFirst_eq_sorted]
  constructor
  · intro hsorted a ha b hb hlt hid
    have horder := Direction.order_eq_of_sorted_eq hdistinct hsorted ha hb
    exact (Feedback.order_eq_of_lt_iff hlt (String.ne_of_lt hid)).mp horder hid
  · intro htells
    have hearlier : ∀ a ∈ rows, ∀ b ∈ rows, a.createdAt.toInt < b.createdAt.toInt →
        Direction.descending.order (Feedback.compareKey .createdAt) Feedback.id a b =
          Direction.descending.order Feedback.compareTime Feedback.id a b := by
      intro a ha b hb hlt
      have hid : a.id ≠ b.id := by
        intro hid
        rw [hdistinct.eq_of_id_eq ha hb hid] at hlt
        exact Int.lt_irrefl _ hlt
      exact (Feedback.order_eq_of_lt_iff hlt hid).mpr (htells a ha b hb hlt)
    refine Direction.sorted_eq_of_order_eq fun a ha b hb => ?_
    rcases Int.lt_trichotomy a.createdAt.toInt b.createdAt.toInt with hlt | heq | hgt
    · exact hearlier a ha b hb hlt
    · have hkeys : SortKey.ofRow .createdAt a = SortKey.ofRow .createdAt b :=
        congrArg (fun time => SortKey.number (Binary64.ofInt time)) heq
      have htime : Feedback.compareTime a b = .eq := Int.compare_eq_eq.mpr heq
      rw [Direction.order, Direction.order, Feedback.compareKey_createdAt (Int.le_of_eq heq),
        if_pos hkeys, htime]
    · rw [Direction.order_swap b a, Direction.order_swap b a, hearlier b hb a ha hgt]

/-! ## The order of rows in a database -/

/-- Integers of the database are compared as they are. -/
theorem Cell.compare_integer (m n : Int) : (integer m).compare (integer n) = Ord.compare m n := by
  have hone : (0 : Int) < Binary64.one :=
    Int.natCast_pos.mpr (Binary64.powerOfTwo_pos 1074)
  have hless : ∀ {m n : Int}, Ord.compare (m * Binary64.one) (n * Binary64.one) = .lt ↔
      Ord.compare m n = .lt := fun {m n} => by
    rw [Int.compare_eq_lt, Int.compare_eq_lt, Int.mul_lt_mul_right hone]
  have hunits : Ord.compare (m * Binary64.one) (n * Binary64.one) = Ord.compare m n :=
    compare_eq_of_lt_iff_lt hless hless
  exact hunits

/-- A database puts rows in one order for pages and for listings. -/
theorem StoredRow.sorted_eq_newestFirst (rows : List StoredRow) :
    (rows.mergeSort fun a b =>
        (Direction.descending.order (compareCell .createdAt) id a b).isLE) =
      newestFirst rows := by
  have hcells : ∀ a b : StoredRow,
      Direction.descending.order (compareCell .createdAt) id a b = newestOrder a b := by
    intro a b
    have hswap : (compareCell .createdAt a b).swap = compareCell .createdAt b a :=
      Std.OrientedCmp.eq_swap.symm
    have hcompare : compareCell .createdAt b a = compare b.createdAt.toInt a.createdAt.toInt :=
      Cell.compare_integer _ _
    rw [Direction.order, Direction.apply, hswap, hcompare]
    rfl
  simp only [newestFirst, hcells]

/-! ## Pages and listings -/

/-- Parts of a list determine the list. -/
theorem forall_pageSlice_eq_iff {α : Type} {l other : List α} (field : SortField)
    (direction : Direction) :
    (∀ skip limit : Nat,
        pageSlice ⟨field, direction, skip, limit⟩ l = (other.drop skip).take limit) ↔
      l = other := by
  constructor
  · intro hparts
    have hall := hparts 0 (l.length + other.length)
    rw [List.drop_zero, List.take_of_length_le (Nat.le_add_left _ _)] at hall
    rw [← hall, pageSlice, Int.toNat_natCast, Int.toNat_natCast, List.drop_zero,
      List.take_of_length_le (Nat.le_add_right _ _)]
  · rintro rfl skip limit
    rfl

namespace Store

/-- Whether pages of the newest rows put them in the order of their times. -/
def TellsTimes : Store → Prop
  | memory rows => rows.TellsTimes
  | database _ => True

variable {store : Store}

/--
A listing shows every row once, the newest first and rows of one time by ascending
id, and the stamps are those of the listing.  Pages by descending time of creation
are the parts of the listing exactly if the store tells times.
-/
theorem newest_and_pages (hdistinct : store.ids.Nodup) (hready : store.isReady = true) :
    ∃ rows, store.newest = .ok rows ∧ rows.Perm store.shown ∧
      (rows.Pairwise fun a b => newestOrder a b = .lt) ∧
      store.stamps = .ok (rows.map Feedback.stamp) ∧
      ((∀ skip limit : Nat, store.page ⟨.createdAt, .descending, skip, limit⟩ =
          .ok { items := (rows.drop skip).take limit, total := rows.length }) ↔
        store.TellsTimes) := by
  have hshown : DistinctIds Feedback.id store.shown := by
    rw [DistinctIds, map_id_shown]
    exact hdistinct
  refine ⟨newestFirst store.shown, newest_of_isReady hready, List.mergeSort_perm _ _, ?_,
    stamps_of_isReady hready, ?_⟩
  · have hsorted := Direction.pairwise_sorted_lt Feedback.compareTime .descending hshown
    rw [← Feedback.newestFirst_eq_sorted] at hsorted
    exact hsorted.imp fun hlt => (Feedback.newestOrder_eq_order _ _).trans hlt
  · cases store with
    | memory rows =>
        rw [shown] at hshown
        rw [TellsTimes, shown, ← RowList.sorted_eq_newestFirst_iff hshown,
          ← forall_pageSlice_eq_iff .createdAt .descending]
        refine forall_congr' fun skip => forall_congr' fun limit => ?_
        rw [page_memory, Except.ok.injEq, Page.mk.injEq]
        exact and_iff_left (List.length_mergeSort _).symm
    | database db =>
        refine iff_of_true (fun skip limit => ?_) trivial
        rw [page_of_isSome hready fun row _ => rfl, StoredRow.sorted_eq_newestFirst, shown,
          ← newestFirst_map_toFeedback, List.length_map, StoredRow.newestFirst,
          List.length_mergeSort]
        simp only [pageSlice, List.map_take, List.map_drop]
        rfl

/--
Times next to `2 ^ 53` are equal after rounding.  Pages are parts of the listing if the
later row has the smaller id, and in a database they are anyway.
-/
theorem newest_and_pages_of_large_times :
    let row (id : String) (time : Int64) : Feedback :=
      { id := id
        userId := "u"
        version := 0
        kind := "rating"
        data := none
        info := none
        snapshot := none
        createdAt := time
        updatedAt := 0 }
    let AsListed (store : Store) : Prop := ∃ rows, store.newest = .ok rows ∧
      ∀ skip limit : Nat, store.page ⟨.createdAt, .descending, skip, limit⟩ =
        .ok { items := (rows.drop skip).take limit, total := rows.length }
    let apart := [row "a" 9007199254740992, row "b" 9007199254740993]
    ¬ AsListed (.memory apart) ∧
      AsListed (.memory [row "a" 9007199254740993, row "b" 9007199254740992]) ∧
      AsListed ((emptyDatabase 0).restoreAll apart).2 := by
  intro row AsListed apart
  have hlisted : ∀ store : Store, store.ids.Nodup → store.isReady = true →
      (AsListed store ↔ store.TellsTimes) := by
    intro store hdistinct hready
    obtain ⟨rows, hnewest, -, -, -, hpages⟩ := newest_and_pages hdistinct hready
    rw [← hpages]
    constructor
    · rintro ⟨other, hother, hparts⟩
      rw [hnewest, Except.ok.injEq] at hother
      rwa [hother]
    · exact fun hparts => ⟨rows, hnewest, hparts⟩
  have hmemory : ∀ first second : Feedback, first.id ≠ second.id →
      (AsListed (.memory [first, second]) ↔ RowList.TellsTimes [first, second]) := by
    intro first second hid
    exact hlisted (.memory [first, second])
      (List.nodup_cons.mpr ⟨mt List.mem_singleton.mp hid, List.nodup_singleton _⟩) rfl
  refine ⟨?_, ?_, ?_⟩
  · rw [hmemory _ _ (by decide), RowList.TellsTimes]
    decide +kernel
  · rw [hmemory _ _ (by decide), RowList.TellsTimes]
    decide +kernel
  · have hdistinct : DistinctIds Feedback.id apart := by
      rw [DistinctIds]
      decide
    obtain ⟨db, hloaded, hready, hrows⟩ := restoreAll_emptyDatabase hdistinct 0
    have hids : (Store.database db).ids = apart.map Feedback.id := by
      rw [← map_id_shown, shown, hrows]
      rfl
    rw [hloaded, hlisted (.database db) (hids ▸ hdistinct) hready]
    trivial

/-- Stores whose times are at most `2 ^ 53` in magnitude tell times. -/
theorem tellsTimes_of_natAbs_le (h : ∀ row ∈ store.shown, row.createdAt.toInt.natAbs ≤ 2 ^ 53) :
    store.TellsTimes := by
  cases store with
  | memory rows =>
      intro a ha b hb hlt _ hkeys
      rw [SortKey.ofRow, SortKey.ofRow, SortKey.number.injEq] at hkeys
      exact Int.ne_of_lt hlt (Binary64.ofInt_injective (h a ha) (h b hb) hkeys)
  | database db => trivial

end Store

end FeedbackBoard
