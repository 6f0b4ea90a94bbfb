import FeedbackBoard.Proofs.Access.Gate
import FeedbackBoard.Proofs.Feedback.Exchange
import FeedbackBoard.Proofs.Store.Mirror
import FeedbackBoard.Proofs.Store.Shown

/-!
# From one database to another

The rows of a database are written as a text and imported into another one.  All
of them arrive as they were, the rows with their ids give way, and the other rows
stay.  Importing the text once more changes nothing, and a database that was empty
has the same export.  What the interface sends to an administrator who asks for
all rows is such a text too.

Main definitions:

- `Feedback.IsPortable`: a row that can be taken over as it is.
- `Database.TakesOver`: what importing a text does.

Main results:

- `Database.exists_takesOver`: any text that spells the rows is taken over.
- `Database.transfer`: exports and the answers of the interface are such texts.
-/

namespace FeedbackBoard

open Json (Value)

/-! ## Rows that are taken over -/

/--
A row that can be taken over as it is: it has an id and a user, its contents are
such that an export leaves enough levels for them, and its numbers are read back
as they are written.
-/
structure Feedback.IsPortable (row : Feedback) : Prop where
  id_ne : row.id ≠ ""
  userId_ne : row.userId ≠ ""
  content : ∀ value ∈ row.contents, value.IsContent exportLevels
  stable : row.IsStable

theorem Feedback.IsPortable.isStorable {row : Feedback} (h : row.IsPortable) :
    row.IsStorable :=
  isStorable_of_isContent (fun value hvalue => (h.content value hvalue).mono (by decide)) h.stable

theorem all_hasKeys_of_isPortable {rows : List Feedback} (h : ∀ row ∈ rows, row.IsPortable) :
    rows.all Store.hasKeys = true := by
  rw [List.all_eq_true]
  intro row hrow
  simp [Store.hasKeys, (h row hrow).id_ne, (h row hrow).userId_ne]

theorem map_reread_of_isPortable {rows : List Feedback} (h : ∀ row ∈ rows, row.IsPortable) :
    rows.map Feedback.reread = rows := by
  conv => rhs; rw [← List.map_id' rows]
  exact List.map_congr_left fun row hrow => Feedback.reread_eq_self (h row hrow).stable

/-! ## Listings -/

theorem newestFirst_eq_of_perm {rows other : List Feedback} (h : DistinctIds Feedback.id rows)
    (hperm : rows.Perm other) : newestFirst rows = newestFirst other :=
  h.newest_eq_of_perm (fun row : Feedback => row.createdAt.toInt) hperm

/-- A listing that is listed again is the same. -/
theorem newestFirst_newestFirst {rows : List Feedback} (h : DistinctIds Feedback.id rows) :
    newestFirst (newestFirst rows) = newestFirst rows :=
  (newestFirst_eq_of_perm h (List.mergeSort_perm _ _).symm).symm

namespace Database

variable {db source target restored : Database} {rows : List Feedback} {text : String}

theorem distinctIds_toFeedback (h : DistinctIds StoredRow.id db.rows) :
    DistinctIds Feedback.id (db.rows.map StoredRow.toFeedback) := by
  rw [DistinctIds, List.map_map]
  exact h

/-! ## Imports -/

/-- The rows whose ids are not among those of the given rows. -/
def others (rows : List Feedback) (db : Database) : List StoredRow :=
  db.rows.filter fun stored => stored.id ∉ rows.map Feedback.id

/--
A text is read as rows, and importing it takes them over: they are stored in the
place of the rows with their ids, all other rows stay, the database lists both,
and importing the text once more changes nothing.
-/
structure TakesOver (text : String) (rows : List Feedback) (target restored : Database) :
    Prop where
  read : readExport text = some rows
  imported : (Store.database target).importAll rows = (.ok rows.length, .database restored)
  stored : restored.rows.Perm (target.others rows ++ rows.map StoredRow.ofFeedback)
  listed : (Store.database restored).newest =
    .ok (newestFirst ((target.others rows).map StoredRow.toFeedback ++ rows))
  again : (Store.database restored).importAll rows = (.ok rows.length, .database restored)

section Import

variable (hready : target.isReady = true) (hportable : ∀ row ∈ rows, row.IsPortable)
  (haccepted : ∀ row ∈ rows, row.id ∉ target.rejected)
include hready hportable haccepted

/-- Rows that can be taken over are stored one after the other. -/
theorem importAll_eq :
    (Store.database target).importAll rows =
      (.ok rows.length, Store.withRows target
        ((rows.map StoredRow.ofFeedback).foldl (fun rows row => storeRow row rows)
          target.rows)) := by
  have hstored : ∀ stored ∈ rows.map StoredRow.ofFeedback, stored.id ∉ target.rejected := by
    intro stored hstored
    obtain ⟨row, hrow, rfl⟩ := List.mem_map.mp hstored
    exact haccepted row hrow
  rw [Store.importAll, if_pos (all_hasKeys_of_isPortable hportable), Store.restoreAll_database,
    hready, Bool.true_or, if_pos rfl, storeRows?_of_accepted hstored]

/-- Whatever text spells rows that can be taken over, importing it takes them over. -/
theorem exists_takesOver (hrows : DistinctIds Feedback.id rows)
    (htarget : DistinctIds StoredRow.id target.rows) :
    ∃ restored, ∀ text,
      Json.Document.ofString text = ⟨Json.Node.ofValue (Json.encode rows), true⟩ →
        TakesOver text rows target restored := by
  have hids : (rows.map StoredRow.ofFeedback).map StoredRow.id = rows.map Feedback.id := by
    rw [List.map_map]
    rfl
  have hbatch : DistinctIds StoredRow.id (rows.map StoredRow.ofFeedback) := by
    rw [DistinctIds, hids]
    exact hrows
  let restored : Database :=
    { target with
      rows := (rows.map StoredRow.ofFeedback).foldl (fun rows row => storeRow row rows)
        target.rows }
  have hdistinct : DistinctIds StoredRow.id restored.rows := htarget.foldl_storeRow
  have hstored : restored.rows.Perm (target.others rows ++ rows.map StoredRow.ofFeedback) := by
    rw [others, ← hids]
    exact foldl_storeRow_perm hbatch htarget
  have hread : (rows.map StoredRow.ofFeedback).map StoredRow.toFeedback = rows :=
    map_toFeedback_map_ofFeedback fun row hrow => (hportable row hrow).isStorable
  -- The rows are there already, so storing them again changes nothing.
  have hagain : (rows.map StoredRow.ofFeedback).foldl (fun rows row => storeRow row rows)
      restored.rows = restored.rows := by
    apply foldl_storeRow_eq_self hdistinct
    intro row hrow
    exact hstored.mem_iff.mpr (List.mem_append_right _ hrow)
  refine ⟨restored, fun text htext => ?_⟩
  constructor
  case read =>
    rw [readExport_of_isContent htext fun row hrow => (hportable row hrow).content,
      map_reread_of_isPortable hportable]
  case imported => exact importAll_eq hready hportable haccepted
  case stored => exact hstored
  case listed =>
    have hlisted : (Store.database restored).newest =
        .ok (newestFirst (restored.rows.map StoredRow.toFeedback)) :=
      Store.newest_of_isReady hready
    rw [hlisted,
      newestFirst_eq_of_perm (distinctIds_toFeedback hdistinct) (hstored.map StoredRow.toFeedback),
      List.map_append, hread]
  case again =>
    have himport := @importAll_eq restored rows hready hportable haccepted
    rwa [hagain] at himport

end Import

/-! ## Exports -/

/--
All rows of a database are taken over by another one, from an export as it is
written into a file, from one as it is printed, and from what an administrator is
sent who asks for all rows.  A database without rows has the same export then.
-/
theorem transfer (source target : Database) (hsource : source.isReady = true)
    (htarget : target.isReady = true) (hsourceIds : DistinctIds StoredRow.id source.rows)
    (htargetIds : DistinctIds StoredRow.id target.rows)
    (hportable : ∀ stored ∈ source.rows, stored.toFeedback.IsPortable)
    (haccepted : ∀ stored ∈ source.rows, stored.id ∉ target.rejected) :
    ∃ rows restored, (Store.database source).newest = .ok rows ∧
      rows.Perm (source.rows.map StoredRow.toFeedback) ∧
      TakesOver (exportText rows) rows target restored ∧
      TakesOver (exportText rows ++ "\n") rows target restored ∧
      (target.rows = [] → (Store.database restored).newest = .ok rows) ∧
      (∀ (board : Board) (now : Int64) (request : Request) (issued : Nat),
        Route.ofPath? request.path = some .allExport → request.method = "GET" →
        board.Clears request .admin →
        board.handle now request ⟨.database source, issued⟩ =
          (.ofValue (Json.encode rows), ⟨.database source, issued⟩)) ∧
      TakesOver (Json.encode rows).compact rows target restored := by
  have hdistinct := distinctIds_toFeedback hsourceIds
  have hperm := List.mergeSort_perm (source.rows.map StoredRow.toFeedback) fun a b =>
    (newestOrder a b).isLE
  have hnewest : (Store.database source).newest =
      .ok (newestFirst (source.rows.map StoredRow.toFeedback)) := Store.newest_of_isReady hsource
  let rows : List Feedback := newestFirst (source.rows.map StoredRow.toFeedback)
  have hmem : ∀ row ∈ rows, ∃ stored ∈ source.rows, stored.toFeedback = row := fun row hrow =>
    List.mem_map.mp (hperm.mem_iff.mp hrow)
  have hrowsPortable : ∀ row ∈ rows, row.IsPortable := by
    intro row hrow
    obtain ⟨stored, hstored, rfl⟩ := hmem row hrow
    exact hportable stored hstored
  have hrowsAccepted : ∀ row ∈ rows, row.id ∉ target.rejected := by
    intro row hrow
    obtain ⟨stored, hstored, rfl⟩ := hmem row hrow
    exact haccepted stored hstored
  obtain ⟨restored, htakes⟩ := exists_takesOver htarget hrowsPortable hrowsAccepted
    (hdistinct.perm hperm.symm) htargetIds
  have hfile := htakes _ (Json.Document.ofString_pretty (Json.encode rows))
  have hprinted := htakes _ (Json.Document.ofString_pretty_append (Json.encode rows)
    (List.forall_mem_singleton.mpr (show Json.isSpace (some '\n') = true from rfl)))
  refine ⟨rows, restored, hnewest, hperm, hfile, hprinted, ?_, ?_, ?_⟩
  · intro hempty
    have hlisted := hfile.listed
    rw [others, hempty] at hlisted
    exact hlisted.trans (congrArg Except.ok (newestFirst_newestFirst hdistinct))
  · intro board now request issued hroute hmethod hclears
    exact Board.handle_exportAll hroute hmethod hclears hnewest
  · exact htakes _ (Json.Document.ofString_compact (Json.encode rows))

/-- A row takes the place of the one with its id, and another row stays. -/
theorem transfer_overlap :
    let row (id kind : String) (data : Option Value) : Feedback :=
      ⟨id, "ann", 0, kind, data, none, none, 1, 1⟩
    let rating := row "a" "rating" (some (.object [("model_id", .string "m")]))
    let database (rows : List Feedback) : Database :=
      { (empty.migrate 0).2 with rows := rows.map StoredRow.ofFeedback }
    let source := database [rating]
    let target := database [row "a" "comment" none, row "b" "rating" none]
    ∃ restored, (Store.database source).newest = .ok [rating] ∧
      TakesOver (exportText [rating]) [rating] target restored ∧
      restored.rows.Perm [.ofFeedback (row "b" "rating" none), .ofFeedback rating] := by
  intro row rating database source target
  have hcontents : ∀ value ∈ rating.contents, value = .object [("model_id", .string "m")] :=
    fun _ hvalue => List.mem_singleton.mp hvalue
  have hrating : rating.IsPortable := by
    refine ⟨by decide, by decide, fun value hvalue => ?_, fun value hvalue => ?_⟩
    · rw [hcontents value hvalue]
      exact ⟨by simp [Value.Ordered, Value.OrderedMembers, KeysAscending], by decide, by simp⟩
    · rw [hcontents value hvalue]
      rfl
  have hread : source.rows.map StoredRow.toFeedback = [rating] :=
    map_toFeedback_map_ofFeedback (List.forall_mem_singleton.mpr hrating.isStorable)
  have hportable : ∀ stored ∈ source.rows, stored.toFeedback.IsPortable := by
    refine List.forall_mem_singleton.mpr ?_
    rwa [← List.head_eq_of_cons_eq hread] at hrating
  have htargetIds : DistinctIds StoredRow.id target.rows := (by decide : ["a", "b"].Nodup)
  obtain ⟨rows, restored, hrows, hperm, htakes, -⟩ := transfer source target rfl rfl
    (List.nodup_singleton _) htargetIds hportable (fun _ _ => List.not_mem_nil)
  rw [hread, List.perm_singleton] at hperm
  subst hperm
  exact ⟨restored, hrows, htakes, htakes.stored⟩

end Database

end FeedbackBoard
