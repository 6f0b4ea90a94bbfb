import FeedbackBoard.Proofs.Database.StoredRows
import FeedbackBoard.Proofs.Reviews.Ranking
import FeedbackBoard.Proofs.Store.Operations
import FeedbackBoard.Store.Operation

/-!
# A database in the place of memory

A database mirrors rows in memory if it holds their stored forms, in any order.
Every operation but the page keeps it so and answers the same, as long as rows
and forms come from the parser and their numbers are read back as they are; the
payloads that reviews count are the only answer that comes in another order.

Main definitions:

- `Mirrors`: a database holds the stored forms of rows in memory.
- `Operation.IsFaithful`: operations that both kinds of stores treat alike.
- `Outcome.Agree`: answers that are the same but for the order of payloads.
- `Store.DrawsFresh`: along a run no fresh id is the id of a row.

Main results:

- `Mirrors.perform`: one operation.
- `Mirrors.performAll`: a sequence of operations.
- `Store.performAll_agree`: from empty stores, whatever the sequence.
-/

namespace FeedbackBoard

/-! ## Mirrored rows -/

/-- A row that is the same after it has been stored and read back. -/
def Feedback.IsStorable (row : Feedback) : Prop :=
  (StoredRow.ofFeedback row).toFeedback = row

theorem Feedback.isStorable_of_isContent {row : Feedback}
    (hread : ∀ value ∈ row.contents, value.IsContent Json.levelLimit) (hstable : row.IsStable) :
    row.IsStorable := by
  rw [IsStorable, StoredRow.toFeedback_ofFeedback hread, reread_eq_self hstable]

/-- A database without rejected ids holds the stored forms of rows in memory. -/
structure Mirrors (rows : RowList) (db : Database) : Prop where
  ready : db.isReady = true
  accepting : db.rejected = []
  perm : db.rows.Perm (rows.map StoredRow.ofFeedback)
  distinct : DistinctIds Feedback.id rows
  storable : ∀ row ∈ rows, row.IsStorable

/-- A store in a database that mirrors a store in memory. -/
inductive Store.MirroredBy : Store → Store → Prop
  | intro {rows : RowList} {db : Database} (h : Mirrors rows db) :
      MirroredBy (.memory rows) (.database db)

/-- Both kinds of stores answer the same and mirror each other afterwards. -/
structure Store.Agree {α : Type} (inMemory inDatabase : Except StoreError α × Store) : Prop where
  answer : inMemory.1 = inDatabase.1
  mirrored : inMemory.2.MirroredBy inDatabase.2

theorem isTarget_eq_accepts (id : String) (owner : Option String) (row : Feedback) :
    RowList.isTarget id owner row = (RowFilter.row id owner).accepts (.ofFeedback row) := by
  cases owner <;> rfl

/-- Reading stored rows gives the rows back. -/
theorem map_toFeedback_map_ofFeedback {rows : List Feedback}
    (h : ∀ row ∈ rows, row.IsStorable) :
    (rows.map StoredRow.ofFeedback).map StoredRow.toFeedback = rows := by
  rw [List.map_map]
  conv => rhs; rw [← List.map_id' rows]
  exact List.map_congr_left h

namespace Mirrors

variable {rows : RowList} {db : Database} (h : Mirrors rows db)
include h

/-- Other rows and their stored forms mirror each other too. -/
theorem withRows {rows' : RowList} {stored : List StoredRow}
    (hperm : stored.Perm (rows'.map StoredRow.ofFeedback))
    (hdistinct : DistinctIds Feedback.id rows') (hstorable : ∀ row ∈ rows', row.IsStorable) :
    Mirrors rows' { db with rows := stored } where
  ready := h.ready
  accepting := h.accepting
  perm := hperm
  distinct := hdistinct
  storable := hstorable

theorem distinct_stored : DistinctIds StoredRow.id db.rows := by
  rw [DistinctIds, (h.perm.map StoredRow.id).nodup_iff, List.map_map]
  exact h.distinct

/-- Stored rows of a condition are the stored forms of the rows of the condition. -/
theorem filter_perm {p : Feedback → Bool} {q : StoredRow → Bool}
    (hpq : ∀ row, p row = q (.ofFeedback row)) :
    (db.rows.filter q).Perm ((rows.filter p).map StoredRow.ofFeedback) := by
  have hfilter : (rows.map StoredRow.ofFeedback).filter q =
      (rows.filter p).map StoredRow.ofFeedback := by
    rw [List.filter_map]
    congr 1
    exact List.filter_congr fun row _ => (hpq row).symm
  rw [← hfilter]
  exact h.perm.filter q

theorem any_eq {p : Feedback → Bool} {q : StoredRow → Bool}
    (hpq : ∀ row, p row = q (.ofFeedback row)) : rows.any p = db.rows.any q := by
  have hq : p = q ∘ StoredRow.ofFeedback := funext hpq
  rw [h.perm.any_eq, List.any_map, hq]

/-- What is found among stored rows is the stored form of what is found in memory. -/
theorem find?_eq (id : String) (owner : Option String) :
    db.rows.find? (RowFilter.row id owner).accepts =
      (rows.find? id owner).map StoredRow.ofFeedback := by
  have hid : ∀ row : StoredRow, (RowFilter.row id owner).accepts row → row.id = id :=
    fun _ => RowFilter.id_of_accepts
  have hmap : DistinctIds StoredRow.id (rows.map StoredRow.ofFeedback) :=
    h.distinct_stored.perm h.perm
  have htarget : (RowFilter.row id owner).accepts ∘ StoredRow.ofFeedback =
      RowList.isTarget id owner := funext fun row => (isTarget_eq_accepts id owner row).symm
  rw [h.distinct_stored.find?_eq_of_mem_iff hmap hid fun row _ => h.perm.mem_iff, List.find?_map,
    htarget]
  rfl

/-- Stored rows are listed in the order in which the rows in memory are. -/
theorem newestFirst_eq {p : Feedback → Bool} {q : StoredRow → Bool}
    (hpq : ∀ row, p row = q (.ofFeedback row)) :
    StoredRow.newestFirst (db.rows.filter q) =
      (newestFirst (rows.filter p)).map StoredRow.ofFeedback := by
  have hsort := (h.distinct_stored.filter q).newest_eq_of_perm
    (fun row => row.createdAt.toInt) (h.filter_perm hpq)
  rw [newestFirst, List.map_mergeSort fun a _ b _ => ?_]
  · exact hsort
  · rfl

theorem map_newestFirst {p : Feedback → Bool} {q : StoredRow → Bool}
    (hpq : ∀ row, p row = q (.ofFeedback row)) :
    (StoredRow.newestFirst (db.rows.filter q)).map StoredRow.toFeedback =
      newestFirst (rows.filter p) := by
  rw [h.newestFirst_eq hpq, map_toFeedback_map_ofFeedback]
  intro row hrow
  exact h.storable row (List.mem_filter.mp (List.mem_mergeSort.mp hrow)).1

/-! ## Changes -/

theorem storing_permitted (id : String) : (db.isReady && !db.rejected.contains id) = true := by
  rw [h.ready, h.accepting]
  rfl

/-- Setting a row keeps the stored rows mirrored. -/
theorem storing {row : Feedback} (hstorable : row.IsStorable) :
    Mirrors (rows.restore row)
      { db with rows := storeRow (.ofFeedback row) db.rows } := by
  have hperm : (storeRow (.ofFeedback row) db.rows).Perm
      ((rows.restore row).map StoredRow.ofFeedback) := by
    rw [RowList.restore, List.map_append]
    apply (storeRow_perm h.distinct_stored).trans
    apply List.Perm.append_right
    exact h.filter_perm fun _ => rfl
  apply h.withRows hperm
  · apply (h.distinct.filter fun other => other.id != row.id).append_fresh
    simp [List.mem_map, List.mem_filter]
  · intro kept hkept
    rcases List.mem_append.mp hkept with hkept | hkept
    · exact h.storable kept (List.mem_filter.mp hkept).1
    · rw [List.mem_singleton.mp hkept]
      exact hstorable

/-- Inserting a row with a fresh id. -/
theorem insert {row : Feedback} (hfresh : row.id ∉ rows.map Feedback.id)
    (hstorable : row.IsStorable) :
    Store.Agree ((Store.memory rows).insert row) ((Store.database db).insert row) := by
  have hrestore : rows.restore row = rows.insert row := RowList.restore_eq_append hfresh
  rw [Store.insert_database, if_pos (h.storing_permitted row.id)]
  refine ⟨rfl, ?_⟩
  rw [Store.insert, ← hrestore]
  exact .intro (h.storing hstorable)

/-- Setting a row. -/
theorem restore {row : Feedback} (hstorable : row.IsStorable) :
    Store.Agree ((Store.memory rows).restore row) ((Store.database db).restore row) := by
  rw [Store.restore_database, if_pos (h.storing_permitted row.id)]
  exact ⟨rfl, .intro (h.storing hstorable)⟩

omit h in
/-- Setting several rows, one after the other. -/
theorem foldl_storeRow {batch : List Feedback} (hstorable : ∀ row ∈ batch, row.IsStorable) :
    ∀ {rows : RowList} {db : Database}, Mirrors rows db →
      Mirrors (rows.restoreAll batch)
        { db with
          rows := (batch.map StoredRow.ofFeedback).foldl
            (fun rows row => storeRow row rows) db.rows } := by
  induction batch with
  | nil => exact fun h => h
  | cons row rest ih =>
      intro rows db h
      have hfirst := h.storing (hstorable row List.mem_cons_self)
      exact ih (fun other hother => hstorable other (List.mem_cons_of_mem row hother)) hfirst

/-- Setting several rows. -/
theorem restoreAll {batch : List Feedback} (hstorable : ∀ row ∈ batch, row.IsStorable) :
    Store.Agree ((Store.memory rows).restoreAll batch) ((Store.database db).restoreAll batch) := by
  rw [Store.restoreAll_database, h.ready, h.accepting, Bool.true_or, if_pos rfl,
    storeRows?_nil_rejected]
  exact ⟨rfl, .intro (foldl_storeRow hstorable h)⟩

/-- Importing rows: their keys are checked before either store is asked. -/
theorem importAll {batch : List Feedback} (hstorable : ∀ row ∈ batch, row.IsStorable) :
    Store.Agree ((Store.memory rows).importAll batch) ((Store.database db).importAll batch) := by
  rw [Store.importAll, Store.importAll]
  split
  · exact h.restoreAll hstorable
  · exact ⟨rfl, .intro h⟩

/-- Applying a form to a row within an owner's rows. -/
theorem revise {form : Feedback.Form} {now : Int64}
    (hform : ∀ row : Feedback, (row.revise form now).IsStorable) (id : String)
    (owner : Option String) :
    Store.Agree ((Store.memory rows).revise id owner form now)
      ((Store.database db).revise id owner form now) := by
  rw [Store.revise_memory h.distinct, Store.revise_database, if_pos h.ready]
  constructor
  · rw [h.find?_eq, Option.map_map, Option.map_map]
    refine congrArg Except.ok (Option.map_congr fun row _ => ?_)
    exact (hform row).symm
  · apply Store.MirroredBy.intro
    apply h.withRows
    · have hmap : (rows.map StoredRow.ofFeedback).map (fun row =>
          if (RowFilter.row id owner).accepts row then row.revise form now else row) =
          (rows.map fun row =>
            if RowList.isTarget id owner row then row.revise form now else row).map
              StoredRow.ofFeedback := by
        rw [List.map_map, List.map_map]
        apply List.map_congr_left
        intro row _
        rw [Function.comp_apply, Function.comp_apply, isTarget_eq_accepts]
        split <;> rfl
      rw [← hmap]
      exact h.perm.map _
    · apply h.distinct.map
      intro row
      split <;> rfl
    · intro row hrow
      obtain ⟨old, hold, rfl⟩ := List.mem_map.mp hrow
      split
      · exact hform old
      · exact h.storable old hold

/-- Removing the rows of a filter. -/
theorem execute_remove {p : Feedback → Bool} {filter : RowFilter}
    (hp : ∀ row, p row = filter.accepts (.ofFeedback row)) :
    Store.Agree (.ok (rows.any p), .memory (rows.filter fun row => !p row))
      (Store.execute (.remove filter) db) := by
  rw [Store.execute_remove, if_pos h.ready, h.any_eq hp]
  refine ⟨rfl, .intro (h.withRows ?_ (h.distinct.filter _) ?_)⟩
  · exact h.filter_perm fun row => congrArg (! ·) (hp row)
  · intro row hrow
    exact h.storable row (List.mem_filter.mp hrow).1

theorem remove (id : String) (owner : Option String) :
    Store.Agree ((Store.memory rows).remove id owner) ((Store.database db).remove id owner) := by
  rw [Store.remove_memory, Store.remove_database]
  exact h.execute_remove (isTarget_eq_accepts id owner)

theorem removeUser (user : String) :
    Store.Agree ((Store.memory rows).removeUser user) ((Store.database db).removeUser user) := by
  rw [Store.removeUser_memory, Store.removeUser_database]
  exact h.execute_remove fun _ => rfl

theorem removeAll :
    Store.Agree (Store.memory rows).removeAll (Store.database db).removeAll := by
  have hany : rows.any (fun _ => true) = !rows.isEmpty := by
    cases rows <;> rfl
  have hremove : Store.Agree (.ok (rows.any fun _ => true), .memory (rows.filter fun _ => !true))
      (Store.execute (.remove .all) db) := h.execute_remove fun _ => rfl
  rw [hany, Bool.not_true, List.filter_false] at hremove
  exact hremove

/-! ## Readings -/

theorem find (id : String) (owner : Option String) :
    (Store.memory rows).find id owner = (Store.database db).find id owner := by
  rw [Store.find_database, if_pos h.ready, h.find?_eq, Option.map_map]
  refine congrArg Except.ok ?_
  cases hfind : rows.find? id owner with
  | none => rfl
  | some row =>
      rw [Option.map_some]
      exact congrArg some (h.storable row (List.mem_of_find?_eq_some hfind)).symm

/-- Listing all rows. -/
theorem newest : (Store.memory rows).newest = (Store.database db).newest := by
  have hlisted := h.map_newestFirst (p := fun _ => true) (q := RowFilter.all.accepts) fun _ => rfl
  rw [Store.newest_database, Store.answerOf_newest, if_pos h.ready, hlisted, List.filter_true]
  rfl

/-- Listing the rows of a user. -/
theorem newestOf (user : String) :
    (Store.memory rows).newestOf user = (Store.database db).newestOf user := by
  have hlisted := h.map_newestFirst (p := fun row => row.userId == user)
    (q := (RowFilter.user user).accepts) fun _ => rfl
  rw [Store.newestOf_database, Store.answerOf_newest, if_pos h.ready, hlisted]
  rfl

theorem stamps : (Store.memory rows).stamps = (Store.database db).stamps := by
  rw [Store.stamps_database, if_pos h.ready, h.newestFirst_eq (p := fun _ => true) fun _ => rfl,
    List.map_map, List.filter_true]
  rfl

/-- The payloads that reviews count, in some order. -/
theorem ratings : ∃ payloads other, (Store.memory rows).ratings = .ok payloads ∧
    (Store.database db).ratings = .ok other ∧ payloads.Perm other := by
  refine ⟨_, _, rfl, by rw [Store.ratings_database, if_pos h.ready], ?_⟩
  have hpayload : ((rows.filter Feedback.isRating).map StoredRow.ofFeedback).map
      StoredRow.payload = (rows.filter Feedback.isRating).map Feedback.payload := by
    rw [List.map_map]
    apply List.map_congr_left
    intro row hrow
    rw [Function.comp_apply, StoredRow.payload_eq,
      show (StoredRow.ofFeedback row).toFeedback = row from
        h.storable row (List.mem_filter.mp hrow).1]
  rw [RowList.ratings, ← hpayload]
  have hperm := h.filter_perm (p := Feedback.isRating)
    (q := fun row => row.kind == Feedback.ratingKind) fun _ => rfl
  exact (hperm.map StoredRow.payload).symm

/-- The leaderboard does not depend on the order of the payloads. -/
theorem standings : (Store.memory rows).standings = (Store.database db).standings := by
  obtain ⟨payloads, other, hmemory, hdatabase, hperm⟩ := h.ratings
  rw [Store.standings, Store.standings, hmemory, hdatabase]
  exact congrArg Except.ok (leaderboard_eq_of_perm hperm)

end Mirrors

/-! ## Operations -/

/-- The rows and forms of an operation come from the parser and are read back as they are. -/
def Operation.HasParsedContents : Operation → Prop
  | .insert _ form | .revise _ _ form => Json.IsParsed form ∧ form.IsStable
  | .restore row => Json.IsParsed row ∧ row.IsStable
  | .restoreAll batch | .importAll batch => ∀ row ∈ batch, Json.IsParsed row ∧ row.IsStable
  | _ => True

/-- Answers that are the same, but that payloads may come in another order. -/
inductive Outcome.Agree : Outcome → Outcome → Prop
  | same (outcome : Outcome) : Agree outcome outcome
  | payloads {l₁ l₂ : List Feedback.Payload} (h : l₁.Perm l₂) : Agree (.payloads l₁) (.payloads l₂)

/-- Whenever an insertion comes, no row has the fresh id. -/
def Store.DrawsFresh : List (String × Int64 × Operation) → Store → Prop
  | [], _ => True
  | (freshId, now, operation) :: rest, store =>
    (∀ userId form, operation = .insert userId form → freshId ∉ store.ids) ∧
      DrawsFresh rest (store.perform freshId now operation).2

/-- A parsed row that is read back as it is can be stored. -/
theorem Feedback.isStorable_of_isParsed {row : Feedback} (hparsed : Json.IsParsed row)
    (hstable : row.IsStable) : row.IsStorable :=
  isStorable_of_isContent (fun value hvalue =>
    (isContent_of_isParsed hparsed value hvalue).mono (Nat.sub_le _ _)) hstable

/-- So can a row with the contents of such a form. -/
theorem Feedback.Form.isStorable_of_contents_eq {form : Form} (hparsed : Json.IsParsed form)
    (hstable : form.IsStable) {row : Feedback} (hcontents : row.contents = form.contents) :
    row.IsStorable := by
  refine isStorable_of_isContent (fun value hvalue => ?_) fun value hvalue => ?_
  · rw [hcontents] at hvalue
    exact (isContent_of_isParsed hparsed value hvalue).mono (Nat.sub_le _ _)
  · rw [hcontents] at hvalue
    exact hstable value hvalue

/-- Changes that agree are operations that agree. -/
theorem Store.Agree.perform {α : Type} {inMemory inDatabase : Except StoreError α × Store}
    (h : Store.Agree inMemory inDatabase) (answer : α → Outcome) :
    (Outcome.ofResult answer inMemory.1).Agree (Outcome.ofResult answer inDatabase.1) ∧
      inMemory.2.MirroredBy inDatabase.2 := by
  rw [h.answer]
  exact ⟨.same _, h.mirrored⟩

/-- One operation has the same answer in memory and in a database, and keeps them mirrored. -/
theorem Mirrors.perform {rows : RowList} {db : Database} (h : Mirrors rows db)
    (freshId : String) (now : Int64) {operation : Operation}
    (hpage : ∀ query, operation ≠ .page query) (hparsed : operation.HasParsedContents)
    (hfresh : ∀ userId form, operation = .insert userId form → freshId ∉ rows.map Feedback.id) :
    ((Store.memory rows).perform freshId now operation).1.Agree
        ((Store.database db).perform freshId now operation).1 ∧
      ((Store.memory rows).perform freshId now operation).2.MirroredBy
        ((Store.database db).perform freshId now operation).2 := by
  cases operation with
  | insert userId form =>
      have hstorable : (Feedback.ofForm freshId userId form now).IsStorable :=
        Feedback.Form.isStorable_of_contents_eq hparsed.1 hparsed.2 rfl
      exact (h.insert (hfresh userId form rfl) hstorable).perform Outcome.row
  | restore row =>
      exact (h.restore (Feedback.isStorable_of_isParsed hparsed.1 hparsed.2)).perform fun _ => .unit
  | restoreAll batch =>
      have hstorable : ∀ row ∈ batch, row.IsStorable := fun row hrow =>
        Feedback.isStorable_of_isParsed (hparsed row hrow).1 (hparsed row hrow).2
      exact (h.restoreAll hstorable).perform Outcome.count
  | importAll batch =>
      have hstorable : ∀ row ∈ batch, row.IsStorable := fun row hrow =>
        Feedback.isStorable_of_isParsed (hparsed row hrow).1 (hparsed row hrow).2
      exact (h.importAll hstorable).perform Outcome.count
  | revise id owner form =>
      have hstorable : ∀ row : Feedback, (row.revise form now).IsStorable := fun row =>
        Feedback.Form.isStorable_of_contents_eq hparsed.1 hparsed.2 rfl
      exact (h.revise hstorable id owner).perform Outcome.rowOrNone
  | remove id owner => exact (h.remove id owner).perform Outcome.flag
  | removeUser user => exact (h.removeUser user).perform Outcome.flag
  | removeAll => exact h.removeAll.perform Outcome.flag
  | find id owner =>
      simp only [Store.perform, h.find id owner]
      exact ⟨.same _, .intro h⟩
  | newest =>
      simp only [Store.perform, h.newest]
      exact ⟨.same _, .intro h⟩
  | newestOf user =>
      simp only [Store.perform, h.newestOf user]
      exact ⟨.same _, .intro h⟩
  | stamps =>
      simp only [Store.perform, h.stamps]
      exact ⟨.same _, .intro h⟩
  | ratings =>
      obtain ⟨payloads, other, hmemory, hdatabase, hperm⟩ := h.ratings
      simp only [Store.perform, hmemory, hdatabase]
      exact ⟨.payloads hperm, .intro h⟩
  | standings =>
      simp only [Store.perform, h.standings]
      exact ⟨.same _, .intro h⟩
  | page query => exact absurd rfl (hpage query)

/-- A sequence of operations has the same answers in memory and in a database. -/
theorem Mirrors.performAll {steps : List (String × Int64 × Operation)}
    (hpage : ∀ step ∈ steps, ∀ query, step.2.2 ≠ .page query)
    (hparsed : ∀ step ∈ steps, step.2.2.HasParsedContents) :
    ∀ {rows : RowList} {db : Database}, Mirrors rows db → Store.DrawsFresh steps (.memory rows) →
      List.Forall₂ Outcome.Agree ((Store.memory rows).performAll steps).1
          ((Store.database db).performAll steps).1 ∧
        ((Store.memory rows).performAll steps).2.MirroredBy
          ((Store.database db).performAll steps).2 := by
  induction steps with
  | nil => exact fun h _ => ⟨.nil, .intro h⟩
  | cons step rest ih =>
      obtain ⟨freshId, now, operation⟩ := step
      intro rows db h hfresh
      obtain ⟨hfirst, hrest⟩ := hfresh
      obtain ⟨hagree, hmirrored⟩ := h.perform freshId now (hpage _ List.mem_cons_self)
        (hparsed _ List.mem_cons_self) hfirst
      -- The stores after the first operation mirror each other again.
      simp only [Store.performAll]
      generalize (Store.memory rows).perform freshId now operation = inMemory at *
      generalize (Store.database db).perform freshId now operation = inDatabase at *
      obtain ⟨answer, store⟩ := inMemory
      obtain ⟨answer', store'⟩ := inDatabase
      cases hmirrored with
      | intro h' =>
          obtain ⟨hanswers, hstores⟩ := ih (fun s hs => hpage s (List.mem_cons_of_mem _ hs))
            (fun s hs => hparsed s (List.mem_cons_of_mem _ hs)) h' hrest
          exact ⟨.cons hagree hanswers, hstores⟩

/-- Empty stores mirror each other. -/
theorem mirrors_empty (now : Int64) : ∃ db, Store.emptyDatabase now = .database db ∧ Mirrors [] db := by
  obtain ⟨db, hdb, hready, haccepting, hrows⟩ := Store.exists_emptyDatabase now
  refine ⟨db, hdb, hready, haccepting, ?_, List.nodup_nil, ?_⟩
  · rw [hrows]
    exact List.Perm.refl _
  · intro row hrow
    cases hrow

/--
Memory and database are interchangeable for everything but pages: from empty
stores every sequence of operations has the same answers in both, up to the
order of the payloads that reviews count, and both end with the same rows.
-/
theorem Store.performAll_agree (migrated : Int64) (steps : List (String × Int64 × Operation))
    (hpage : ∀ step ∈ steps, ∀ query, step.2.2 ≠ .page query)
    (hparsed : ∀ step ∈ steps, step.2.2.HasParsedContents)
    (hfresh : Store.DrawsFresh steps Store.emptyMemory) :
    List.Forall₂ Outcome.Agree (Store.emptyMemory.performAll steps).1
        ((Store.emptyDatabase migrated).performAll steps).1 ∧
      ∃ (rows : RowList) (db : Database),
        (Store.emptyMemory.performAll steps).2 = .memory rows ∧
          ((Store.emptyDatabase migrated).performAll steps).2 = .database db ∧
            (db.rows.map StoredRow.toFeedback).Perm rows := by
  obtain ⟨db, hdatabase, hmirrors⟩ := mirrors_empty migrated
  rw [hdatabase]
  obtain ⟨hanswers, hstores⟩ := hmirrors.performAll hpage hparsed hfresh
  refine ⟨hanswers, ?_⟩
  rw [Store.emptyMemory]
  generalize (Store.memory []).performAll steps = inMemory at *
  generalize (Store.database db).performAll steps = inDatabase at *
  obtain ⟨answers, store⟩ := inMemory
  obtain ⟨answers', store'⟩ := inDatabase
  cases hstores with
  | @intro rows db' h =>
      refine ⟨rows, db', rfl, rfl, ?_⟩
      have hperm := h.perm.map StoredRow.toFeedback
      rwa [map_toFeedback_map_ofFeedback h.storable] at hperm

/-- A rating is inserted, found by its author, and counted in both. -/
theorem Store.performAll_agree_rating :
    let form : Feedback.Form :=
      { kind := "rating"
        data := some (.object [("model_id", .string "m"), ("rating", .string "1")])
        info := none
        snapshot := none }
    let id : String := "00000000-0000-4000-8000-000000000001"
    let steps : List (String × Int64 × Operation) :=
      [(id, 1, .insert "u" form), ("", 2, .find id (some "u")), ("", 3, .standings)]
    List.Forall₂ Outcome.Agree (Store.emptyMemory.performAll steps).1
      ((Store.emptyDatabase 0).performAll steps).1 := by
  intro form id steps
  have hform : Json.IsParsed form := by
    refine ⟨2, by decide, .object [(some "type", .string (some "rating")),
      (some "data", .object [(some "model_id", .string (some "m")),
        (some "rating", .string (some "1"))] true)] true, rfl⟩
  have hstable : form.IsStable := by
    intro value hvalue
    rw [List.mem_singleton.mp hvalue]
    rfl
  refine (Store.performAll_agree 0 steps ?_ ?_ ?_).1
  · simp [steps]
  · simp [steps, Operation.HasParsedContents, hform, hstable]
  · refine ⟨fun _ _ _ => List.not_mem_nil, ?_, ?_, trivial⟩
    · intro userId form heq
      cases heq
    · intro userId form heq
      cases heq

end FeedbackBoard
