import FeedbackBoard.Proofs.Database.DamagedColumns
import FeedbackBoard.Proofs.Store.Invariants

/-!
# The time of the last change

The statistics show how long ago a row was last changed.  The distance from now is
computed in 64 bits, and an imported row may say that it was changed at any time of 64
bits.  A time that lies within the distances of 64 bits is shown by its true age, or by
its date if it is later than now.  A time that lies too far back leaves the statistics
unfinished, after the numbers of rows and users.

Main definitions:

- `ShowsAge`: what should be said about a time of an age.
- `IsLastUpdate`: the latest time at which a row was changed.
- `Store.importBatches`: imports one after the other.

Main results:

- `showsAge_iff`: a text is said about an age exactly if it is the text of the distance.
- `ageText_of_lt`, `ageText_of_ge`: when the distance fits in 64 bits.
- `statistics_of_imports`: the statistics after any imports.
-/

namespace FeedbackBoard

/-! ## Ages -/

/-- What should be said about a time whose age in seconds is not negative. -/
inductive ShowsAge (age seconds : Int) : String → Prop
  | recent (below : age < 60) : ShowsAge age seconds "just now"
  | minutes (n : Int) (counted : 1 ≤ n ∧ n < 60) (least : 60 * n ≤ age)
    (below : age < 60 * (n + 1)) : ShowsAge age seconds (pastText n "min")
  | hours (n : Int) (counted : 1 ≤ n ∧ n < 24) (least : 3600 * n ≤ age)
    (below : age < 3600 * (n + 1)) : ShowsAge age seconds (pastText n "hour")
  | days (n : Int) (counted : 1 ≤ n ∧ n < 30) (least : 86400 * n ≤ age)
    (below : age < 86400 * (n + 1)) : ShowsAge age seconds (pastText n "day")
  | date (least : 86400 * 30 ≤ age) : ShowsAge age seconds (timeText seconds)

/-- What is said about an age is the text of the distance. -/
theorem showsAge_iff {age seconds : Int} (hage : 0 ≤ age) {text : String} :
    ShowsAge age seconds text ↔ text = distanceText age seconds := by
  have hday : daySeconds = 86400 := rfl
  constructor
  · intro h
    rw [distanceText, if_neg (Int.not_lt.mpr hage), hday]
    cases h with
    | recent below => rw [if_pos below]
    | minutes n counted least below =>
        have hn : age / 60 = n := by omega
        rw [if_neg (by omega), if_pos (by omega), hn]
    | hours n counted least below =>
        have hn : age / 3600 = n := by omega
        rw [if_neg (by omega), if_neg (by omega), if_pos (by omega), hn]
    | days n counted least below =>
        have hn : age / 86400 = n := by omega
        rw [if_neg (by omega), if_neg (by omega), if_neg (by omega), if_pos (by omega), hn]
    | date least =>
        rw [if_neg (by omega), if_neg (by omega), if_neg (by omega), if_neg (by omega)]
  · rintro rfl
    rw [distanceText, if_neg (Int.not_lt.mpr hage), hday]
    split
    next below => exact .recent below
    split
    next => exact .minutes (age / 60) (by omega) (by omega) (by omega)
    split
    next => exact .hours (age / 3600) (by omega) (by omega) (by omega)
    split
    next => exact .days (age / 86400) (by omega) (by omega) (by omega)
    next => exact .date (by omega)

section Distance

variable {now seconds : Int} (hnow : 0 ≤ now)
include hnow

/-- A time that lies at most `2 ^ 63 - 1` seconds back is shown by its distance from now. -/
theorem ageText_of_lt (hseconds : seconds < 2 ^ 63) (h : now - seconds < 2 ^ 63) :
    ageText now seconds = .ok (distanceText (now - seconds) seconds) :=
  if_pos ⟨by omega, h⟩

omit hnow in
/-- A time that lies farther back is not shown. -/
theorem ageText_of_ge (h : 2 ^ 63 ≤ now - seconds) : ageText now seconds = .error ⟨⟩ :=
  if_neg fun hfits => by omega

end Distance

/-! ## The last change -/

/-- The latest time at which one of the rows was changed. -/
structure IsLastUpdate (rows : List StoredRow) (time : Int64) : Prop where
  exists_row : ∃ row ∈ rows, row.updatedAt = time
  latest : ∀ row ∈ rows, row.updatedAt.toInt ≤ time.toInt

theorem toInt_laterTime (a b : Int64) : (laterTime a b).toInt = max a.toInt b.toInt := by
  rw [laterTime]
  split <;> omega

/-- The later of two times is one of them. -/
theorem laterTime_eq_or (a b : Int64) : laterTime a b = a ∨ laterTime a b = b := by
  rw [laterTime]
  split
  · exact Or.inr rfl
  · exact Or.inl rfl

/-- Taking the later time row by row finds the latest one. -/
theorem exists_latest (rows : List StoredRow) (time : Int64) :
    ∃ latest, rows.foldl (fun last row =>
        some (match last with
          | none => row.updatedAt
          | some time => laterTime time row.updatedAt)) (some time) = some latest ∧
      (latest = time ∨ ∃ row ∈ rows, row.updatedAt = latest) ∧
      time.toInt ≤ latest.toInt ∧ ∀ row ∈ rows, row.updatedAt.toInt ≤ latest.toInt := by
  induction rows generalizing time with
  | nil => exact ⟨time, rfl, Or.inl rfl, Int.le_refl _, List.forall_mem_nil _⟩
  | cons row rest ih =>
      obtain ⟨latest, hfold, horigin, hfirst, hrest⟩ := ih (laterTime time row.updatedAt)
      rw [toInt_laterTime] at hfirst
      refine ⟨latest, hfold, ?_, by omega, List.forall_mem_cons.mpr ⟨by omega, hrest⟩⟩
      rcases horigin with rfl | ⟨other, hother, hlatest⟩
      · rcases laterTime_eq_or time row.updatedAt with htime | hrow
        · exact Or.inl htime
        · exact Or.inr ⟨row, List.mem_cons_self, hrow.symm⟩
      · exact Or.inr ⟨other, List.mem_cons_of_mem row hother, hlatest⟩

/-- The overview of rows tells when the last of them was changed. -/
theorem exists_lastUpdate {rows : List StoredRow} (h : rows ≠ []) :
    ∃ newest, (Overview.ofRows rows).lastUpdate = some newest ∧ IsLastUpdate rows newest := by
  cases rows with
  | nil => exact absurd rfl h
  | cons row rest =>
      obtain ⟨latest, hfold, horigin, hfirst, hrest⟩ := exists_latest rest row.updatedAt
      refine ⟨latest, hfold, ?_, List.forall_mem_cons.mpr ⟨hfirst, hrest⟩⟩
      rcases horigin with rfl | ⟨other, hother, hlatest⟩
      · exact ⟨row, List.mem_cons_self, rfl⟩
      · exact ⟨other, List.mem_cons_of_mem row hother, hlatest⟩

/-! ## Imports -/

namespace Store

/-- The store after batches have been imported, one after the other. -/
def importBatches (batches : List (List Feedback)) (store : Store) : Store :=
  batches.foldl (fun store batch => (store.importAll batch).2) store

/-- Rows are imported into a database. -/
theorem exists_database_importAll (db : Database) (batch : List Feedback) :
    ∃ after, ((database db).importAll batch).2 = .database after := by
  rw [importAll]
  split
  · rw [restoreAll_database]
    split <;> exact ⟨_, rfl⟩
  · exact ⟨db, rfl⟩

/-- Imports into a database keep what holds of its rows and of all rows that are imported. -/
theorem exists_importBatches {P : Feedback → Prop} {batches : List (List Feedback)}
    (hbatches : ∀ batch ∈ batches, ∀ row ∈ batch, P row) {db : Database}
    (h : (database db).Holds P) :
    ∃ after, importBatches batches (.database db) = .database after ∧
      (database after).Holds P := by
  induction batches generalizing db with
  | nil => exact ⟨db, rfl, h⟩
  | cons batch rest ih =>
      obtain ⟨hbatch, hrest⟩ := List.forall_mem_cons.mp hbatches
      obtain ⟨next, hnext⟩ := exists_database_importAll db batch
      have hholds : (database next).Holds P := hnext ▸ h.importAll hbatch
      obtain ⟨after, hafter, hlast⟩ := ih hrest hholds
      refine ⟨after, ?_, hlast⟩
      rw [importBatches, List.foldl_cons, hnext]
      exact hafter

end Store

/-! ## Statistics -/

/-- The data of the row are nested no deeper than the database follows. -/
def Feedback.HasSearchableData (row : Feedback) : Prop :=
  ∀ value ∈ row.data, value.depth ≤ JsonTree.levelLimit

/-- The rows of an export are nested far less. -/
theorem Feedback.hasSearchableData_of_readExport {text : String} {rows : List Feedback}
    (h : readExport text = some rows) : ∀ row ∈ rows, row.HasSearchableData := by
  rw [readExport] at h
  cases hread : (Json.ofText text : Except Json.Fault (List Feedback)) with
  | error fault =>
      rw [hread] at h
      cases h
  | ok found =>
      rw [hread] at h
      cases h
      intro row hrow value hvalue
      have hparsed : Json.IsParsed row := (Json.isParsed_of_ofDocument hread).of_mem hrow
      have hdata := (forall_contents.mp (isContent_of_isParsed hparsed)).1
      exact (hdata value hvalue).depth_le.trans (by decide)

/-- A row has texts for the statistics if the database can look into its data. -/
theorem RatingTexts.exists_ofRow?_ofFeedback {row : Feedback} (h : row.HasSearchableData) :
    ∃ texts, ofRow? (.ofFeedback row) = some texts ∧ texts.IsLegible := by
  refine exists_ofRow? (StoredRow.dataMember?_ofFeedback h _) (StoredRow.dataMember?_ofFeedback h _)
    ?_
  cases row.data with
  | none => exact Cell.isLegible_null
  | some value => exact value.isLegible_memberCell "model_id"

/-- The models of rows are counted and shown if the database can look into their data. -/
theorem exists_modelLines {rows : List StoredRow}
    (h : AllStored Feedback.HasSearchableData rows) :
    ∃ lines, modelLines? rows = some lines ∧ ∀ line ∈ lines, line.name?.isSome :=
  exists_modelLines?_of_isLegible fun stored hstored => by
    obtain ⟨row, hrow, rfl⟩ := h stored hstored
    exact RatingTexts.exists_ofRow?_ofFeedback hrow

section Statistics

variable (path size : String) (now : Int64) (db : Database)

/-- The statistics are printed to their end, and this is said about the last change. -/
def PrintsLastUpdate (text : String) : Prop :=
  ∃ rest, statisticsOutput path size now db =
    .print (overviewText path size (.ofRows db.rows) ++ lastUpdateLine text ++ rest)

/-- The statistics end with an overflow before anything is said about the last change. -/
def StopsAtLastUpdate : Prop :=
  statisticsOutput path size now db =
    .fail .timeOverflow (overviewText path size (.ofRows db.rows))

/--
The statistics say `never` if there are no rows, and else the time of the last change:
a time up to now by its true age, and a later one by its date.  They stop there if the
change was `2 ^ 63` seconds ago or earlier.
-/
def SaysLastUpdate : Prop :=
  (db.rows = [] ∧ PrintsLastUpdate path size now db "never") ∨
    ∃ newest, IsLastUpdate db.rows newest ∧
      (now.toInt - newest.toInt < 2 ^ 63 → ∃ text, PrintsLastUpdate path size now db text ∧
        (newest.toInt ≤ now.toInt → ShowsAge (now.toInt - newest.toInt) newest.toInt text) ∧
        (now.toInt < newest.toInt → text = timeText newest.toInt)) ∧
      (2 ^ 63 ≤ now.toInt - newest.toInt → StopsAtLastUpdate path size now db)

variable {path size now db}

theorem printsLastUpdate_of_ok (h : (Store.database db).Holds Feedback.HasSearchableData)
    {text : String} (htext : lastUpdateText now (Overview.ofRows db.rows).lastUpdate = .ok text) :
    PrintsLastUpdate path size now db text := by
  obtain ⟨lines, hlines, hshown⟩ := exists_modelLines h.2
  refine ⟨kindText (kindLines db.rows) ++ modelText lines ++ "\n", ?_⟩
  rw [statisticsOutput, if_pos h.1]
  simp only [htext, hlines, if_pos hshown, String.append_assoc]

theorem stopsAtLastUpdate_of_error (hready : db.isReady = true)
    (htext : lastUpdateText now (Overview.ofRows db.rows).lastUpdate = .error ⟨⟩) :
    StopsAtLastUpdate path size now db := by
  rw [StopsAtLastUpdate, statisticsOutput, if_pos hready]
  simp only [htext]

/-- Rows that the database can look into have complete statistics unless a distance overflows. -/
theorem saysLastUpdate_of_holds (h : (Store.database db).Holds Feedback.HasSearchableData)
    (hnow : 0 ≤ now.toInt) : SaysLastUpdate path size now db := by
  by_cases hrows : db.rows = []
  · refine Or.inl ⟨hrows, printsLastUpdate_of_ok h ?_⟩
    rw [hrows]
    rfl
  · obtain ⟨newest, hoverview, hnewest⟩ := exists_lastUpdate hrows
    refine Or.inr ⟨newest, hnewest, fun hlt => ?_, fun hge => ?_⟩
    · refine ⟨distanceText (now.toInt - newest.toInt) newest.toInt,
        printsLastUpdate_of_ok h ?_, fun hpast => ?_, fun hfuture => ?_⟩
      · rw [hoverview]
        exact ageText_of_lt hnow newest.toInt_lt hlt
      · exact (showsAge_iff (by omega)).mpr rfl
      · exact if_pos (by omega)
    · refine stopsAtLastUpdate_of_error h.1 ?_
      rw [hoverview]
      exact ageText_of_ge hge

end Statistics

/--
What the statistics say after any rows have been imported, in any batches, into a fresh
database.  They say when the last of the rows was changed, by its true age or by its
date, if that was less than `2 ^ 63` seconds ago; otherwise they end there.
-/
theorem statistics_of_imports {batches : List (List Feedback)}
    (hdata : ∀ batch ∈ batches, ∀ row ∈ batch, row.HasSearchableData) {now : Int64}
    (hnow : 0 ≤ now.toInt) (migrated : Int64) (path size : String) :
    ∃ db, (Store.emptyDatabase migrated).importBatches batches = .database db ∧
      SaysLastUpdate path size now db := by
  obtain ⟨fresh, hfresh, hready, -, hrows⟩ := Store.exists_emptyDatabase migrated
  have hempty : (Store.database fresh).Holds Feedback.HasSearchableData := by
    refine ⟨hready, fun stored hstored => ?_⟩
    rw [hrows] at hstored
    exact absurd hstored List.not_mem_nil
  obtain ⟨db, hdb, hholds⟩ := Store.exists_importBatches hdata hempty
  rw [hfresh]
  exact ⟨db, hdb, saysLastUpdate_of_holds hholds hnow⟩

/--
A row that was changed a minute ago is said to be, one that was changed `2 ^ 63 - 1` seconds
ago is shown by its time, and one second more stops the statistics.
-/
theorem statistics_of_imports_extremes :
    let row (time : Int64) : Feedback := ⟨"a", "u", 0, "rating", none, none, none, 0, time⟩
    let imported (time : Int64) : Database :=
      { (Database.empty.migrate 0).2 with rows := [.ofFeedback (row time)] }
    (∀ time, (Store.emptyDatabase 0).importBatches [[row time]] = .database (imported time)) ∧
      PrintsLastUpdate "board" "*" 1700000000 (imported 1699999940) "1 min ago" ∧
      PrintsLastUpdate "board" "*" 0 (imported (-9223372036854775807)) "-9223372036854775807" ∧
      StopsAtLastUpdate "board" "*" 0 (imported (-9223372036854775808)) := by
  intro row imported
  have himported : ∀ time,
      (Store.emptyDatabase 0).importBatches [[row time]] = .database (imported time) :=
    fun _ => rfl
  have hdata : ∀ time, ∀ batch ∈ [[row time]], ∀ row ∈ batch, row.HasSearchableData := by
    intro time
    simp only [List.forall_mem_singleton]
    exact fun _ hvalue => by cases hvalue
  have hreport : ∀ now time : Int64, 0 ≤ now.toInt →
      (now.toInt - time.toInt < 2 ^ 63 → ∃ text,
        PrintsLastUpdate "board" "*" now (imported time) text ∧
          (time.toInt ≤ now.toInt → text = distanceText (now.toInt - time.toInt) time.toInt)) ∧
        (2 ^ 63 ≤ now.toInt - time.toInt → StopsAtLastUpdate "board" "*" now (imported time)) := by
    intro now time hnow
    obtain ⟨db, hdb, hreport⟩ := statistics_of_imports (hdata time) hnow 0 "board" "*"
    cases (himported time).symm.trans hdb
    rcases hreport with ⟨hnone, -⟩ | ⟨newest, hnewest, hlt, hge⟩
    · cases hnone
    · obtain ⟨stored, hstored, rfl⟩ := hnewest.exists_row
      cases List.mem_singleton.mp hstored
      refine ⟨fun h => ?_, hge⟩
      obtain ⟨text, hprints, hage, -⟩ := hlt h
      exact ⟨text, hprints, fun hpast => (showsAge_iff (by omega)).mp (hage hpast)⟩
  refine ⟨himported, ?_, ?_, (hreport 0 _ (by decide)).2 (by decide)⟩
  · obtain ⟨text, hprints, htext⟩ := (hreport 1700000000 1699999940 (by decide)).1 (by decide)
    have hminute := htext (by decide)
    rwa [hminute, show distanceText _ _ = "1 min ago" by decide] at hprints
  · obtain ⟨text, hprints, htext⟩ := (hreport 0 (-9223372036854775807) (by decide)).1 (by decide)
    have hnumber := htext (by decide)
    rwa [hnumber, show distanceText _ _ = "-9223372036854775807" by decide] at hprints

end FeedbackBoard
