import FeedbackBoard.Command.Run
import FeedbackBoard.Proofs.Database.LenientTrees
import FeedbackBoard.Proofs.Store.Pages

/-!
# Damaged columns

The columns of a row that hold free contents may hold any text.  A text that is
no JSON is read as if it were not there, so a row looks like the *mended* row, in
which nothing stands for such a text.

Listings, lookups and reviews read a column only where they show it, and a damaged
column changes nothing else.  Pages by model or by vote and the statistics look
into the data with database expressions: these refuse a text that is not even
lenient JSON, and find contents in a text that is lenient JSON only.  In such a text
half of a surrogate pair may stand alone; the statistics end where a model has such
a name.

Main definitions:

- `StoredRow.mended`, `Database.mended`: nothing stands for a text that is no JSON.
- `Store.ReadsAlike`: two stores answer lookups, listings and reviews alike.
- `RatingTexts.IsLegible`: the model of a rating can be shown.

Main results:

- `StoredRow.exists_dataMember?_mended`: database expressions see into mended rows.
- `Store.pages_mended_iff`: when pages are those of the mended rows.
- `Database.reads_mended`: all readings of a database with damaged columns.
- `Database.answersAlike_of_intact`: nothing is lost where only other columns than the data are
  damaged.
-/

namespace FeedbackBoard

/-! ## Mending -/

/-- The text, if it is JSON. -/
def intactText (text : Option String) : Option String :=
  text.filter fun text => (Json.readValue? text).isSome

/-- The row with nothing for every text that is no JSON. -/
def StoredRow.mended (row : StoredRow) : StoredRow :=
  { row with
    data := intactText row.data
    info := intactText row.info
    snapshot := intactText row.snapshot }

/-- The database with nothing for every text that is no JSON. -/
def Database.mended (db : Database) : Database :=
  { db with rows := db.rows.map StoredRow.mended }

/-- A text that is no JSON is read as if it were not there. -/
theorem storedContent_intactText (text : Option String) :
    storedContent (intactText text) = storedContent text := by
  cases text with
  | none => rfl
  | some text =>
      rw [intactText, Option.filter_some]
      split
      next => rfl
      next h => exact (Option.not_isSome_iff_eq_none.mp h).symm

namespace StoredRow

/-- A mended row looks as the row does. -/
theorem toFeedback_comp_mended : toFeedback ∘ mended = toFeedback := by
  funext row
  simp only [Function.comp_apply, toFeedback, mended, storedContent_intactText]

theorem payload_comp_mended : payload ∘ mended = payload := by
  funext row
  simp only [Function.comp_apply, payload, mended, storedContent_intactText]

theorem stamp_comp_mended : stamp ∘ mended = stamp :=
  rfl

/-- Database expressions see into mended rows, and what they find can be shown. -/
theorem exists_dataMember?_mended (row : StoredRow) (key : String) :
    ∃ cell, row.mended.dataMember? key = some cell ∧ cell.IsLegible := by
  rw [dataMember?]
  split
  next => exact ⟨.null, rfl, Cell.isLegible_null⟩
  next text htext =>
    obtain ⟨-, hread⟩ := Option.filter_eq_some_iff.mp htext
    obtain ⟨tree, htree, hlegible⟩ := JsonTree.exists_ofText?_of_readValue? hread
    rw [htree]
    exact hlegible.member key

theorem isSome_dataMember?_mended (row : StoredRow) (key : String) :
    (row.mended.dataMember? key).isSome :=
  Option.isSome_iff_exists.mpr ((exists_dataMember?_mended row key).imp fun _ => And.left)

/-- Mended rows can be ordered by every field. -/
theorem isSome_pageCell?_mended (row : StoredRow) (field : SortField) :
    (row.mended.pageCell? field).isSome := by
  cases field with
  | model => exact isSome_dataMember?_mended row "model_id"
  | rating => exact isSome_dataMember?_mended row "rating"
  | createdAt | updatedAt => rfl

/-- A row whose data are intact is ordered as the mended row is. -/
theorem pageCell?_mended {row : StoredRow} (h : row.mended.data = row.data) (field : SortField) :
    row.mended.pageCell? field = row.pageCell? field := by
  cases field with
  | model | rating => rw [pageCell?, pageCell?, dataMember?, dataMember?, h]
  | createdAt | updatedAt => rfl

end StoredRow

/-! ## Lookups, listings and reviews -/

/-- Both succeed, with the same result. -/
def Store.AnswersAlike {α : Type} (first second : Except StoreError α) : Prop :=
  ∃ result, first = .ok result ∧ second = .ok result

/-- Both stores answer every lookup, every listing and all reviews, and answer them alike. -/
structure Store.ReadsAlike (store other : Store) : Prop where
  find : ∀ id owner, AnswersAlike (store.find id owner) (other.find id owner)
  newest : AnswersAlike store.newest other.newest
  newestOf : ∀ user, AnswersAlike (store.newestOf user) (other.newestOf user)
  stamps : AnswersAlike store.stamps other.stamps
  ratings : AnswersAlike store.ratings other.ratings
  standings : AnswersAlike store.standings other.standings

namespace Database

variable {db : Database}

theorem isReady_mended (h : db.isReady = true) : db.mended.isReady = true :=
  h

/-- A filter accepts a mended row as it accepts the row. -/
theorem accepts_comp_mended (filter : RowFilter) :
    filter.accepts ∘ StoredRow.mended = filter.accepts := by
  funext row
  cases filter <;> rfl

/-- Mended rows are listed in the places of the rows. -/
theorem newestFirst_mended (filter : RowFilter) (rows : List StoredRow) :
    StoredRow.newestFirst ((rows.map StoredRow.mended).filter filter.accepts) =
      (StoredRow.newestFirst (rows.filter filter.accepts)).map StoredRow.mended := by
  rw [List.filter_map, accepts_comp_mended]
  exact (List.map_mergeSort (f := StoredRow.mended) fun _ _ _ _ => rfl).symm

variable (hready : db.isReady = true)
include hready

/-- A damaged column is not there in listings, and nothing else changes. -/
theorem answersAlike_newest (filter : RowFilter) :
    Store.AnswersAlike (Store.answerOf (.newest filter) db)
      (Store.answerOf (.newest filter) db.mended) := by
  rw [Store.answerOf_newest, Store.answerOf_newest, if_pos hready, if_pos (isReady_mended hready)]
  refine ⟨_, rfl, ?_⟩
  rw [mended, newestFirst_mended, List.map_map, StoredRow.toFeedback_comp_mended]

/-- The data of a rating are not there if they are damaged, and nothing else changes. -/
theorem answersAlike_ratings :
    Store.AnswersAlike (Store.database db).ratings (Store.database db.mended).ratings := by
  rw [Store.ratings_database, Store.ratings_database, if_pos hready,
    if_pos (isReady_mended hready)]
  refine ⟨_, rfl, ?_⟩
  rw [mended, List.filter_map, List.map_map, StoredRow.payload_comp_mended]
  rfl

/-- A damaged column is not there in lookups, listings and reviews, and nothing else changes. -/
theorem readsAlike_mended : (Store.database db).ReadsAlike (.database db.mended) where
  find id owner := by
    rw [Store.find_database, Store.find_database, if_pos hready, if_pos (isReady_mended hready)]
    refine ⟨_, rfl, ?_⟩
    rw [mended, List.find?_map, accepts_comp_mended, Option.map_map,
      StoredRow.toFeedback_comp_mended]
  newest := answersAlike_newest hready .all
  newestOf user := answersAlike_newest hready (.user user)
  stamps := by
    rw [Store.stamps_database, Store.stamps_database, if_pos hready,
      if_pos (isReady_mended hready)]
    refine ⟨_, rfl, ?_⟩
    rw [mended, newestFirst_mended, List.map_map, StoredRow.stamp_comp_mended]
  ratings := answersAlike_ratings hready
  standings := by
    obtain ⟨payloads, hfirst, hsecond⟩ := answersAlike_ratings hready
    rw [Store.standings, Store.standings, hfirst, hsecond]
    exact ⟨_, rfl, rfl⟩

end Database

/-! ## Pages -/

/-- How mended rows are compared. -/
def StoredRow.compareMended (field : SortField) (a b : StoredRow) : Ordering :=
  compareCell field a.mended b.mended

instance (field : SortField) : Std.TransCmp (StoredRow.compareMended field) :=
  transCmp_on StoredRow.mended (StoredRow.compareCell field)

namespace Store

variable {db : Database} (hready : db.isReady = true)
include hready

/-- Every page of mended rows is shown; the rows look as they do in the database. -/
theorem page_mended (query : PageQuery) :
    (Store.database db.mended).page query =
      .ok
        { items := (pageSlice query (db.rows.mergeSort fun a b =>
            (query.direction.order (StoredRow.compareMended query.field)
              StoredRow.id a b).isLE)).map StoredRow.toFeedback
          total := db.rows.length } := by
  have hcells : ∀ row ∈ db.mended.rows, (row.pageCell? query.field).isSome := by
    intro row hrow
    obtain ⟨origin, -, rfl⟩ := List.mem_map.mp hrow
    exact origin.isSome_pageCell?_mended query.field
  have hsorted := List.map_mergeSort (f := StoredRow.mended) (l := db.rows)
    (s := fun a b => (query.direction.order (StoredRow.compareCell query.field)
      StoredRow.id a b).isLE)
    (r := fun a b => (query.direction.order (StoredRow.compareMended query.field)
      StoredRow.id a b).isLE) fun _ _ _ _ => rfl
  rw [page_of_isSome (Database.isReady_mended hready) hcells, Database.mended, ← hsorted,
    List.length_map]
  simp only [pageSlice, ← List.map_drop, ← List.map_take, List.map_map,
    StoredRow.toFeedback_comp_mended]

/--
Pages by a field are those of the mended rows exactly if every row can be ordered by
it, and any two rows are ordered as the mended rows are.
-/
theorem pages_mended_iff (hdistinct : DistinctIds StoredRow.id db.rows) (field : SortField) :
    (∀ query : PageQuery, query.field = field →
        AnswersAlike ((Store.database db).page query) ((Store.database db.mended).page query)) ↔
      (∀ row ∈ db.rows, (row.pageCell? field).isSome) ∧
        ∀ a ∈ db.rows, ∀ b ∈ db.rows,
          StoredRow.compareCell field a b = StoredRow.compareMended field a b := by
  rw [← Direction.sorted_eq_iff hdistinct]
  constructor
  · intro hpages
    have hcells : ∀ row ∈ db.rows, (row.pageCell? field).isSome := by
      intro row hrow
      by_contra hnone
      obtain ⟨page, hpage, -⟩ := hpages ⟨field, .ascending, 0, 1⟩ rfl
      rw [page_of_none hready hrow (Option.not_isSome_iff_eq_none.mp hnone) Int.one_pos] at hpage
      cases hpage
    refine ⟨hcells, fun direction => ?_⟩
    obtain ⟨page, hpage, hmended⟩ := hpages ⟨field, direction, 0, db.rows.length⟩ rfl
    rw [page_of_isSome hready hcells] at hpage
    rw [page_mended hready] at hmended
    have hitems := congrArg Page.items (Except.ok.inj (hpage.trans hmended.symm))
    simp only [PageQuery.pageSlice_all _ _ (List.length_mergeSort _)] at hitems
    have hids := congrArg (List.map Feedback.id) hitems
    simp only [List.map_map] at hids
    exact hdistinct.eq_of_map_id_eq (fun _ => List.mem_mergeSort.mp)
      (fun _ => List.mem_mergeSort.mp) hids
  · rintro ⟨hcells, hsorted⟩ query rfl
    rw [page_of_isSome hready hcells, page_mended hready, hsorted query.direction]
    exact ⟨_, rfl, rfl⟩

end Store

/-! ## Statistics -/

/-- The name of the model, if there is one, can be shown. -/
def RatingTexts.IsLegible (texts : RatingTexts) : Prop :=
  ∀ codes ∈ texts.model, codes.IsText

instance (texts : RatingTexts) : Decidable texts.IsLegible :=
  inferInstanceAs (Decidable (∀ codes ∈ texts.model, codes.IsText))

/-- What is written for a value can be shown. -/
theorem Json.Value.isLegible_cell (value : Value) : value.cell.IsLegible := by
  cases value with
  | null => exact Cell.isLegible_null
  | bool b => exact Cell.isLegible_integer _
  | number n => exact Cell.isLegible_ofNumeral n.numeral
  | string text => exact Cell.isLegible_text (CodePoints.isText_ofChars _)
  | array _ | object _ => exact Cell.isLegible_text (CodePoints.isText_ofChars _)

/-- So can what is written for a member. -/
theorem Json.Value.isLegible_memberCell (key : String) (value : Value) :
    (value.memberCell key).IsLegible := by
  cases value with
  | null | bool _ | number _ | string _ | array _ => exact Cell.isLegible_null
  | object members =>
      rw [memberCell]
      split
      next member _ => exact member.2.isLegible_cell
      next => exact Cell.isLegible_null

namespace RatingTexts

/-- The model of a row can be shown if the cell of its name can be. -/
theorem exists_ofRow? {row : StoredRow} {model vote : Cell}
    (hmodel : row.dataMember? "model_id" = some model)
    (hvote : row.dataMember? "rating" = some vote) (hlegible : model.IsLegible) :
    ∃ texts, ofRow? row = some texts ∧ texts.IsLegible := by
  refine ⟨⟨model.text?, vote.text?⟩, ?_, hlegible⟩
  rw [ofRow?, hmodel, hvote]

/-- A row has texts for the statistics once it is mended, and its model can be shown. -/
theorem exists_ofRow?_mended (row : StoredRow) :
    ∃ texts, ofRow? row.mended = some texts ∧ texts.IsLegible := by
  obtain ⟨model, hmodel, hlegible⟩ := row.exists_dataMember?_mended "model_id"
  obtain ⟨vote, hvote, -⟩ := row.exists_dataMember?_mended "rating"
  exact exists_ofRow? hmodel hvote hlegible

end RatingTexts

/-- The overview does not look at contents. -/
theorem Overview.ofRows_mended (rows : List StoredRow) :
    ofRows (rows.map StoredRow.mended) = ofRows rows := by
  rw [ofRows, ofRows, List.length_map, List.map_map, List.foldl_map]
  rfl

/-- Nor do the lines of kinds. -/
theorem kindLines_mended (rows : List StoredRow) :
    kindLines (rows.map StoredRow.mended) = kindLines rows := by
  simp only [kindLines, List.map_map, List.countP_map]
  rfl

/-- The models cannot be counted exactly if the data of a rating cannot be looked into. -/
theorem modelLines?_eq_none_iff (rows : List StoredRow) :
    modelLines? rows = none ↔
      ∃ row ∈ rows, row.kind = Feedback.ratingKind ∧ RatingTexts.ofRow? row = none := by
  have hnone : modelLines? rows = none ↔
      (rows.filter fun row => row.kind == Feedback.ratingKind).mapM RatingTexts.ofRow? = none := by
    unfold modelLines?
    split <;> simp_all
  rw [hnone, mapM_eq_none_iff]
  simp only [List.mem_filter, beq_iff_eq, and_assoc]

/-- The lines are those of the models that the texts name. -/
theorem mem_modelLines_iff {rows : List StoredRow} {texts : List RatingTexts}
    {lines : List ModelLine}
    (htexts : (rows.filter fun row => row.kind == Feedback.ratingKind).mapM RatingTexts.ofRow? =
      some texts) (hlines : modelLines? rows = some lines) (line : ModelLine) :
    line ∈ lines ↔ ∃ entry ∈ texts, ModelLine.ofTexts texts entry.model = line := by
  rw [modelLines?, htexts] at hlines
  cases hlines
  simp [List.mem_mergeSort, List.mem_eraseDups]

theorem ModelLine.isSome_name?_iff (texts : List RatingTexts) (entry : RatingTexts) :
    (ofTexts texts entry.model).name?.isSome ↔ entry.IsLegible := by
  obtain ⟨_ | codes, vote⟩ := entry
  · exact iff_of_true rfl fun _ hcodes => by cases hcodes
  · have hname : (ofTexts texts (some codes)).name? = codes.text? := rfl
    simp [hname, CodePoints.isSome_text?_iff, RatingTexts.IsLegible]

/-- All lines can be shown exactly if the model of every rating can be. -/
theorem forall_isSome_name?_iff {rows : List StoredRow} {lines : List ModelLine}
    (hlines : modelLines? rows = some lines) :
    (∀ line ∈ lines, line.name?.isSome) ↔
      ∀ row ∈ rows, row.kind = Feedback.ratingKind → ∀ texts ∈ RatingTexts.ofRow? row,
        texts.IsLegible := by
  obtain ⟨texts, htexts⟩ : ∃ texts,
      (rows.filter fun row => row.kind == Feedback.ratingKind).mapM RatingTexts.ofRow? =
        some texts := by
    rw [modelLines?] at hlines
    split at hlines
    next => cases hlines
    next texts htexts => exact ⟨texts, htexts⟩
  have hentries : (∀ line ∈ lines, line.name?.isSome) ↔ ∀ entry ∈ texts, entry.IsLegible := by
    simp only [mem_modelLines_iff htexts hlines]
    constructor
    · intro h entry hentry
      exact (ModelLine.isSome_name?_iff texts entry).mp (h _ ⟨entry, hentry, rfl⟩)
    · rintro h _ ⟨entry, hentry, rfl⟩
      exact (ModelLine.isSome_name?_iff texts entry).mpr (h entry hentry)
  rw [hentries]
  simp only [mem_mapM_iff htexts, List.mem_filter, beq_iff_eq]
  constructor
  · intro h row hrow hkind entry hentry
    exact h entry ⟨row, ⟨hrow, hkind⟩, hentry⟩
  · rintro h entry ⟨row, ⟨hrow, hkind⟩, hentry⟩
    exact h row hrow hkind entry hentry

/-- The models are counted, and all of them can be shown, if those of all rows can be. -/
theorem exists_modelLines?_of_isLegible {rows : List StoredRow}
    (h : ∀ row ∈ rows, ∃ texts, RatingTexts.ofRow? row = some texts ∧ texts.IsLegible) :
    ∃ lines, modelLines? rows = some lines ∧ ∀ line ∈ lines, line.name?.isSome := by
  obtain ⟨lines, hlines⟩ : ∃ lines, modelLines? rows = some lines := by
    rw [← Option.ne_none_iff_exists', Ne, modelLines?_eq_none_iff]
    rintro ⟨row, hrow, -, hnone⟩
    obtain ⟨texts, htexts, -⟩ := h row hrow
    cases hnone.symm.trans htexts
  refine ⟨lines, hlines, (forall_isSome_name?_iff hlines).mpr fun row hrow _ texts htexts => ?_⟩
  obtain ⟨found, hfound, hlegible⟩ := h row hrow
  cases hfound.symm.trans htexts
  exact hlegible

/-- So they are for the mended rows. -/
theorem exists_modelLines?_mended (rows : List StoredRow) :
    ∃ lines, modelLines? (rows.map StoredRow.mended) = some lines ∧
      ∀ line ∈ lines, line.name?.isSome :=
  exists_modelLines?_of_isLegible fun row hrow => by
    obtain ⟨origin, -, rfl⟩ := List.mem_map.mp hrow
    exact RatingTexts.exists_ofRow?_mended origin

/-- Two functions that agree on members give one result for both lists. -/
theorem mapM_map_congr {α β γ : Type} {f : α → Option β} {g : γ → Option β} {k : α → γ}
    {l : List α} (h : ∀ a ∈ l, g (k a) = f a) : (l.map k).mapM g = l.mapM f := by
  induction l with
  | nil => rfl
  | cons a rest ih =>
      rw [List.map_cons, List.mapM_cons, List.mapM_cons, h a List.mem_cons_self,
        ih fun b hb => h b (List.mem_cons_of_mem a hb)]

/-- If the ratings show the texts of the mended ratings, the models are counted alike. -/
theorem modelLines?_mended {rows : List StoredRow}
    (h : ∀ row ∈ rows, row.kind = Feedback.ratingKind →
      RatingTexts.ofRow? row = RatingTexts.ofRow? row.mended) :
    modelLines? (rows.map StoredRow.mended) = modelLines? rows := by
  have htexts : ((rows.filter fun row => row.kind == Feedback.ratingKind).map
      StoredRow.mended).mapM RatingTexts.ofRow? =
        (rows.filter fun row => row.kind == Feedback.ratingKind).mapM RatingTexts.ofRow? := by
    refine mapM_map_congr fun row hrow => ?_
    obtain ⟨hmem, hkind⟩ := List.mem_filter.mp hrow
    exact (h row hmem (beq_iff_eq.mp hkind)).symm
  rw [modelLines?, modelLines?, List.filter_map, ← htexts]
  rfl

variable {db : Database} (path size : String) (now : Int64)

/-- The statistics of mended rows differ in the models at most. -/
theorem statisticsOutput_mended
    (h : modelLines? (db.rows.map StoredRow.mended) = modelLines? db.rows) :
    statisticsOutput path size now db.mended = statisticsOutput path size now db := by
  simp only [statisticsOutput, Database.mended, Database.isReady, Overview.ofRows_mended,
    kindLines_mended, h]
  rfl

/-- How the statistics end after the last change. -/
theorem failure_statisticsOutput {last : String} (hready : db.isReady = true)
    (hlast : lastUpdateText now (Overview.ofRows db.rows).lastUpdate = .ok last) :
    (statisticsOutput path size now db).failure =
      match modelLines? db.rows with
      | none => some .database
      | some lines => if ∀ line ∈ lines, line.name?.isSome then none else some .illegibleModel := by
  rw [statisticsOutput, if_pos hready]
  simp only [hlast]
  cases modelLines? db.rows with
  | none => rfl
  | some lines =>
      simp only
      split <;> rfl

/-- They end before that if too much time has passed. -/
theorem failure_statisticsOutput_of_error (hready : db.isReady = true)
    (hlate : lastUpdateText now (Overview.ofRows db.rows).lastUpdate = .error ⟨⟩) :
    (statisticsOutput path size now db).failure = some .timeOverflow := by
  rw [statisticsOutput, if_pos hready]
  simp only [hlate]
  rfl

/--
The statistics are refused exactly if the data of a rating cannot be looked into,
unless they fail before that because too much time has passed.
-/
theorem failure_statisticsOutput_iff (hready : db.isReady = true) :
    (statisticsOutput path size now db).failure = some .database ↔
      (∃ text, lastUpdateText now (Overview.ofRows db.rows).lastUpdate = .ok text) ∧
        ∃ row ∈ db.rows, row.kind = Feedback.ratingKind ∧ RatingTexts.ofRow? row = none := by
  rw [← modelLines?_eq_none_iff]
  cases hlast : lastUpdateText now (Overview.ofRows db.rows).lastUpdate with
  | error late => simp [failure_statisticsOutput_of_error path size now hready hlast]
  | ok last =>
      rw [failure_statisticsOutput path size now hready hlast]
      cases hlines : modelLines? db.rows with
      | none => simp
      | some lines =>
          simp only
          split <;> simp

/--
They end in the table of models exactly if the data of all ratings can be looked into, but
one names a model that cannot be shown.
-/
theorem failure_statisticsOutput_illegible_iff (hready : db.isReady = true) :
    (statisticsOutput path size now db).failure = some .illegibleModel ↔
      (∃ text, lastUpdateText now (Overview.ofRows db.rows).lastUpdate = .ok text) ∧
        (∀ row ∈ db.rows, row.kind = Feedback.ratingKind → RatingTexts.ofRow? row ≠ none) ∧
        ∃ row ∈ db.rows, row.kind = Feedback.ratingKind ∧
          ∃ texts ∈ RatingTexts.ofRow? row, ¬ texts.IsLegible := by
  have hcounted : (∀ row ∈ db.rows, row.kind = Feedback.ratingKind →
      RatingTexts.ofRow? row ≠ none) ↔ modelLines? db.rows ≠ none := by
    rw [Ne, modelLines?_eq_none_iff]
    simp only [not_exists, not_and, Ne]
  rw [hcounted]
  cases hlast : lastUpdateText now (Overview.ofRows db.rows).lastUpdate with
  | error late => simp [failure_statisticsOutput_of_error path size now hready hlast]
  | ok last =>
      rw [failure_statisticsOutput path size now hready hlast]
      cases hlines : modelLines? db.rows with
      | none => simp
      | some lines =>
          simp only [forall_isSome_name?_iff hlines]
          split
          next hlegible => simpa using hlegible
          next hillegible => simpa using hillegible

/-! ## All readings -/

namespace Database

/-- Where the data are intact all pages and the statistics are those of the mended rows. -/
theorem answersAlike_of_intact {db : Database} (hready : db.isReady = true)
    (hdistinct : DistinctIds StoredRow.id db.rows)
    (hintact : ∀ row ∈ db.rows, row.mended.data = row.data) :
    (∀ query, Store.AnswersAlike ((Store.database db).page query)
        ((Store.database db.mended).page query)) ∧
      ∀ path size now,
        statisticsOutput path size now db.mended = statisticsOutput path size now db := by
  constructor
  · intro query
    refine (Store.pages_mended_iff hready hdistinct query.field).mpr ⟨?_, ?_⟩ query rfl
    · intro row hrow
      rw [← StoredRow.pageCell?_mended (hintact row hrow)]
      exact row.isSome_pageCell?_mended query.field
    · intro a ha b hb
      rw [StoredRow.compareMended, StoredRow.compareCell, StoredRow.compareCell,
        StoredRow.pageCell, StoredRow.pageCell, StoredRow.pageCell, StoredRow.pageCell,
        StoredRow.pageCell?_mended (hintact a ha), StoredRow.pageCell?_mended (hintact b hb)]
  · intro path size now
    refine statisticsOutput_mended path size now (modelLines?_mended fun row hrow _ => ?_)
    rw [RatingTexts.ofRow?, RatingTexts.ofRow?, StoredRow.dataMember?, StoredRow.dataMember?,
      StoredRow.dataMember?, StoredRow.dataMember?, hintact row hrow]

/--
What a database shows whose columns hold any texts.  Lookups, listings, reviews and
pages by a time always succeed and show the mended rows.  All pages by a field do so
exactly if every row can be ordered by the field and any two are ordered as the mended
rows are.  The statistics are refused exactly if the data of a rating cannot be looked
into; otherwise they end in the table of models exactly if one has a name that cannot be
shown; and they are those of the mended rows if every rating has the texts of the mended
rating.  The statistics of the mended rows do neither.  Where all data are intact,
whatever the other columns hold, every reading is that of the mended rows.
-/
theorem reads_mended (db : Database) (hready : db.isReady = true)
    (hdistinct : DistinctIds StoredRow.id db.rows) :
    (Store.database db).ReadsAlike (.database db.mended) ∧
      (∀ query : PageQuery, query.field = .createdAt ∨ query.field = .updatedAt →
        Store.AnswersAlike ((Store.database db).page query)
          ((Store.database db.mended).page query)) ∧
      (∀ field,
        (∀ query : PageQuery, query.field = field →
            Store.AnswersAlike ((Store.database db).page query)
              ((Store.database db.mended).page query)) ↔
          (∀ row ∈ db.rows, (row.pageCell? field).isSome) ∧
            ∀ a ∈ db.rows, ∀ b ∈ db.rows,
              StoredRow.compareCell field a b = StoredRow.compareMended field a b) ∧
      (∀ path size now,
        let printed := statisticsOutput path size now db
        let mended := statisticsOutput path size now db.mended
        (mended.failure ≠ some .database ∧ mended.failure ≠ some .illegibleModel) ∧
          (printed.failure = some .database ↔
            (∃ text, lastUpdateText now (Overview.ofRows db.rows).lastUpdate = .ok text) ∧
              ∃ row ∈ db.rows,
                row.kind = Feedback.ratingKind ∧ RatingTexts.ofRow? row = none) ∧
          (printed.failure = some .illegibleModel ↔
            (∃ text, lastUpdateText now (Overview.ofRows db.rows).lastUpdate = .ok text) ∧
              (∀ row ∈ db.rows, row.kind = Feedback.ratingKind → RatingTexts.ofRow? row ≠ none) ∧
              ∃ row ∈ db.rows, row.kind = Feedback.ratingKind ∧
                ∃ texts ∈ RatingTexts.ofRow? row, ¬ texts.IsLegible) ∧
          ((∀ row ∈ db.rows, row.kind = Feedback.ratingKind →
              RatingTexts.ofRow? row = RatingTexts.ofRow? row.mended) → mended = printed)) ∧
      ((∀ row ∈ db.rows, row.mended.data = row.data) →
        (∀ query, Store.AnswersAlike ((Store.database db).page query)
            ((Store.database db.mended).page query)) ∧
          ∀ path size now,
            statisticsOutput path size now db.mended = statisticsOutput path size now db) := by
  refine ⟨readsAlike_mended hready, ?_, Store.pages_mended_iff hready hdistinct,
    fun path size now => ⟨?_, failure_statisticsOutput_iff path size now hready,
      failure_statisticsOutput_illegible_iff path size now hready, fun htexts =>
        statisticsOutput_mended path size now (modelLines?_mended htexts)⟩,
    answersAlike_of_intact hready hdistinct⟩
  · intro query hfield
    refine (Store.pages_mended_iff hready hdistinct query.field).mpr ?_ query rfl
    rcases hfield with hfield | hfield
    all_goals
      rw [hfield]
      exact ⟨fun _ _ => rfl, fun _ _ _ _ => rfl⟩
  · obtain ⟨lines, hlines, hshown⟩ := exists_modelLines?_mended db.rows
    have hmended := isReady_mended hready
    cases hlast : lastUpdateText now (Overview.ofRows db.mended.rows).lastUpdate with
    | error late => simp [failure_statisticsOutput_of_error path size now hmended hlast]
    | ok last =>
        have hcounted : modelLines? db.mended.rows = some lines := hlines
        simp [failure_statisticsOutput path size now hmended hlast, hcounted, if_pos hshown]

/--
A rating whose data are no JSON keeps pages by model from being shown, and the
statistics; one whose data are lenient JSON is ordered by contents that it does not show.
One that names its model by half of a surrogate pair ends the statistics.  One whose
damaged column is another one than the data is shown on every page.
-/
theorem reads_mended_damaged :
    let rating (id data : String) : StoredRow :=
      { id := id
        userId := "u"
        version := 0
        kind := "rating"
        data := some data
        info := none
        snapshot := none
        createdAt := 0
        updatedAt := 0 }
    let holding (rows : List StoredRow) : Database := { (empty.migrate 0).2 with rows }
    let ShownByModel (db : Database) : Prop :=
      ∀ query : PageQuery, query.field = .model →
        Store.AnswersAlike ((Store.database db).page query) ((Store.database db.mended).page query)
    let broken := holding [rating "a" "\x7bnot json"]
    let lenient := holding
      [rating "a" "\x7bmodel_id:\"z\"\x7d", rating "b" "\x7b\"model_id\":\"m\"\x7d"]
    let half := holding [rating "a" "\x7b\"model_id\":\"\\ud800\"\x7d"]
    let elsewhere := holding
      [{ rating "a" "\x7b\"model_id\":\"m\"\x7d" with info := some "\x7bnot json" }]
    (Store.database broken).ReadsAlike (.database broken.mended) ∧ ¬ ShownByModel broken ∧
      (statisticsOutput "" "" 0 broken).failure = some .database ∧
      (Store.database half).ReadsAlike (.database half.mended) ∧
      (statisticsOutput "" "" 0 half).failure = some .illegibleModel ∧
      (statisticsOutput "" "" 0 half.mended).failure ≠ some .illegibleModel ∧
      (Store.database lenient).ReadsAlike (.database lenient.mended) ∧
      ¬ ShownByModel lenient ∧ ShownByModel elsewhere := by
  intro rating holding ShownByModel broken lenient half elsewhere
  have hbroken := reads_mended broken (by decide +kernel) (List.nodup_singleton "a")
  have hlenient := reads_mended lenient (by decide +kernel)
    (show ["a", "b"].Nodup by decide)
  have hhalf := reads_mended half (by decide +kernel) (List.nodup_singleton "a")
  have helsewhere := reads_mended elsewhere (by decide +kernel) (List.nodup_singleton "a")
  obtain ⟨⟨-, hmended⟩, -, hillegible, -⟩ := hhalf.2.2.2.1 "" "" 0
  refine ⟨hbroken.1, fun hshown => ?_, ?_, hhalf.1, hillegible.mpr ⟨⟨_, rfl⟩, ?_, ?_⟩, hmended,
    hlenient.1, fun hshown => ?_, fun query _ => ?_⟩
  · obtain ⟨hcells, -⟩ := (hbroken.2.2.1 .model).mp hshown
    revert hcells
    decide +kernel
  · refine (hbroken.2.2.2.1 "" "" 0).2.1.mpr ⟨⟨_, rfl⟩, ?_⟩
    decide +kernel
  · decide +kernel
  · decide +kernel
  · obtain ⟨-, hsame⟩ := (hlenient.2.2.1 .model).mp hshown
    revert hsame
    decide +kernel
  · refine (helsewhere.2.2.2.2 ?_).1 query
    decide +kernel

end Database

end FeedbackBoard
