import FeedbackBoard.Proofs.Access.Admission
import FeedbackBoard.Proofs.Feedback.Exchange

/-!
# Restoring a store from its export

The interface and the import decide separately which rows they take.  The import
refuses rows without a user, whereas settings may name a user by the empty text;
and the reader of an export has one level less for the contents of a row than
the reader of a body has for those of a form.  A store that was built by requests
is therefore restored from its export exactly if no row is of either kind.

Main definitions:

- `Store.IsFresh`: a store without rows.
- `Settings.board`: the installation of settings.

Main results:

- `Settings.restores_iff`: which stores are restored from their export.
- `Settings.restores_iff_isShallow`: the same where every user has an id.
-/

namespace FeedbackBoard

open Json (Value levelLimit)

/-! ## Fresh stores -/

namespace Store

/-- A store without rows, in memory or in a fresh database. -/
def IsFresh (store : Store) : Prop :=
  store = emptyMemory ∨ ∃ now, store = emptyDatabase now

theorem IsFresh.holds {P : Feedback → Prop} {store : Store} (h : store.IsFresh) :
    store.Holds P := by
  rcases h with rfl | ⟨now, rfl⟩
  · exact fun row hrow => absurd hrow List.not_mem_nil
  · obtain ⟨db, hdb, hready, _, hrows⟩ := exists_emptyDatabase now
    rw [hdb]
    refine ⟨hready, ?_⟩
    rw [hrows]
    exact fun stored hstored => absurd hstored List.not_mem_nil

/-- A fresh store imports all rows if every row has an id and a user, and else none. -/
theorem IsFresh.importAll {store : Store} (h : store.IsFresh) (batch : List Feedback) :
    (store.importAll batch).1 =
      if batch.all hasKeys then .ok batch.length else .error .blankKey := by
  rw [Store.importAll]
  split
  · rcases h with rfl | ⟨now, rfl⟩
    · rfl
    · obtain ⟨db, hdb, hready, haccepting, _⟩ := exists_emptyDatabase now
      rw [hdb, restoreAll_database, hready, haccepting, storeRows?_nil_rejected]
      rfl
  · rfl

end Store

/-! ## Rows -/

/-- Rows are imported from their export exactly if all have a user and shallow contents. -/
theorem importAll_readExport_iff {target : Store} (htarget : target.IsFresh)
    {rows : List Feedback} (hid : ∀ row ∈ rows, row.id ≠ "")
    (hread : ∀ row ∈ rows, ∀ value ∈ row.contents, value.IsContent (levelLimit - 1)) :
    (∃ restored, readExport (exportText rows) = some restored ∧
        (target.importAll restored).1 = .ok rows.length) ↔
      ∀ row ∈ rows, row.userId ≠ "" ∧ row.IsShallow := by
  rw [readExport_exportText hread]
  have hkeys : (rows.map Feedback.reread).all Store.hasKeys = true ↔
      ∀ row ∈ rows, row.userId ≠ "" := by
    simp only [List.all_map, List.all_eq_true, Function.comp_apply, Store.hasKeys,
      Bool.and_eq_true, bne_iff_ne]
    exact ⟨fun h row hrow => (h row hrow).2, fun h row hrow => ⟨hid row hrow, h row hrow⟩⟩
  constructor
  · rintro ⟨restored, hrestored, hcount⟩ row hrow
    split at hrestored
    next hshallow =>
      cases hrestored
      rw [htarget.importAll] at hcount
      split at hcount
      next hall => exact ⟨hkeys.mp hall row hrow, hshallow row hrow⟩
      next => cases hcount
    next => cases hrestored
  · intro h
    refine ⟨rows.map Feedback.reread, if_pos fun row hrow => (h row hrow).2, ?_⟩
    rw [htarget.importAll, if_pos (hkeys.mpr fun row hrow => (h row hrow).1), List.length_map]

/-! ## Settings -/

namespace Settings

/-- The installation of settings. -/
def board (settings : Settings) (freshId : Nat → String) : Board where
  registry := .ofTokens settings.tokens
  pageSize := settings.pageSize
  freshId := freshId

/-- The rows after any number of requests to a fresh store are admitted. -/
theorem newest_handleAll (settings : Settings) {freshId : Nat → String}
    (hfresh : ∀ n, freshId n ≠ "") {start : Store} (hstart : start.IsFresh)
    (requests : List (Int64 × Request)) :
    ∃ rows, ((settings.board freshId).handleAll requests ⟨start, 0⟩).2.store.newest = .ok rows ∧
      ∀ row ∈ rows, row.IsAdmitted (.ofTokens settings.tokens) := by
  let state : Board.State := ⟨start, 0⟩
  have hholds : state.store.Holds (Feedback.IsAdmitted (settings.board freshId).registry) :=
    hstart.holds
  have hreached := Board.admitted_handleAll hholds hfresh requests
  exact hreached.newest fun row hrow => hrow.toFeedback_ofFeedback

/--
After any number of requests to a fresh store, its export is read back and all
its rows are imported into a fresh store, exactly if every row has a user and
contents that an export leaves enough levels for.
-/
theorem restores_iff (settings : Settings) {freshId : Nat → String}
    (hfresh : ∀ n, freshId n ≠ "") {start target : Store} (hstart : start.IsFresh)
    (htarget : target.IsFresh) (requests : List (Int64 × Request)) :
    ∃ rows, ((settings.board freshId).handleAll requests ⟨start, 0⟩).2.store.newest = .ok rows ∧
      ((∃ restored, readExport (exportText rows) = some restored ∧
          (target.importAll restored).1 = .ok rows.length) ↔
        ∀ row ∈ rows, row.userId ≠ "" ∧ row.IsShallow) := by
  obtain ⟨rows, hrows, hadmitted⟩ := settings.newest_handleAll hfresh hstart requests
  refine ⟨rows, hrows, importAll_readExport_iff htarget ?_ ?_⟩
  · exact fun row hrow => (hadmitted row hrow).id_ne
  · exact fun row hrow => (hadmitted row hrow).read

/--
With settings that are accepted, a plain rating is restored; one of a user without
an id is not, and neither is one with contents as deep as a body can have.
-/
theorem restores_iff_rating :
    let settings : Settings :=
      { Settings.minimal with
        tokens :=
          [⟨"043a718774c572bd8a25adbeb1bfcd5c0256ae11cecf9f9c3f925d0e52beaf89", "ann", none, "user"⟩,
            ⟨"e3b98a4da31a127d4bde6e43033f66ba274cab0eb7eb1c70ec41402bf6273dd8", "", none, "user"⟩] }
    let freshId (n : Nat) : String := "00000000-0000-4000-8000-00000000000" ++ toString n
    let post (secret : String) (data : List UInt8) : Int64 × Request :=
      (1,
        { method := "POST"
          target := "/api/v1/evaluations/feedback"
          headers :=
            [("authorization", ("bearer " ++ secret).toUTF8.toList),
              ("content-type", "application/json".toUTF8.toList)]
          body := "\x7b\"type\":\"rating\",\"data\":".toUTF8.toList ++ data ++ [125] })
    let Restorable (step : Int64 × Request) : Prop :=
      ∃ rows, ((settings.board freshId).handleAll [step] ⟨.emptyMemory, 0⟩).2.store.newest =
          .ok rows ∧
        ∃ restored, readExport (exportText rows) = some restored ∧
          ((Store.emptyDatabase 0).importAll restored).1 = .ok rows.length
    settings.validate = .ok () ∧ Restorable (post "s" [49]) ∧ ¬ Restorable (post "t" [49]) ∧
      ¬ Restorable (post "s" (List.replicate 126 91 ++ List.replicate 126 93)) := by
  intro settings freshId post Restorable
  have hfresh : ∀ n, freshId n ≠ "" := by
    intro n h
    have hlength := congrArg String.length h
    simp [freshId] at hlength
  -- Only authors and depths are evaluated, and they decide.
  let summary (step : Int64 × Request) : Except StoreError (List (String × List Nat)) :=
    ((settings.board freshId).handleAll [step] ⟨.emptyMemory, 0⟩).2.store.newest.map fun rows =>
      rows.map fun row => (row.userId, row.contents.map Value.depth)
  have hdecided : ∀ step authors, summary step = .ok authors →
      (Restorable step ↔ ∀ author ∈ authors, author.1 ≠ "" ∧ ∀ n ∈ author.2, n ≤ exportLevels) := by
    intro step authors hsummary
    obtain ⟨rows, hrows, hiff⟩ := restores_iff settings hfresh (Or.inl rfl : Store.IsFresh _)
      (Or.inr ⟨0, rfl⟩ : Store.IsFresh (.emptyDatabase 0)) [step]
    simp only [summary, hrows, Except.map, Except.ok.injEq] at hsummary
    subst hsummary
    have hrestorable : Restorable step ↔ ∀ row ∈ rows, row.userId ≠ "" ∧ row.IsShallow := by
      rw [← hiff]
      constructor
      · rintro ⟨found, hfound, hrestored⟩
        rw [hrows] at hfound
        cases hfound
        exact hrestored
      · exact fun hrestored => ⟨rows, hrows, hrestored⟩
    rw [hrestorable]
    simp [Feedback.IsShallow]
  have hshallow : summary (post "s" [49]) = .ok [("ann", [0])] := by decide +kernel
  have hblank : summary (post "t" [49]) = .ok [("", [0])] := by decide +kernel
  have hdeep : summary (post "s" (List.replicate 126 91 ++ List.replicate 126 93)) =
      .ok [("ann", [126])] := by decide +kernel
  refine ⟨rfl, ?_, ?_, ?_⟩
  · rw [hdecided _ _ hshallow]
    decide
  · rw [hdecided _ _ hblank]
    decide
  · rw [hdecided _ _ hdeep]
    decide

/-- Where every user has an id, only contents that are nested too deep are in the way. -/
theorem restores_iff_isShallow (settings : Settings)
    (hnamed : ∀ token ∈ settings.tokens, token.userId ≠ "") {freshId : Nat → String}
    (hfresh : ∀ n, freshId n ≠ "") {start target : Store} (hstart : start.IsFresh)
    (htarget : target.IsFresh) (requests : List (Int64 × Request)) :
    ∃ rows, ((settings.board freshId).handleAll requests ⟨start, 0⟩).2.store.newest = .ok rows ∧
      ((∃ restored, readExport (exportText rows) = some restored ∧
          (target.importAll restored).1 = .ok rows.length) ↔
        ∀ row ∈ rows, row.IsShallow) := by
  obtain ⟨rows, hrows, hadmitted⟩ := settings.newest_handleAll hfresh hstart requests
  refine ⟨rows, hrows, ?_⟩
  have huser : ∀ row ∈ rows, row.userId ≠ "" := by
    intro row hrow
    obtain ⟨entry, hentry, hid⟩ := (hadmitted row hrow).known
    obtain ⟨token, htoken, huserId⟩ := Registry.exists_token_of_mem hentry
    rw [← hid, ← huserId]
    exact hnamed token htoken
  rw [importAll_readExport_iff htarget (fun row hrow => (hadmitted row hrow).id_ne)
    (fun row hrow => (hadmitted row hrow).read)]
  exact ⟨fun h row hrow => (h row hrow).2, fun h row hrow => ⟨huser row hrow, h row hrow⟩⟩

end Settings

end FeedbackBoard
