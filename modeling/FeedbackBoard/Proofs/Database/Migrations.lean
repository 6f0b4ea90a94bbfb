import FeedbackBoard.Database.Schema
import Mathlib.Data.List.Nodup

/-!
# Runs of migrations

A run takes the migrations that are not in the journal, in their order, until one
of them is not possible.  It leaves behind the work of those before that one, each
as a whole, and nothing of that one.  The journal only grows, and once nothing is
left to be run every later run finds nothing to do.

Main definitions:

- `Migration.objects`: the tables and indexes that a migration makes.
- `Schema.pending`: the migrations that are not in the journal.
- `Schema.Completes`: migrations that run one after the other, each as a whole.
- `Schema.migrateEach`: several runs.

Main results:

- `Schema.migrateAll_cases`: everything that a run can do.
- `Schema.migrate_eq_ok`, `Schema.migrate_eq_error`: what it leaves behind.
- `Schema.migrateEach_cases`: a run after any number of other runs.
-/

namespace FeedbackBoard

/-- The table or index that a change makes. -/
def SchemaChange.object : SchemaChange → String
  | .createTable _ => "feedback"
  | .createIndex name _ => name

/-- The tables and indexes that a migration makes. -/
def Migration.objects (migration : Migration) : List String :=
  migration.changes.map SchemaChange.object

namespace Schema

variable {schema changed final : Schema} {now : Int64} {object : String}

/-! ## The journal -/

theorem hasRun_iff (schema : Schema) (version : String) :
    schema.hasRun version = true ↔ version ∈ schema.entries.map Prod.fst := by
  simp [hasRun]

@[simp]
theorem entries_record (schema : Schema) (version : String) (now : Int64) :
    (schema.record version now).entries = schema.entries ++ [(version, now)] :=
  rfl

@[simp]
theorem entries_withJournal (schema : Schema) : schema.withJournal.entries = schema.entries :=
  rfl

theorem withJournal_eq_self (h : schema.journal.isSome) : schema.withJournal = schema := by
  rcases schema with ⟨_ | journal, columns, indexes⟩
  · cases h
  · rfl

/-! ## Changes -/

theorem journal_change? {change : SchemaChange} (h : schema.change? change = some changed) :
    changed.journal = schema.journal := by
  cases change with
  | createTable columns =>
      rw [change?] at h
      split at h <;> cases h <;> rfl
  | createIndex name column =>
      rw [change?] at h
      split_ifs at h <;> cases h <;> rfl

/-- A change makes its object and leaves all others as they are. -/
theorem mem_objects_change? {change : SchemaChange} (h : schema.change? change = some changed) :
    object ∈ changed.objects ↔ object ∈ schema.objects ∨ object = change.object := by
  cases change with
  | createTable columns =>
      rw [change?] at h
      split at h
      next found hcolumns =>
        cases h
        simp only [objects, hcolumns, SchemaChange.object, List.mem_append]
        grind
      next hcolumns =>
        cases h
        simp only [objects, hcolumns, SchemaChange.object, List.mem_append]
        grind
  | createIndex name column =>
      rw [change?] at h
      split_ifs at h with hmissing hname hcolumn
      · cases h
        rw [List.contains_iff_mem] at hname
        simp only [objects, SchemaChange.object, List.mem_append]
        grind
      · cases h
        simp only [objects, SchemaChange.object, List.mem_append, List.mem_singleton]
        grind

/-- Several changes keep the journal, make their objects, and leave all others as they are. -/
theorem changeAll?_spec {changes : List SchemaChange}
    (h : schema.changeAll? changes = some changed) :
    changed.journal = schema.journal ∧
      ∀ object, object ∈ changed.objects ↔
        object ∈ schema.objects ∨ object ∈ changes.map SchemaChange.object := by
  induction changes generalizing schema with
  | nil =>
      cases h
      simp
  | cons change rest ih =>
      rw [changeAll?, List.foldlM_cons] at h
      cases hfirst : schema.change? change with
      | none =>
          rw [hfirst] at h
          cases h
      | some next =>
          rw [hfirst] at h
          obtain ⟨hjournal, hobjects⟩ := ih h
          refine ⟨hjournal.trans (journal_change? hfirst), fun object => ?_⟩
          rw [hobjects, mem_objects_change? hfirst, List.map_cons, List.mem_cons, or_assoc]

/-! ## What a run can do -/

/-- The migrations that are not in the journal. -/
def pending (schema : Schema) (list : List Migration) : List Migration :=
  list.filter fun migration => !schema.hasRun migration.version

/-- Migrations that run one after the other, each as a whole, and are written into the journal. -/
inductive Completes (now : Int64) : List Migration → Schema → Schema → Prop
  | nil (schema : Schema) : Completes now [] schema schema
  | cons {migration : Migration} {rest : List Migration} {schema changed final : Schema}
      (hchanged : schema.changeAll? migration.changes = some changed)
      (hrest : Completes now rest (changed.record migration.version now) final) :
      Completes now (migration :: rest) schema final

namespace Completes

variable {completed : List Migration} (h : Completes now completed schema final)
include h

/-- The journal is continued by the migrations that have run. -/
theorem entries_eq :
    final.entries = schema.entries ++ completed.map fun migration => (migration.version, now) := by
  induction h with
  | nil => simp
  | @cons migration rest schema changed final hchanged hrest ih =>
      have hentries : changed.entries = schema.entries := by
        rw [entries, entries, (changeAll?_spec hchanged).1]
      rw [ih, entries_record, hentries, List.map_cons, List.append_assoc, List.singleton_append]

theorem isSome_journal (hjournal : schema.journal.isSome) : final.journal.isSome := by
  induction h with
  | nil => exact hjournal
  | cons hchanged hrest ih => exact ih rfl

/-- The objects of the migrations that have run are made, and no others. -/
theorem mem_objects_iff (hjournal : schema.journal.isSome) :
    object ∈ final.objects ↔
      object ∈ schema.objects ∨ object ∈ completed.flatMap Migration.objects := by
  induction h with
  | nil => simp
  | @cons migration rest schema changed final hchanged hrest ih =>
      obtain ⟨hkept, hobjects⟩ := changeAll?_spec hchanged
      have hrecord : (changed.record migration.version now).objects = changed.objects := by
        rw [objects, objects, hkept, hjournal]
        rfl
      rw [ih rfl, hrecord, hobjects, List.flatMap_cons, List.mem_append, or_assoc]
      rfl

end Completes

/-- The other versions are as new as they were before one was recorded. -/
theorem pending_record {version : String} {others : List Migration}
    (hjournal : changed.journal = schema.journal)
    (hfresh : version ∉ others.map Migration.version) :
    (changed.record version now).pending others = schema.pending others := by
  have hentries : (changed.record version now).entries = schema.entries ++ [(version, now)] := by
    rw [entries_record, entries, hjournal, entries]
  apply List.filter_congr
  intro other hother
  have hne : other.version ≠ version := fun heq => hfresh (heq ▸ List.mem_map_of_mem hother)
  rw [Bool.eq_iff_iff, Bool.not_eq_true', Bool.not_eq_true', ← Bool.not_eq_true,
    ← Bool.not_eq_true, hasRun_iff, hasRun_iff, hentries]
  simp [hne]

/--
A run completes some of the migrations that are pending, in their order: all of
them, or those before one that is not possible.
-/
theorem migrateAll_cases (now : Int64) {list : List Migration}
    (hversions : (list.map Migration.version).Nodup) (schema : Schema) :
    ∃ completed rest, schema.pending list = completed ++ rest ∧
      Completes now completed schema (migrateAll now list schema).2 ∧
      ((rest = [] ∧ (migrateAll now list schema).1 = .ok (completed.map Migration.version)) ∨
        ∃ failing later, rest = failing :: later ∧
          (migrateAll now list schema).1 = .error ⟨failing.version⟩) := by
  induction list generalizing schema with
  | nil => exact ⟨[], [], rfl, .nil schema, Or.inl ⟨rfl, rfl⟩⟩
  | cons migration others ih =>
      obtain ⟨hfresh, hothers⟩ := List.nodup_cons.mp hversions
      by_cases hrun : schema.hasRun migration.version
      · rw [migrateAll, if_pos hrun, pending, List.filter_cons_of_neg (by simp [hrun])]
        exact ih hothers schema
      · rw [migrateAll, if_neg hrun, pending, List.filter_cons_of_pos (by simp [hrun])]
        cases hchanged : schema.changeAll? migration.changes with
        | none =>
            exact ⟨[], migration :: schema.pending others, rfl, .nil schema,
              Or.inr ⟨migration, schema.pending others, rfl, rfl⟩⟩
        | some changed =>
            let recorded := changed.record migration.version now
            have hpending : recorded.pending others = schema.pending others :=
              pending_record (changeAll?_spec hchanged).1 hfresh
            obtain ⟨completed, rest, hsplit, hcompletes, houtcome⟩ := ih hothers recorded
            refine ⟨migration :: completed, rest, ?_, .cons hchanged hcompletes, ?_⟩
            · rw [← pending, ← hpending, hsplit, List.cons_append]
            · rcases houtcome with ⟨hrest, hok⟩ | ⟨failing, later, hrest, hfailed⟩
              · refine Or.inl ⟨hrest, ?_⟩
                change Except.map _ (migrateAll now others recorded).1 = _
                rw [hok]
                rfl
              · refine Or.inr ⟨failing, later, hrest, ?_⟩
                change Except.map _ (migrateAll now others recorded).1 = _
                rw [hfailed]
                rfl

/-- Where every migration is in the journal, a run does nothing. -/
theorem migrateAll_of_hasRun (now : Int64) {list : List Migration}
    (h : ∀ migration ∈ list, schema.hasRun migration.version = true) :
    migrateAll now list schema = (.ok [], schema) := by
  induction list with
  | nil => rfl
  | cons migration others ih =>
      rw [migrateAll, if_pos (h migration List.mem_cons_self)]
      exact ih fun other hother => h other (List.mem_cons_of_mem migration hother)

/-! ## Several runs -/

/-- The schema after runs at these times, one after the other. -/
def migrateEach (times : List Int64) (schema : Schema) : Schema :=
  times.foldl (fun schema now => (schema.migrate now).2) schema

theorem nodup_versions : (migrations.map Migration.version).Nodup := by
  decide

/-- No two known migrations make one object. -/
theorem pairwise_objects :
    migrations.Pairwise fun a b => ∀ object ∈ a.objects, object ∉ b.objects := by
  decide

/-- The journal is made before all migrations and by none of them. -/
theorem mem_objects_of_withJournal {migration : Migration} (hknown : migration ∈ migrations)
    (hmade : object ∈ migration.objects) (h : object ∈ schema.withJournal.objects) :
    object ∈ schema.objects := by
  have hne : object ≠ "schema_migrations" := by
    rintro rfl
    revert migration
    decide
  simp only [objects, withJournal, List.mem_append] at h ⊢
  grind

/-- A run continues the journal. -/
theorem entries_prefix_migrate (schema : Schema) (now : Int64) :
    schema.entries <+: (schema.migrate now).2.entries := by
  obtain ⟨completed, _, _, hcompletes, _⟩ := migrateAll_cases now nodup_versions schema.withJournal
  rw [migrate, hcompletes.entries_eq]
  exact List.prefix_append schema.entries _

/-- So do several runs. -/
theorem entries_prefix_migrateEach (times : List Int64) (schema : Schema) :
    schema.entries <+: (schema.migrateEach times).entries := by
  induction times generalizing schema with
  | nil => exact List.prefix_refl _
  | cons now rest ih => exact (entries_prefix_migrate schema now).trans (ih _)

/-- No version comes into the journal twice. -/
theorem nodup_entries_migrate (h : (schema.entries.map Prod.fst).Nodup) (now : Int64) :
    ((schema.migrate now).2.entries.map Prod.fst).Nodup := by
  obtain ⟨completed, rest, hsplit, hcompletes, _⟩ :=
    migrateAll_cases now nodup_versions schema.withJournal
  have hversions : (completed.map Migration.version).Sublist (migrations.map Migration.version) := by
    apply List.Sublist.map
    exact (List.prefix_append completed rest).sublist.trans (hsplit ▸ List.filter_sublist)
  have hnew : ∀ migration ∈ completed, migration.version ∉ schema.entries.map Prod.fst := by
    intro migration hmigration
    have hpending : migration ∈ schema.withJournal.pending migrations := by
      rw [hsplit]
      exact List.mem_append_left rest hmigration
    have hrun := (List.mem_filter.mp hpending).2
    rw [Bool.not_eq_true', ← Bool.not_eq_true, hasRun_iff] at hrun
    exact hrun
  rw [migrate, hcompletes.entries_eq, List.map_append, List.map_map, entries_withJournal]
  refine List.nodup_append.mpr ⟨h, nodup_versions.sublist hversions, ?_⟩
  rintro version hold _ hcompleted rfl
  obtain ⟨migration, hmigration, rfl⟩ := List.mem_map.mp hcompleted
  exact hnew migration hmigration hold

/-- So it stays after several runs. -/
theorem nodup_entries_migrateEach (times : List Int64) (h : (schema.entries.map Prod.fst).Nodup) :
    ((schema.migrateEach times).entries.map Prod.fst).Nodup := by
  induction times generalizing schema with
  | nil => exact h
  | cons now rest ih => exact ih (nodup_entries_migrate h now)

/-- After a run that has come to its end, runs find nothing to do. -/
theorem migrate_of_isOk {versions : List String} (h : (schema.migrate now).1 = .ok versions)
    (later : Int64) :
    (schema.migrate now).2.migrate later = (.ok [], (schema.migrate now).2) := by
  obtain ⟨completed, rest, hsplit, hcompletes, houtcome⟩ :=
    migrateAll_cases now nodup_versions schema.withJournal
  rcases houtcome with ⟨rfl, _⟩ | ⟨failing, others, _, hfailed⟩
  · have hjournal := hcompletes.isSome_journal rfl
    rw [migrate, migrate, withJournal_eq_self hjournal]
    apply migrateAll_of_hasRun
    intro migration hmigration
    rw [hasRun_iff, hcompletes.entries_eq, List.map_append, List.map_map, List.mem_append]
    by_cases hrun : schema.withJournal.hasRun migration.version
    · exact Or.inl ((hasRun_iff _ _).mp hrun)
    · have hdue : migration ∈ schema.withJournal.pending migrations :=
        List.mem_filter.mpr ⟨hmigration, by simp [hrun]⟩
      rw [hsplit, List.append_nil] at hdue
      exact Or.inr (List.mem_map_of_mem hdue)
  · rw [migrate, hfailed] at h
    cases h

theorem migrateEach_of_isOk {versions : List String} (h : (schema.migrate now).1 = .ok versions)
    (times : List Int64) :
    (schema.migrate now).2.migrateEach times = (schema.migrate now).2 := by
  induction times with
  | nil => rfl
  | cons later rest ih =>
      rw [migrateEach, List.foldl_cons, migrate_of_isOk h later]
      exact ih

/-- A migration that has run has made its objects. -/
theorem Completes.mem_objects {completed : List Migration} (h : Completes now completed schema final)
    (hjournal : schema.journal.isSome) {migration : Migration} (hmigration : migration ∈ completed) :
    ∀ object ∈ migration.objects, object ∈ final.objects := fun _ hobject =>
  (h.mem_objects_iff hjournal).mpr
    (Or.inr (List.mem_flatMap.mpr ⟨migration, hmigration, hobject⟩))

/-- A run that comes to its end completes the pending migrations. -/
theorem migrate_eq_ok {versions : List String} (h : (schema.migrate now).1 = .ok versions) :
    versions = (schema.pending migrations).map Migration.version ∧
      (schema.migrate now).2.entries = schema.entries ++ versions.map (·, now) ∧
      ∀ migration ∈ schema.pending migrations, ∀ object ∈ migration.objects,
        object ∈ (schema.migrate now).2.objects := by
  obtain ⟨completed, rest, hsplit, hcompletes, houtcome⟩ :=
    migrateAll_cases now nodup_versions schema.withJournal
  rcases houtcome with ⟨rfl, hversions⟩ | ⟨failing, others, _, hfailed⟩
  · have hdue : schema.pending migrations = completed := by
      rw [List.append_nil] at hsplit
      exact hsplit
    have hcompleted : versions = completed.map Migration.version :=
      Except.ok.inj (h.symm.trans hversions)
    refine ⟨hdue ▸ hcompleted, ?_, fun migration hmigration =>
      hcompletes.mem_objects rfl (hdue ▸ hmigration)⟩
    rw [hcompleted, List.map_map]
    exact hcompletes.entries_eq
  · cases h.symm.trans hfailed

/--
A run that fails completes the pending migrations before the failing one, and makes no
object of that one.
-/
theorem migrate_eq_error {failure : MigrationFailure} (h : (schema.migrate now).1 = .error failure) :
    ∃ completed failing others, schema.pending migrations = completed ++ failing :: others ∧
      failure.version = failing.version ∧
      (schema.migrate now).2.entries =
        schema.entries ++ completed.map (fun done => (done.version, now)) ∧
      (∀ migration ∈ completed, ∀ object ∈ migration.objects,
        object ∈ (schema.migrate now).2.objects) ∧
      ∀ object ∈ failing.objects,
        object ∈ (schema.migrate now).2.objects → object ∈ schema.objects := by
  obtain ⟨completed, rest, hsplit, hcompletes, houtcome⟩ :=
    migrateAll_cases now nodup_versions schema.withJournal
  rcases houtcome with ⟨_, hversions⟩ | ⟨failing, others, rfl, hfailed⟩
  · cases h.symm.trans hversions
  · have hfailure : failure = ⟨failing.version⟩ := Except.error.inj (h.symm.trans hfailed)
    refine ⟨completed, failing, others, hsplit, congrArg MigrationFailure.version hfailure,
      hcompletes.entries_eq, fun _ => hcompletes.mem_objects rfl, fun object hobject hafter => ?_⟩
    have hknown : failing ∈ migrations := by
      have hdue : failing ∈ schema.withJournal.pending migrations := by simp [hsplit]
      exact (List.mem_filter.mp hdue).1
    have hapart : (completed ++ failing :: others).Pairwise fun a b =>
        ∀ object ∈ a.objects, object ∉ b.objects :=
      hsplit ▸ pairwise_objects.sublist List.filter_sublist
    rcases (hcompletes.mem_objects_iff rfl).mp hafter with hbefore | hmade
    · exact mem_objects_of_withJournal hknown hobject hbefore
    · -- The migrations before this one have made other objects.
      obtain ⟨migration, hmigration, hother⟩ := List.mem_flatMap.mp hmade
      have hforeign := (List.pairwise_append.mp hapart).2.2 migration hmigration failing
        List.mem_cons_self
      exact absurd hobject (hforeign object hother)

/--
What a run does after any number of earlier runs, at whatever times.  Earlier
entries of the journal stay, and no version comes twice.  A run that comes to its
end answers the pending versions in their order and records them with its time, and
all later runs do nothing.  A run that fails has completed the pending migrations
before the failing one, and of the objects of that one it has made none.
-/
theorem migrateEach_cases (start : Schema) (earlier : List Int64) (now : Int64) :
    let before := start.migrateEach earlier
    let outcome := (before.migrate now).1
    let after := (before.migrate now).2
    let due := before.pending migrations
    (start.entries <+: before.entries ∧ before.entries <+: after.entries) ∧
      ((start.entries.map Prod.fst).Nodup → (after.entries.map Prod.fst).Nodup) ∧
      (∀ versions, outcome = .ok versions →
        versions = due.map Migration.version ∧
          after.entries = before.entries ++ versions.map (·, now) ∧
          (∀ migration ∈ due, ∀ object ∈ migration.objects, object ∈ after.objects) ∧
          ∀ times time, (after.migrateEach times).migrate time = (.ok [], after)) ∧
      (∀ failure, outcome = .error failure →
        ∃ completed failing others, due = completed ++ failing :: others ∧
          failure.version = failing.version ∧
          after.entries = before.entries ++ completed.map (fun done => (done.version, now)) ∧
          (∀ migration ∈ completed, ∀ object ∈ migration.objects, object ∈ after.objects) ∧
          ∀ object ∈ failing.objects, object ∈ after.objects → object ∈ before.objects) := by
  intro before outcome after due
  refine ⟨⟨entries_prefix_migrateEach earlier start, entries_prefix_migrate before now⟩,
    fun hnodup => nodup_entries_migrate (nodup_entries_migrateEach earlier hnodup) now, ?_,
    fun failure hfailure => migrate_eq_error hfailure⟩
  intro versions hok
  obtain ⟨hversions, hentries, hmade⟩ := migrate_eq_ok hok
  refine ⟨hversions, hentries, hmade, fun times time => ?_⟩
  rw [migrateEach_of_isOk hok, migrate_of_isOk hok]

/--
Runs on a table of other columns make no index, however often they are tried.  Once the
table has the columns, a run makes the indexes, and all later runs do nothing.
-/
theorem migrateEach_cases_repaired :
    let start : Schema := ⟨some [("0000", 3)], some ["id", "USER_ID"], []⟩
    let stopped := start.migrateEach [4, 5]
    let repaired := { stopped with columns := some feedbackColumns }
    let complete := (repaired.migrate 7).2
    ((start.migrateEach [4]).migrate 5).1 = .error ⟨"0002_feedback_indexes"⟩ ∧
      stopped.entries = [("0000", 3), ("0001_create_feedback", 4)] ∧
      "idx_feedback_user_id" ∉ stopped.objects ∧
      (repaired.migrate 7).1 = .ok ["0002_feedback_indexes"] ∧
      complete.entries = stopped.entries ++ [("0002_feedback_indexes", 7)] ∧
      "idx_feedback_user_id" ∈ complete.objects ∧
      ∀ times time, (complete.migrateEach times).migrate time = (.ok [], complete) := by
  intro start stopped repaired complete
  obtain ⟨-, -, -, hfailure⟩ := migrateEach_cases start [4] 5
  obtain ⟨-, -, hsuccess, -⟩ := migrateEach_cases repaired [] 7
  have hfailed : ((start.migrateEach [4]).migrate 5).1 = .error ⟨"0002_feedback_indexes"⟩ := rfl
  have hok : (repaired.migrate 7).1 = .ok ["0002_feedback_indexes"] := rfl
  obtain ⟨completed, failing, others, hdue, hversion, hentries, -, hnone⟩ := hfailure _ hfailed
  obtain ⟨-, hrecorded, hmade, hlater⟩ := hsuccess _ hok
  -- Only the second migration was left, so it is the one that fails, and nothing before it ran.
  have hrest : completed ++ failing :: others = [migrations[1]] := hdue.symm
  obtain ⟨rfl, rfl, -⟩ : completed = [] ∧ failing = migrations[1] ∧ others = [] := by
    cases completed with
    | nil => simpa using hrest
    | cons first rest => simp at hrest
  refine ⟨hfailed, hentries, fun hmem => ?_, hok, hrecorded, ?_, hlater⟩
  · exact absurd (hnone _ (by decide) hmem) (by decide)
  · exact hmade migrations[1] (by decide) _ (by decide)

end Schema

end FeedbackBoard
