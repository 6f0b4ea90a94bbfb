import FeedbackBoard.Proofs.Store.Operations

/-!
# Operations within a user's rows

Some operations of the store are confined to the rows of one user: from two
stores with the same rows of that user they answer the same and leave the same
rows of that user, and they spare the rows of everybody else.  Confinement is
shown once for lists of rows with distinct ids; rows in memory and rows of a
table are both such lists.

Main definitions:

- `Confined`: a change of rows that is confined to a user.
- `Store.Alike`, `Store.SparesOthers`: stores with the same rows of a user, and
  stores with the same rows of all others.
- `Store.Isolated`: a run on a store that is confined to a user.

Main results:

- `Store.isolated_insert`, `Store.isolated_revise`, `Store.isolated_remove`,
  `Store.isolated_removeUser`, `Store.isolated_find`, `Store.isolated_newestOf`:
  the operations within a user's rows are.
-/

namespace FeedbackBoard

/-! ## Rows -/

section Rows

variable {ρ β : Type} (id owner : ρ → String) (user freshId : String)

/-- Lists with the same rows of a user. -/
def RowsAlike (rows other : List ρ) : Prop :=
  ∀ row, owner row = user → (row ∈ rows ↔ row ∈ other)

/-- The rows of everybody else. -/
def othersOf (rows : List ρ) : List ρ :=
  rows.filter fun row => owner row != user

/-- No two rows have one id, and a fresh id is the id of none. -/
structure AdmitsFresh (rows : List ρ) : Prop where
  distinct : DistinctIds id rows
  fresh : freshId ∉ rows.map id

/-- A change of rows that is confined to a user. -/
structure Confined (change : List ρ → β × List ρ) : Prop where
  answer : ∀ {rows other}, AdmitsFresh id freshId rows → AdmitsFresh id freshId other →
    RowsAlike owner user rows other → (change rows).1 = (change other).1
  alike : ∀ {rows other}, AdmitsFresh id freshId rows → AdmitsFresh id freshId other →
    RowsAlike owner user rows other → RowsAlike owner user (change rows).2 (change other).2
  spares : ∀ {rows}, AdmitsFresh id freshId rows →
    othersOf owner user (change rows).2 = othersOf owner user rows
  distinct : ∀ {rows}, AdmitsFresh id freshId rows → DistinctIds id (change rows).2

variable {id owner user freshId}

/-- Lists with the same rows of a user agree on whether some row of that user is a target. -/
theorem RowsAlike.any_eq {rows other : List ρ} (h : RowsAlike owner user rows other)
    {p : ρ → Bool} (hp : ∀ row, p row → owner row = user) : rows.any p = other.any p := by
  rw [Bool.eq_iff_iff, List.any_eq_true, List.any_eq_true]
  constructor
  · rintro ⟨row, hrow, hprow⟩
    exact ⟨row, (h row (hp row hprow)).mp hrow, hprow⟩
  · rintro ⟨row, hrow, hprow⟩
    exact ⟨row, (h row (hp row hprow)).mpr hrow, hprow⟩

/-- A change of rows with given owners leaves the rows of others where the targets are the user's. -/
theorem othersOf_map {p : ρ → Bool} {f : ρ → ρ} (hp : ∀ row, p row → owner row = user)
    (hf : ∀ row, owner (f row) = owner row) (rows : List ρ) :
    othersOf owner user (rows.map fun row => if p row then f row else row) =
      othersOf owner user rows := by
  induction rows with
  | nil => rfl
  | cons row rest ih =>
      simp only [othersOf] at ih ⊢
      rw [List.map_cons]
      by_cases hrow : p row
      · have hmine : owner row = user := hp row hrow
        rw [if_pos hrow, List.filter_cons_of_neg (by simp [hf, hmine]),
          List.filter_cons_of_neg (by simp [hmine]), ih]
      · rw [if_neg hrow, List.filter_cons, List.filter_cons, ih]

/-- Reading what depends on the user's rows is confined. -/
theorem Confined.reading {read : List ρ → β}
    (h : ∀ {rows other}, DistinctIds id rows → DistinctIds id other →
      RowsAlike owner user rows other → read rows = read other) :
    Confined id owner user freshId fun rows => (read rows, rows) where
  answer hrows hother halike := h hrows.distinct hother.distinct halike
  alike _ _ halike := halike
  spares _ := rfl
  distinct hrows := hrows.distinct

/-- What becomes of the answer does not matter. -/
theorem Confined.map {γ : Type} {change : List ρ → β × List ρ} (f : β → γ)
    (h : Confined id owner user freshId change) :
    Confined id owner user freshId fun rows => (f (change rows).1, (change rows).2) where
  answer hrows hother halike := congrArg f (h.answer hrows hother halike)
  alike hrows hother halike := h.alike hrows hother halike
  spares hrows := h.spares hrows
  distinct hrows := h.distinct hrows

/-- Finding a row of the user by its id is confined. -/
theorem Confined.find {key : String} {p : ρ → Bool} (hkey : ∀ row, p row → id row = key)
    (hp : ∀ row, p row → owner row = user) :
    Confined id owner user freshId fun rows => (rows.find? p, rows) := by
  apply Confined.reading
  intro rows other hrows hother halike
  exact hrows.find?_eq_of_mem_iff hother hkey fun row hrow => halike row (hp row hrow)

/-- Listing the rows of the user is confined. -/
theorem Confined.newest (time : ρ → Int) :
    Confined id owner user freshId fun rows =>
      ((rows.filter fun row => owner row == user).mergeSort fun a b =>
        ((compare (time b) (time a)).then (compare (id a) (id b))).isLE, rows) := by
  apply Confined.reading
  intro rows other hrows hother halike
  have hmine := hrows.filter fun row => owner row == user
  refine hmine.newest_eq_of_perm time (hmine.perm_of_mem_iff (hother.filter _) fun row => ?_)
  simp only [List.mem_filter, beq_iff_eq]
  constructor
  · rintro ⟨hrow, howner⟩
    exact ⟨(halike row howner).mp hrow, howner⟩
  · rintro ⟨hrow, howner⟩
    exact ⟨(halike row howner).mpr hrow, howner⟩

/-- Adding a fresh row of the user is confined. -/
theorem Confined.append (row : ρ) (result : β) (hid : id row = freshId)
    (howner : owner row = user) :
    Confined id owner user freshId fun rows => (result, rows ++ [row]) where
  answer _ _ _ := rfl
  alike _ _ halike := by
    intro other hother
    rw [List.mem_append, List.mem_append, halike other hother]
  spares _ := by
    rw [othersOf, List.filter_append, List.filter_cons_of_neg (by simp [howner]),
      List.filter_nil, List.append_nil, othersOf]
  distinct hrows := hrows.distinct.append_fresh (hid ▸ hrows.fresh)

/-- Changing a row of the user is confined. -/
theorem Confined.revise {key : String} {p : ρ → Bool} {f : ρ → ρ}
    (hkey : ∀ row, p row → id row = key) (hp : ∀ row, p row → owner row = user)
    (hid : ∀ row, id (f row) = id row) (howner : ∀ row, owner (f row) = owner row) :
    Confined id owner user freshId fun rows =>
      ((rows.find? p).map f, rows.map fun row => if p row then f row else row) where
  answer hrows hother halike :=
    congrArg (Option.map f) ((Confined.find hkey hp).answer hrows hother halike)
  alike {rows other} _ _ halike := by
    have hsame : ∀ row, owner (if p row then f row else row) = owner row := by
      intro row
      split
      · exact howner row
      · rfl
    intro row hrow
    rw [List.mem_map, List.mem_map]
    constructor
    · rintro ⟨old, hold, rfl⟩
      exact ⟨old, (halike old ((hsame old).symm.trans hrow)).mp hold, rfl⟩
    · rintro ⟨old, hold, rfl⟩
      exact ⟨old, (halike old ((hsame old).symm.trans hrow)).mpr hold, rfl⟩
  spares {rows} _ := othersOf_map hp howner rows
  distinct hrows := by
    apply hrows.distinct.map
    intro row
    split
    · exact hid row
    · rfl

/-- Removing rows of the user is confined. -/
theorem Confined.remove {p : ρ → Bool} (hp : ∀ row, p row → owner row = user) :
    Confined id owner user freshId fun rows => (rows.any p, rows.filter fun row => !p row) where
  answer _ _ halike := halike.any_eq hp
  alike _ _ halike := by
    intro row hrow
    rw [List.mem_filter, List.mem_filter, halike row hrow]
  spares {rows} _ := by
    rw [othersOf, List.filter_filter, othersOf]
    apply List.filter_congr
    intro row _
    cases hrow : p row
    · simp
    · simp [hp row hrow]
  distinct hrows := hrows.distinct.filter _

end Rows

/-! ## Stores -/

namespace Store

/-- No two rows have one id, and a fresh id is the id of none. -/
structure Admits (freshId : String) (store : Store) : Prop where
  distinct : store.ids.Nodup
  fresh : freshId ∉ store.ids

/-- Stores of one kind and in one condition that hold the same rows of a user. -/
inductive Alike (user : String) : Store → Store → Prop
  | memory {rows other : RowList} (h : RowsAlike Feedback.userId user rows other) :
      Alike user (.memory rows) (.memory other)
  | database {db other : Database} (ready : db.isReady = other.isReady)
      (rejected : db.rejected = other.rejected)
      (h : RowsAlike StoredRow.userId user db.rows other.rows) :
      Alike user (.database db) (.database other)

/-- Stores that differ in nothing but the rows of a user. -/
inductive SparesOthers (user : String) : Store → Store → Prop
  | memory {rows after : RowList}
      (h : othersOf Feedback.userId user after = othersOf Feedback.userId user rows) :
      SparesOthers user (.memory rows) (.memory after)
  | database {db after : Database} (schema : after.schema = db.schema)
      (rejected : after.rejected = db.rejected)
      (h : othersOf StoredRow.userId user after.rows = othersOf StoredRow.userId user db.rows) :
      SparesOthers user (.database db) (.database after)

/-- A run on a store that is confined to the rows of a user. -/
structure Isolated {β : Type} (user freshId : String) (run : Store → β × Store) : Prop where
  answer : ∀ {s t : Store}, s.Admits freshId → t.Admits freshId → s.Alike user t →
    (run s).1 = (run t).1
  alike : ∀ {s t : Store}, s.Admits freshId → t.Admits freshId → s.Alike user t →
    (run s).2.Alike user (run t).2
  spares : ∀ {s : Store}, s.Admits freshId → s.SparesOthers user (run s).2
  distinct : ∀ {s : Store}, s.Admits freshId → (run s).2.ids.Nodup

variable {β γ : Type} {user freshId : String}

theorem Admits.memory {rows : RowList} (h : (Store.memory rows).Admits freshId) :
    AdmitsFresh Feedback.id freshId rows :=
  ⟨h.distinct, h.fresh⟩

theorem Admits.database {db : Database} (h : (Store.database db).Admits freshId) :
    AdmitsFresh StoredRow.id freshId db.rows :=
  ⟨h.distinct, h.fresh⟩

theorem SparesOthers.refl (store : Store) : store.SparesOthers user store := by
  cases store with
  | memory rows => exact .memory rfl
  | database db => exact .database rfl rfl rfl

/-- A run that leaves the store alone is isolated. -/
theorem Isolated.constant (answer : β) : Isolated user freshId fun store => (answer, store) where
  answer _ _ _ := rfl
  alike _ _ halike := halike
  spares _ := .refl _
  distinct hstore := hstore.distinct

/-- What becomes of the answer does not matter. -/
theorem Isolated.map {run : Store → β × Store} (f : β → γ) (h : Isolated user freshId run) :
    Isolated user freshId fun store => (f (run store).1, (run store).2) where
  answer hs ht halike := congrArg f (h.answer hs ht halike)
  alike hs ht halike := h.alike hs ht halike
  spares hs := h.spares hs
  distinct hs := h.distinct hs

/--
A run is isolated if it changes rows in a confined way, in memory as in a table,
where a database may refuse for reasons that do not lie in its rows.
-/
theorem Isolated.of_confined {run : Store → β × Store}
    {inMemory : List Feedback → β × List Feedback} {inTable : List StoredRow → β × List StoredRow}
    {refusal : β} (permits : Bool → List String → Bool)
    (hmemory : Confined Feedback.id Feedback.userId user freshId inMemory)
    (htable : Confined StoredRow.id StoredRow.userId user freshId inTable)
    (hrunMemory : ∀ rows, AdmitsFresh Feedback.id freshId rows →
      run (.memory rows) = ((inMemory rows).1, .memory (inMemory rows).2))
    (hrunDatabase : ∀ db : Database, AdmitsFresh StoredRow.id freshId db.rows →
      run (.database db) =
        if permits db.isReady db.rejected then
          ((inTable db.rows).1, withRows db (inTable db.rows).2)
        else (refusal, .database db)) :
    Isolated user freshId run where
  answer hs ht halike := by
    cases halike with
    | @memory rows other h =>
        have hrows := hs.memory
        have hother := ht.memory
        rw [hrunMemory rows hrows, hrunMemory other hother]
        exact hmemory.answer hrows hother h
    | @database db other ready rejected h =>
        have hrows := hs.database
        have hother := ht.database
        rw [hrunDatabase db hrows, hrunDatabase other hother, ready, rejected]
        split
        · exact htable.answer hrows hother h
        · rfl
  alike hs ht halike := by
    cases halike with
    | @memory rows other h =>
        have hrows := hs.memory
        have hother := ht.memory
        rw [hrunMemory rows hrows, hrunMemory other hother]
        exact .memory (hmemory.alike hrows hother h)
    | @database db other ready rejected h =>
        have hrows := hs.database
        have hother := ht.database
        rw [hrunDatabase db hrows, hrunDatabase other hother, ready, rejected]
        split
        · exact .database ready rejected (htable.alike hrows hother h)
        · exact .database ready rejected h
  spares {s} hs := by
    cases s with
    | memory rows =>
        have hrows := hs.memory
        rw [hrunMemory rows hrows]
        exact .memory (hmemory.spares hrows)
    | database db =>
        have hrows := hs.database
        rw [hrunDatabase db hrows]
        split
        · exact .database rfl rfl (htable.spares hrows)
        · exact .refl _
  distinct {s} hs := by
    cases s with
    | memory rows =>
        have hrows := hs.memory
        rw [hrunMemory rows hrows]
        exact hmemory.distinct hrows
    | database db =>
        have hrows := hs.database
        rw [hrunDatabase db hrows]
        split
        · exact htable.distinct hrows
        · exact hs.distinct

/-! ## Operations within a user's rows -/

/-- Targets within the user's rows are the user's. -/
theorem userId_of_isTarget {id : String} {row : Feedback}
    (h : RowList.isTarget id (some user) row) : row.userId = user := by
  simp only [RowList.isTarget, Feedback.ownedBy, Bool.and_eq_true, beq_iff_eq] at h
  exact h.2

theorem userId_of_accepts {id : String} {row : StoredRow}
    (h : (RowFilter.row id (some user)).accepts row) : row.userId = user := by
  simp only [RowFilter.accepts, Option.all_some, Bool.and_eq_true, beq_iff_eq] at h
  exact h.2

/-- Inserting a fresh row of the user is isolated. -/
theorem isolated_insert (row : Feedback) (hid : row.id = freshId) (howner : row.userId = user) :
    Isolated user freshId (insert row) := by
  apply Isolated.of_confined (fun ready rejected => ready && !rejected.contains row.id)
    (Confined.append row (.ok row) hid howner)
    (Confined.append (StoredRow.ofFeedback row) (.ok row) hid howner)
  · intro rows _
    rfl
  · intro db hrows
    have hfresh : (StoredRow.ofFeedback row).id ∉ db.rows.map StoredRow.id := by
      rw [show (StoredRow.ofFeedback row).id = freshId from hid]
      exact hrows.fresh
    rw [insert_database, storeRow_eq_append hfresh]

/-- Changing a row within the user's rows is isolated. -/
theorem isolated_revise (id : String) (form : Feedback.Form) (now : Int64) :
    Isolated user freshId (revise id (some user) form now) := by
  apply Isolated.of_confined (fun ready _ => ready)
    ((Confined.revise (p := RowList.isTarget id (some user)) (f := fun row => row.revise form now)
      (fun _ => RowList.id_of_isTarget) (fun _ => userId_of_isTarget) (fun _ => rfl)
      (fun _ => rfl)).map Except.ok)
    ((Confined.revise (p := (RowFilter.row id (some user)).accepts)
      (f := fun row => row.revise form now) (fun _ => RowFilter.id_of_accepts)
      (fun _ => userId_of_accepts) (fun _ => rfl) (fun _ => rfl)).map fun row =>
        Except.ok (row.map StoredRow.toFeedback))
  · intro rows hrows
    rw [revise_memory hrows.distinct]
    rfl
  · intro db _
    rw [revise_database]

/-- Removing a row within the user's rows is isolated. -/
theorem isolated_remove (id : String) : Isolated user freshId (remove id (some user)) := by
  apply Isolated.of_confined (fun ready _ => ready)
    ((Confined.remove (p := RowList.isTarget id (some user)) fun _ => userId_of_isTarget).map
      Except.ok)
    ((Confined.remove (p := (RowFilter.row id (some user)).accepts)
      fun _ => userId_of_accepts).map Except.ok)
  · intro rows _
    rw [remove_memory]
  · intro db _
    rw [remove_database, execute_remove]

/-- Removing the user's rows is isolated. -/
theorem isolated_removeUser : Isolated user freshId (removeUser user) := by
  apply Isolated.of_confined (fun ready _ => ready)
    ((Confined.remove (p := fun row : Feedback => row.userId == user)
      fun _ => beq_iff_eq.mp).map Except.ok)
    ((Confined.remove (p := (RowFilter.user user).accepts) fun _ => beq_iff_eq.mp).map Except.ok)
  · intro rows _
    rw [removeUser_memory]
  · intro db _
    rw [removeUser_database, execute_remove]

/-- Finding a row within the user's rows is isolated. -/
theorem isolated_find (id : String) :
    Isolated user freshId fun store => (store.find id (some user), store) := by
  apply Isolated.of_confined (fun ready _ => ready)
    ((Confined.find (p := RowList.isTarget id (some user)) (fun _ => RowList.id_of_isTarget)
      fun _ => userId_of_isTarget).map Except.ok)
    ((Confined.find (p := (RowFilter.row id (some user)).accepts)
      (fun _ => RowFilter.id_of_accepts) fun _ => userId_of_accepts).map fun row =>
        Except.ok (row.map StoredRow.toFeedback))
  · intro rows _
    rfl
  · intro db _
    rw [find_database]
    cases db.isReady <;> rfl

/-- Listing the user's rows is isolated. -/
theorem isolated_newestOf :
    Isolated user freshId fun store => (store.newestOf user, store) := by
  apply Isolated.of_confined (fun ready _ => ready)
    ((Confined.newest fun row : Feedback => row.createdAt.toInt).map Except.ok)
    ((Confined.newest fun row : StoredRow => row.createdAt.toInt).map fun rows =>
      Except.ok (rows.map StoredRow.toFeedback))
  · intro rows _
    rfl
  · intro db _
    rw [newestOf_database, answerOf_newest]
    cases db.isReady <;> rfl

end Store

end FeedbackBoard
