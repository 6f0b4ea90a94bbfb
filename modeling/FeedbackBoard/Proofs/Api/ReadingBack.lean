import FeedbackBoard.Proofs.Access.Admission
import FeedbackBoard.Proofs.Api.Changes
import FeedbackBoard.Proofs.Feedback.Exchange
import FeedbackBoard.Proofs.Json.Rereading
import FeedbackBoard.Proofs.Store.Mirror

/-!
# Rows that are read after they were added

Whoever adds a row is answered with the row as it was read from the body.  A database
keeps the texts of its contents, so whoever asks for the row afterwards is answered with
what these texts are read as.  Both answers have the same shape, the same texts and the
same integers; a binary64 number may come back as another one, since a numeral of
seventeen digits is not always read as the nearest number.

Main definitions:

- `Response.id?`: the id that an answer tells.

Main results:

- `Store.find_of_insert`: the row that is found after it was added.
- `Board.read_of_create`: the two answers, and when they are the same.
-/

namespace FeedbackBoard

/-! ## Rows that are stored and found -/

/-- A row that is stored is the first one with its id. -/
theorem find?_storeRow {p : StoredRow → Bool} {row : StoredRow} (hrow : p row = true)
    (hid : ∀ other, p other = true → other.id = row.id) (rows : List StoredRow) :
    (storeRow row rows).find? p = some row := by
  induction rows with
  | nil => exact List.find?_cons_of_pos hrow
  | cons other rest ih =>
      rw [storeRow]
      by_cases hsame : other.id = row.id
      · rw [if_pos hsame, List.find?_cons_of_pos hrow]
      · rw [if_neg hsame, List.find?_cons_of_neg fun hother => hsame (hid other hother), ih]

/-- A row that a database has added is found within its owner's rows, as it is read back. -/
theorem Store.find_of_insert {db : Database} {row added : Feedback} {owner : Option String}
    (hadded : ((Store.database db).insert row).1 = .ok added) (howner : row.ownedBy owner = true) :
    added = row ∧ ((Store.database db).insert row).2.find row.id owner =
      .ok (some (StoredRow.ofFeedback row).toFeedback) := by
  rw [insert_database] at hadded ⊢
  split at hadded
  next hpermitted =>
    have hready : db.isReady = true := (Bool.and_eq_true_iff.mp hpermitted).1
    have haccepts : (RowFilter.row row.id owner).accepts (.ofFeedback row) = true := by
      rw [← isTarget_eq_accepts, RowList.isTarget, howner, beq_self_eq_true]
      rfl
    have hid : ∀ other : StoredRow, (RowFilter.row row.id owner).accepts other = true →
        other.id = (StoredRow.ofFeedback row).id := fun _ => RowFilter.id_of_accepts
    have hafter : { db with rows := storeRow (.ofFeedback row) db.rows }.isReady = true := hready
    rw [if_pos hpermitted, withRows, find_database, if_pos hafter, find?_storeRow haccepts hid]
    cases hadded
    exact ⟨rfl, rfl⟩
  next => cases hadded

namespace Feedback

theorem reread_numberOfInt (n : Int64) :
    (Json.numberOfInt n.toInt).reread = Json.numberOfInt n.toInt := by
  have hlower : -0x8000000000000000 ≤ n.toInt := Int64.le_toInt n
  have hupper : n.toInt < 0x8000000000000000 := Int64.toInt_lt n
  have hbounds : -0x8000000000000000 ≤ n.toInt ∧ n.toInt < 0x10000000000000000 := by omega
  rw [Json.numberOfInt, Json.Number.ofInt?, dif_pos hbounds, Option.getD_some,
    Json.Number.reread_integer]

/-- The members of a row that is sent. -/
theorem encode_eq (row : Feedback) :
    Json.encode row = .object
      [("id", .string row.id), ("user_id", .string row.userId),
        ("version", .number (Json.numberOfInt row.version.toInt)), ("type", .string row.kind),
        ("data", Json.encode row.data), ("meta", Json.encode row.info),
        ("snapshot", Json.encode row.snapshot),
        ("created_at", .number (Json.numberOfInt row.createdAt.toInt)),
        ("updated_at", .number (Json.numberOfInt row.updatedAt.toInt))] :=
  rfl

/-- A row that is read back is sent as the row, with every number as it is read back. -/
theorem encode_reread (row : Feedback) : Json.encode row.reread = (Json.encode row).reread := by
  have hcontent : ∀ content : Option Json.Value,
      Json.encode (content.map Json.Value.reread) = (Json.encode content).reread := by
    intro content
    cases content <;> rfl
  rw [encode_eq, encode_eq]
  simp only [Json.Value.reread, Json.Value.rereadMembers, reread_numberOfInt, reread, hcontent]

/-- A row is sent as it was after it is read back exactly if its contents are read back so. -/
theorem encode_reread_eq_self_iff (row : Feedback) :
    (Json.encode row).reread = Json.encode row ↔ ∀ content ∈ row.contents, content.HasReadBack := by
  have hcontent : ∀ content : Option Json.Value,
      (Json.encode content).reread = Json.encode content ↔
        ∀ value ∈ content, value.HasReadBack := by
    intro content
    cases content with
    | none => simp [Json.encode, Json.Value.reread]
    | some value =>
        change value.reread = value ↔ _
        simp [Json.Value.reread_eq_self_iff_hasReadBack]
  rw [encode_eq, forall_contents, ← hcontent, ← hcontent, ← hcontent]
  simp only [Json.Value.reread, Json.Value.rereadMembers, reread_numberOfInt,
    Json.Value.object.injEq, List.cons.injEq, Prod.mk.injEq, true_and, and_true]

end Feedback

/-! ## Adding and reading -/

/-- The id that an answer tells. -/
def Response.id? (response : Response) : Option String :=
  match response.content with
  | .json value =>
    match value.member? "id" with
    | some (.string id) => some id
    | _ => none
  | _ => none

namespace Board

variable {board : Board} {now later : Int64} {post get : Request} {state : State}

/-- A form that is accepted is added as a row of the caller, and the row is answered. -/
theorem exists_row_of_create (hcreate : Route.ofPath? post.path = some .create)
    (hpost : post.method = "POST") (hanswered : (board.handle now post state).1.status = 200) :
    ∃ user form added, board.verifiedCaller post = .ok user ∧ post.form = .ok form ∧
      (state.store.insert
        (.ofForm (board.freshId (state.issued + 1)) user.id form now)).1 = .ok added ∧
      board.handle now post state = (.ofValue (Json.encode added),
        ⟨(state.store.insert
          (.ofForm (board.freshId (state.issued + 1)) user.id form now)).2, state.issued + 1⟩) := by
  have haction : Route.create.action? post.method = some .create := by
    rw [hpost]
    rfl
  rw [handle_of_action hcreate haction] at hanswered ⊢
  cases hcaller : board.verifiedCaller post with
  | error refusal =>
      simp only [perform, forVerified, hcaller, Reply.status_response_json] at hanswered
      cases refusal <;> cases hanswered
  | ok user =>
      cases hform : post.form with
      | error refusal =>
          simp only [perform, forVerified, hcaller, create, hform, Reply.status_response_json]
            at hanswered
          cases refusal <;> cases hanswered
      | ok form =>
          simp only [perform, forVerified, hcaller, create, hform, Reply.status_response_json]
            at hanswered ⊢
          split at hanswered
          next => cases hanswered
          next hkind =>
            obtain ⟨added, hadded⟩ := Answer.status_ofStore_send_iff.mp hanswered
            refine ⟨user, form, added, rfl, rfl, hadded, ?_⟩
            simp only [if_neg hkind, hadded, hpost]
            rfl

/-- A caller who asks for a row is answered with what the store finds. -/
theorem handle_of_read {path : List Char} {id : String} {user : User}
    (hread : Route.ofPath? get.path = some (.row path)) (hget : get.method = "GET")
    (hcaller : board.verifiedCaller get = .ok user) (hnamed : pathDecoded? path = some id)
    {row : Feedback} (hfound : state.store.find id user.scope = .ok (some row)) :
    board.handle later get state = (.ofValue (Json.encode row), state) := by
  have haction : (Route.row path).action? get.method = some (.read path) := by
    rw [hget]
    rfl
  rw [handle_of_action hread haction]
  simp only [perform, forRow, hcaller, hnamed, hfound, hget]
  rfl

/--
Whoever adds a row to a database and then asks for it, by the id that was answered, is
answered the same value with every number as it is read back from its spelling.  So the
answers are the same exactly if the binary64 numbers of the contents are read back as
they were, and this is when each content is what its stored text stands for.
-/
theorem read_of_create {db : Database} {issued : Nat} {path : List Char}
    (hcreate : Route.ofPath? post.path = some .create) (hpost : post.method = "POST")
    (hread : Route.ofPath? get.path = some (.row path)) (hget : get.method = "GET")
    (hcaller : board.verifiedCaller get = board.verifiedCaller post)
    (hanswered : (board.handle now post ⟨.database db, issued⟩).1.status = 200)
    (hnamed : pathDecoded? path = (board.handle now post ⟨.database db, issued⟩).1.id?) :
    let posted := board.handle now post ⟨.database db, issued⟩
    let got := board.handle later get posted.2
    ∃ form value, post.form = .ok form ∧ posted.1 = .ofValue value ∧
      got = (.ofValue value.reread, posted.2) ∧
      (got.1 = posted.1 ↔ ∀ content ∈ form.contents, content.HasReadBack) ∧
      ∀ content ∈ form.contents,
        storedContent (storedText (some content)) = some content.reread ∧
          (storedContent (storedText (some content)) = some content ↔ content.HasReadBack) := by
  intro posted got
  obtain ⟨user, form, added, huser, hform, hadded, hposted⟩ :=
    exists_row_of_create hcreate hpost hanswered
  obtain ⟨row, hrow⟩ :
      ∃ row, row = Feedback.ofForm (board.freshId (issued + 1)) user.id form now := ⟨_, rfl⟩
  rw [← hrow] at hadded hposted
  have hcontents : form.contents = row.contents := by
    rw [hrow]
    rfl
  have hparsed : ∀ content ∈ row.contents, content.IsContent Json.levelLimit := by
    intro content hcontent
    rw [← hcontents] at hcontent
    exact (Request.isContent_of_form hform content hcontent).mono (Nat.sub_le _ _)
  have howner : row.ownedBy user.scope = true := by
    rw [hrow, User.scope]
    split
    · rfl
    · exact beq_self_eq_true user.id
  obtain ⟨rfl, hfound⟩ := Store.find_of_insert hadded howner
  rw [StoredRow.toFeedback_ofFeedback hparsed] at hfound
  have hid : (Response.ofValue (Json.encode added)).id? = some added.id := rfl
  rw [hposted, hid] at hnamed
  have hposted' : posted = _ := hposted
  have hgot : got = (.ofValue (Json.encode added).reread, posted.2) := by
    rw [← Feedback.encode_reread]
    refine handle_of_read hread hget (hcaller.trans huser) hnamed ?_
    rw [hposted']
    exact hfound
  refine ⟨form, Json.encode added, hform, ?_, hgot, ?_, ?_⟩
  · rw [hposted']
  · rw [hgot, hposted', hcontents, ← Feedback.encode_reread_eq_self_iff]
    simp [Response.ofValue]
  · intro content hcontent
    have hstored : storedContent (storedText (some content)) = some content.reread :=
      storedContent_storedText fun value hvalue => by
        cases hvalue
        exact hparsed content (hcontents ▸ hcontent)
    refine ⟨hstored, ?_⟩
    rw [hstored, Option.some_inj]
    exact content.reread_eq_self_iff_hasReadBack

/-- A short decimal is read back, and a decimal of seventeen digits is not. -/
theorem read_of_create_seventeen_digits :
    let board : Board := ⟨⟨[(secretDigest "s", ⟨"ann", "Ann", .user⟩)]⟩, 10, fun n => toString n⟩
    let ask (method target body : String) : Request :=
      { method := method
        target := "/api/v1/evaluations/" ++ target
        headers :=
          [("authorization", "bearer s".toUTF8.toList),
            ("content-type", "application/json".toUTF8.toList)]
        body := body.toUTF8.toList }
    let post (rating : String) : Request :=
      ask "POST" "feedback" ("\x7b\"type\":\"rating\",\"data\":" ++ rating ++ "\x7d")
    let posted (rating : String) := board.handle 1 (post rating) ⟨.emptyDatabase 0, 0⟩
    let got (rating : String) := board.handle 2 (ask "GET" "feedback/1" "") (posted rating).2
    (got "[0.5]").1 = (posted "[0.5]").1 ∧
      (got "[0.12345678901305838]").1 ≠ (posted "[0.12345678901305838]").1 := by
  intro board ask post posted got
  have hcreate : ∀ rating, Route.ofPath? (post rating).path = some .create := by
    intro rating
    change Route.ofPath? (ask "POST" "feedback" "").path = _
    decide +kernel
  have hread : Route.ofPath? (ask "GET" "feedback/1" "").path = some (.row ['1']) := by
    decide +kernel
  have hreads : ∀ rating, (posted rating).1.status = 200 → (posted rating).1.id? = some "1" →
      ∃ form, (post rating).form = .ok form ∧ ((got rating).1 = (posted rating).1 ↔
        ∀ content ∈ form.contents, content.HasReadBack) := by
    intro rating hstatus hid
    have hnamed : pathDecoded? ['1'] = (posted rating).1.id? := hid ▸ by decide +kernel
    obtain ⟨form, value, hform, -, -, hsame, -⟩ :=
      board.read_of_create (hcreate rating) rfl hread rfl rfl hstatus hnamed
    exact ⟨form, hform, hsame⟩
  -- The number that is read from this text is spelled `0.12345678901305839`, and from there the
  -- next number is read.
  have hsteady : ((post "[0.5]").form.toOption.all fun form =>
      decide (∀ content ∈ form.contents, content.HasReadBack)) = true := by decide +kernel
  have hmoves : ((post "[0.12345678901305838]").form.toOption.any fun form =>
      decide (∀ content ∈ form.contents, content.HasReadBack)) = false := by decide +kernel
  constructor
  · obtain ⟨form, hform, hsame⟩ := hreads "[0.5]" (by decide +kernel) (by decide +kernel)
    rw [hform] at hsteady
    exact hsame.mpr (of_decide_eq_true hsteady)
  · obtain ⟨form, hform, hsame⟩ :=
      hreads "[0.12345678901305838]" (by decide +kernel) (by decide +kernel)
    rw [hform] at hmoves
    exact fun heq => of_decide_eq_false hmoves (hsame.mp heq)

end Board

end FeedbackBoard
