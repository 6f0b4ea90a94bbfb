import FeedbackBoard.Proofs.Access.Gate
import FeedbackBoard.Proofs.Api.PageQueries
import FeedbackBoard.Proofs.Store.PageOrder

/-!
# Pages that are sent

An administrator who asks for one page after the other is sent all rows, each once, in the
order of the store's keys.  A row is shown with its author and without its conversation.
Pages before the first are the first one, pages after the last are empty, and a page is
refused only if the number of its first row does not fit in 64 bits.

Main definitions:

- `SortField.IsNamedBy`, `Direction.IsNamedBy`: what names in a query ask for.
- `Board.AsksForPage`: a request for a page.
- `Registry.ShowsAuthor`, `Board.ShowsRow`: what is sent for a row.
- `Board.pageOffset`, `Board.pageRows`: where a page begins, and its rows.
- `Board.Paginates`: the pages of a list make up the list.

Main results:

- `Board.exists_asksForPage`: every page can be asked for.
- `Board.paginates`: all lists are made up of their pages.
- `Board.AsksForPage.handle_of_page`: the response to a request for a page.
- `Board.pages_partition`: the pages that are sent make up all rows.
-/

namespace FeedbackBoard

/-! ## What is shown of a row -/

/-- What is sent for an author: a registered user with the id, or `null` if there is none. -/
inductive Registry.ShowsAuthor (registry : Registry) (id : String) : Json.Value → Prop
  | known {digest : String} {user : User} (hlisted : (digest, user) ∈ registry.users)
    (hid : user.id = id) : ShowsAuthor registry id (.object [("id", .string user.id),
      ("name", .string user.name), ("role", .string user.role.name)])
  | unknown (h : ∀ entry ∈ registry.users, entry.2.id ≠ id) : ShowsAuthor registry id .null

/-- What the registry tells about a user is shown as the author. -/
theorem Registry.showsAuthor_encode (registry : Registry) (id : String) :
    registry.ShowsAuthor id (Json.encode (registry.author? id)) := by
  rw [author?]
  cases hfind : registry.users.find? fun entry => entry.2.id == id with
  | none =>
      rw [List.find?_eq_none] at hfind
      exact .unknown fun entry hentry hid => hfind entry hentry (beq_iff_eq.mpr hid)
  | some entry =>
      have hid := List.find?_some (p := fun entry : String × User => entry.2.id == id) hfind
      exact .known (List.mem_of_find?_eq_some hfind) (beq_iff_eq.mp hid)

namespace Board

/-- What is sent for a row: all its columns but the conversation, and its author. -/
inductive ShowsRow (board : Board) (row : Feedback) : Json.Value → Prop
  | item {author : Json.Value} (hauthor : board.registry.ShowsAuthor row.userId author) :
    ShowsRow board row (.object
      [("id", .string row.id), ("user_id", .string row.userId),
       ("version", .number (Json.numberOfInt row.version.toInt)), ("type", .string row.kind),
       ("data", row.data.getD .null), ("meta", row.info.getD .null),
       ("created_at", .number (Json.numberOfInt row.createdAt.toInt)),
       ("updated_at", .number (Json.numberOfInt row.updatedAt.toInt)), ("user", author)])

/-- A row is shown with its author. -/
theorem showsRow_encode (board : Board) (row : Feedback) :
    board.ShowsRow row (Json.encode (board.sign row)) := by
  have hitem := ShowsRow.item (board.registry.showsAuthor_encode row.userId)
  obtain ⟨id, userId, version, kind, data, info, snapshot, createdAt, updatedAt⟩ := row
  cases data <;> cases info <;> exact hitem

/-- A page is sent as its rows and the number of all rows. -/
theorem encode_listing (board : Board) (rows : List Feedback) (total : Nat) :
    Json.encode (board.listing ⟨rows, total⟩) =
      .object [("items", .array (rows.map fun row => Json.encode (board.sign row))),
        ("total", .number (Json.numberOfInt (Int64.ofNat total).toInt))] := by
  have hitems : (rows.map board.sign).map Json.encode =
      rows.map fun row => Json.encode (board.sign row) := List.map_map
  rw [← hitems]
  rfl

end Board

/-! ## Requests for pages -/

/-- The name of a field in a query. -/
def SortField.queryName : SortField → List Char
  | model => "model_id".toList
  | rating => "rating".toList
  | createdAt => "created_at".toList
  | updatedAt => "updated_at".toList

/-- The names that ask for a field; all others, and no name, ask for the last change. -/
def SortField.IsNamedBy (name : Option String) : SortField → Prop
  | model => name = some "model_id"
  | rating => name = some "rating"
  | createdAt => name = some "created_at"
  | updatedAt => name ≠ some "model_id" ∧ name ≠ some "rating" ∧ name ≠ some "created_at"

theorem SortField.ofName_eq_iff {name : Option String} {field : SortField} :
    ofName name = field ↔ field.IsNamedBy name := by
  unfold ofName
  split <;> cases field <;> simp_all [IsNamedBy]

theorem SortField.ofName_queryName (field : SortField) :
    ofName (some (String.ofList field.queryName)) = field := by
  cases field <;> rfl

theorem SortField.isPlain_queryName (field : SortField) :
    ∀ c ∈ field.queryName, IsPlainInQuery c := by
  cases field <;> exact isPlainInQuery_of_all rfl

/-- The name of a direction in a query. -/
def Direction.queryName : Direction → List Char
  | ascending => "asc".toList
  | descending => "desc".toList

/-- The names that ask for a direction: `asc` in letters of any case, or anything else. -/
def Direction.IsNamedBy (name : Option String) : Direction → Prop
  | ascending => ∃ text ∈ name, text.toList.map Char.toLower = ['a', 's', 'c']
  | descending => ∀ text ∈ name, text.toList.map Char.toLower ≠ ['a', 's', 'c']

theorem Direction.ofName_eq_iff {name : Option String} {direction : Direction} :
    ofName name = direction ↔ direction.IsNamedBy name := by
  rw [ofName]
  split <;> cases direction <;> cases name <;> simp_all [IsNamedBy]

theorem Direction.ofName_queryName (direction : Direction) :
    ofName (some (String.ofList direction.queryName)) = direction := by
  cases direction <;> decide

theorem Direction.isPlain_queryName (direction : Direction) :
    ∀ c ∈ direction.queryName, IsPlainInQuery c := by
  cases direction <;> exact isPlainInQuery_of_all rfl

section Targets

variable {request : Request} {place query : List Char}

theorem Request.address_of_target (h : request.target = String.ofList (place ++ '?' :: query))
    (hplace : '#' ∉ place) (hquery : '#' ∉ query) : request.address = place ++ '?' :: query := by
  have hall : ∀ c ∈ place ++ '?' :: query, (c != '#') = true := by
    intro c hc
    rw [bne_iff_ne]
    rintro rfl
    rcases List.mem_append.mp hc with hc | hc
    · exact hplace hc
    · exact hquery ((List.mem_cons.mp hc).resolve_left (by decide))
  rw [address, h, String.toList_ofList, List.takeWhile_eq_self_iff.mpr hall]

theorem Request.path_of_address (h : request.address = place ++ '?' :: query)
    (hplace : ∀ c ∈ place, (c != '?') = true) : request.path = place := by
  rw [path, h, List.takeWhile_append_of_pos hplace]
  exact List.append_nil place

theorem Request.query_of_address (h : request.address = place ++ '?' :: query)
    (hplace : ∀ c ∈ place, (c != '?') = true) : request.query = query := by
  rw [Request.query, h, List.dropWhile_append_of_pos hplace]
  rfl

end Targets

namespace Board

/-- The request asks for a page of this number and order, and whoever asks may see it. -/
structure AsksForPage (board : Board) (request : Request) (field : SortField)
    (direction : Direction) (number : Int) : Prop where
  route : Route.ofPath? request.path = some .list
  method : request.method = "GET"
  clears : board.Clears request .admin
  parameters : ∃ orderBy way page,
    ListParameters.ofQuery request.query = .ok { orderBy, direction := way, page } ∧
      field.IsNamedBy orderBy ∧ direction.IsNamedBy way ∧ page.getD 1 = number

/-- The place where pages are. -/
def pagePlace : List Char :=
  "/api/v1/evaluations/feedbacks/list".toList

/-- Whoever may see pages can ask for every page whose number fits in 64 bits. -/
theorem exists_asksForPage {board : Board} {request : Request}
    (hclears : board.Clears request .admin) (field : SortField) (direction : Direction)
    {number : Int} (hlow : -0x8000000000000000 ≤ number) (hhigh : number < 0x8000000000000000) :
    ∃ target, board.AsksForPage { request with method := "GET", target := target } field direction
      number := by
  let query := pageQueryChars field.queryName direction.queryName number
  let asking : Request :=
    { request with method := "GET", target := String.ofList (pagePlace ++ '?' :: query) }
  have hfragment : '#' ∉ query :=
    hash_not_mem_pageQueryChars number field.isPlain_queryName direction.isPlain_queryName
  have hplace : ∀ c ∈ pagePlace, (c != '?') = true := List.all_eq_true.mp rfl
  have haddress : asking.address = pagePlace ++ '?' :: query :=
    Request.address_of_target rfl (by decide +kernel) hfragment
  refine ⟨asking.target, ?_, rfl, hclears, _, _, some number, ?_,
    SortField.ofName_eq_iff.mp field.ofName_queryName,
    Direction.ofName_eq_iff.mp direction.ofName_queryName, rfl⟩
  · rw [Request.path_of_address haddress hplace]
    decide +kernel
  · rw [Request.query_of_address haddress hplace]
    exact ListParameters.ofQuery_pageQueryChars field.isPlain_queryName direction.isPlain_queryName
      hlow hhigh

/-- How many rows lie before a page; pages before the first count as the first. -/
def pageOffset (board : Board) (number : Int) : Int :=
  (max 1 number - 1) * board.pageSize

/-- The rows of a page, of all rows in order. -/
def pageRows (board : Board) (rows : List Feedback) (number : Int) : List Feedback :=
  (rows.drop (board.pageOffset number).toNat).take board.pageSize.toNat

section Rows

variable {board : Board} {rows : List Feedback} {number : Int}

theorem pageOffset_nonneg (hsize : 1 ≤ board.pageSize) : 0 ≤ board.pageOffset number :=
  Int.mul_nonneg (by omega) (by omega)

/-- Pages before the first one are the first one. -/
theorem pageOffset_of_le (h : number ≤ 1) : board.pageOffset number = 0 := by
  rw [pageOffset, max_eq_left h, Int.sub_self, Int.zero_mul]

/-- The page after `n` others begins after as many rows as these have. -/
theorem pageOffset_succ (hsize : 1 ≤ board.pageSize) (n : Nat) :
    board.pageOffset (n + 1) = (n * board.pageSize.toNat : Nat) := by
  rw [pageOffset, max_eq_right (by omega), Int.add_sub_cancel, Nat.cast_mul,
    Int.toNat_of_nonneg (by omega)]

theorem pageRows_succ (hsize : 1 ≤ board.pageSize) (n : Nat) :
    board.pageRows rows (n + 1) =
      (rows.drop (n * board.pageSize.toNat)).take board.pageSize.toNat := by
  rw [pageRows, pageOffset_succ hsize, Int.toNat_natCast]

/-- The pages put one after another are all rows. -/
theorem flatMap_pageRows (hsize : 1 ≤ board.pageSize) (rows : List Feedback) :
    (List.range (pageCount board.pageSize.toNat rows.length)).flatMap
      (fun n : Nat => board.pageRows rows (n + 1)) = rows := by
  have hpages : (fun n : Nat => board.pageRows rows (n + 1)) = fun n =>
      (rows.drop (n * board.pageSize.toNat)).take board.pageSize.toNat :=
    funext (pageRows_succ hsize)
  rw [hpages, flatMap_range_parts]
  exact List.take_of_length_le (pageCount_mul_ge (by omega) _)

/-- Every page but the last one is full. -/
theorem length_pageRows (hsize : 1 ≤ board.pageSize) (hfirst : 1 ≤ number)
    (hlast : number < pageCount board.pageSize.toNat rows.length) :
    (board.pageRows rows number).length = board.pageSize := by
  obtain ⟨n, rfl⟩ : ∃ n : Nat, number = n + 1 := ⟨(number - 1).toNat, by omega⟩
  have hnext : (n + 1) * board.pageSize.toNat < rows.length :=
    mul_lt_of_lt_pageCount (by omega) (by omega)
  rw [pageRows_succ hsize, List.length_take, List.length_drop]
  rw [Nat.succ_mul] at hnext
  omega

/-- There are no rows after the last page. -/
theorem pageRows_eq_nil (hsize : 1 ≤ board.pageSize)
    (hlast : pageCount board.pageSize.toNat rows.length < number) :
    board.pageRows rows number = [] := by
  obtain ⟨n, rfl⟩ : ∃ n : Nat, number = n + 1 := ⟨(number - 1).toNat, by omega⟩
  have hall : rows.length ≤ n * board.pageSize.toNat :=
    (pageCount_mul_ge (by omega) _).trans (Nat.mul_le_mul_right _ (by omega))
  rw [pageRows_succ hsize, List.drop_eq_nil_of_le hall, List.take_nil]

/-- Where pages have rows, their first rows have numbers below the number of rows. -/
theorem pageOffset_lt (hsize : 1 ≤ board.pageSize)
    (hrows : rows.length < 0x8000000000000000)
    (hlast : number ≤ pageCount board.pageSize.toNat rows.length) :
    board.pageOffset number < 0x8000000000000000 := by
  rcases lt_or_ge 1 number with hmore | hfirst
  · obtain ⟨n, rfl⟩ : ∃ n : Nat, number = n + 1 := ⟨(number - 1).toNat, by omega⟩
    have hbefore : n * board.pageSize.toNat < rows.length :=
      mul_lt_of_lt_pageCount (by omega) (by omega)
    rw [pageOffset_succ hsize]
    omega
  · rw [pageOffset_of_le hfirst]
    decide

/-- The pages of a list of rows make up the list. -/
structure Paginates (board : Board) (rows : List Feedback) : Prop where
  /-- The pages put one after another are all rows. -/
  joined : (List.range (pageCount board.pageSize.toNat rows.length)).flatMap
    (fun n : Nat => board.pageRows rows (n + 1)) = rows
  /-- Every page but the last one is full. -/
  full : ∀ number : Int, 1 ≤ number → number < pageCount board.pageSize.toNat rows.length →
    (board.pageRows rows number).length = board.pageSize
  /-- Pages before the first one are the first one. -/
  first : ∀ number : Int, number ≤ 1 →
    board.pageOffset number = 0 ∧ board.pageRows rows number = board.pageRows rows 1
  /-- After the last page there are no rows. -/
  past : ∀ number : Int, pageCount board.pageSize.toNat rows.length < number →
    board.pageRows rows number = []
  /-- The number of all rows is told as it is if it fits in 64 bits. -/
  counted : rows.length < 0x8000000000000000 → (Int64.ofNat rows.length).toInt = rows.length
  /-- Up to the last page, the numbers of rows fit in 64 bits if the number of all rows does. -/
  fits : rows.length < 0x8000000000000000 →
    ∀ number : Int, number ≤ pageCount board.pageSize.toNat rows.length →
      board.pageOffset number < 0x8000000000000000

/-- All lists are made up of their pages. -/
theorem paginates (hsize : 1 ≤ board.pageSize) (rows : List Feedback) : board.Paginates rows where
  joined := flatMap_pageRows hsize rows
  full _ hfirst hlast := length_pageRows hsize hfirst hlast
  first number hfirst := by
    rw [pageRows, pageRows, pageOffset_of_le hfirst, pageOffset_of_le (Int.le_refl 1)]
    exact ⟨rfl, rfl⟩
  past _ hlast := pageRows_eq_nil hsize hlast
  counted hrows := Int64.toInt_ofNat_of_lt hrows
  fits hrows _ hlast := pageOffset_lt hsize hrows hlast

end Rows

/-! ## Responses -/

section Responses

variable {board : Board} {request : Request} {field : SortField} {direction : Direction}
  {number : Int}

/-- The page that is looked up, if the number of its first row fits in 64 bits. -/
theorem AsksForPage.pageQuery (h : board.AsksForPage request field direction number)
    (hsize : 1 ≤ board.pageSize) :
    board.pageQuery request =
      if board.pageOffset number < 0x8000000000000000 then
        .ok ⟨field, direction, board.pageOffset number, board.pageSize⟩
      else .error (.bad .pageOutOfRange) := by
  obtain ⟨orderBy, way, page, hquery, hfield, hdirection, rfl⟩ := h.parameters
  rw [← SortField.ofName_eq_iff] at hfield
  rw [← Direction.ofName_eq_iff] at hdirection
  subst hfield hdirection
  have hnonneg : 0 ≤ board.pageOffset (page.getD 1) := pageOffset_nonneg hsize
  have hrange : (-0x8000000000000000 ≤ board.pageOffset (page.getD 1) ∧
      board.pageOffset (page.getD 1) < 0x8000000000000000) =
        (board.pageOffset (page.getD 1) < 0x8000000000000000) :=
    propext (and_iff_right (Int.le_trans (by decide) hnonneg))
  rw [Board.pageQuery, hquery]
  exact if_congr (iff_of_eq hrange) rfl rfl

/-- What is answered to a request for a page. -/
def pageAnswer (board : Board) (request : Request) (store : Store) : Answer :=
  match board.pageQuery request with
  | .error refusal => .error refusal
  | .ok query => .ofStore (fun page => Answer.send (board.listing page)) (store.page query)

/-- Whoever may see pages is sent the answer, and the rows stay as they are. -/
theorem AsksForPage.handle_eq (h : board.AsksForPage request field direction number)
    (now : Int64) (state : State) :
    board.handle now request state =
      ((Reply.json (board.pageAnswer request state.store)).response, state) := by
  obtain ⟨user, huser⟩ := exists_admission h.clears
  have hcaller : board.adminCaller request = .ok user := huser
  have haction : Route.list.action? request.method = some .listPage := by
    rw [h.method]
    rfl
  have hperform : board.perform now request .listPage state =
      (.json (board.pageAnswer request state.store), state) := by
    rw [perform, forAdmin, hcaller, pageAnswer]
    cases board.pageQuery request <;> rfl
  rw [handle_of_action h.route haction, hperform, h.method]
  cases board.pageAnswer request state.store <;> rfl

/-- The response to a request for a page of ordered rows. -/
theorem AsksForPage.handle_of_page (h : board.AsksForPage request field direction number)
    (hsize : 1 ≤ board.pageSize) {state : State} {rows : List Feedback}
    (hpage : ∀ skip limit, state.store.page ⟨field, direction, skip, limit⟩ =
      .ok { items := pageSlice ⟨field, direction, skip, limit⟩ rows, total := rows.length })
    (now : Int64) :
    board.handle now request state =
      (if board.pageOffset number < 0x8000000000000000 then
          .ofValue (Json.encode (board.listing ⟨board.pageRows rows number, rows.length⟩))
        else .ofRefusal (.bad .pageOutOfRange), state) := by
  rw [h.handle_eq, pageAnswer, h.pageQuery hsize]
  by_cases hfits : board.pageOffset number < 0x8000000000000000
  · rw [if_pos hfits, if_pos hfits]
    simp only [hpage]
    rfl
  · rw [if_neg hfits, if_neg hfits]
    rfl

end Responses

/-! ## All pages -/

/--
For every order and direction there is only one list of all rows, each once and in that
order.  Every request for a page is answered with the rows of a page of it and with the
number of all rows, and every page whose number fits in 64 bits can be asked for.  A page is
refused exactly if the number of its first row does not fit in 64 bits.  The list is the
same however the rows were added.
-/
theorem pages_partition (board : Board) (hsize : 1 ≤ board.pageSize) {store : Store}
    (hdistinct : store.ids.Nodup) (hready : store.isReady = true) (hjson : store.HoldsJson)
    (field : SortField) (direction : Direction) :
    (∀ asking, board.Clears asking .admin → ∀ number : Int,
      -0x8000000000000000 ≤ number → number < 0x8000000000000000 →
        ∃ target, board.AsksForPage { asking with method := "GET", target := target }
          field direction number) ∧
    ∃ rows, (∀ list, store.InPageOrder field direction list ↔ list = rows) ∧
      board.Paginates rows ∧
      ∀ other, store.HoldsSame other → ∀ request number,
        board.AsksForPage request field direction number → ∀ now issued,
          let answered := board.handle now request ⟨other, issued⟩
          answered.2 = ⟨other, issued⟩ ∧
          if board.pageOffset number < 0x8000000000000000 then
            ∃ items, List.Forall₂ board.ShowsRow (board.pageRows rows number) items ∧
              answered.1 =
                { status := 200
                  content := .json (.object [("items", .array items),
                    ("total", .number (Json.numberOfInt (Int64.ofNat rows.length).toInt))])
                  headersOnly := false
                  allow := none
                  preflight := false }
          else
            answered.1 =
              { status := 400
                content := .json (.object [("error", .object [("code", .string "bad_request"),
                  ("message", .string "page out of range")])])
                headersOnly := false
                allow := none
                preflight := false } := by
  refine ⟨fun asking hclears number => exists_asksForPage hclears field direction, ?_⟩
  obtain ⟨rows, horder, hpages⟩ := Store.exists_inPageOrder hdistinct hready hjson field direction
  refine ⟨rows, fun list => ⟨fun hlist => hlist.unique horder, fun hlist => hlist ▸ horder⟩,
    paginates hsize rows, ?_⟩
  intro other hsame request number hasks now issued answered
  have hanswered : answered = _ := hasks.handle_of_page hsize (hpages other hsame) now
  refine ⟨congrArg Prod.snd hanswered, ?_⟩
  split
  next hfits =>
    refine ⟨(board.pageRows rows number).map fun row => Json.encode (board.sign row), ?_, ?_⟩
    · rw [List.forall₂_map_right_iff, List.forall₂_same]
      exact fun row _ => board.showsRow_encode row
    · rw [hanswered, if_pos hfits, encode_listing]
      rfl
  next hfits =>
    rw [hanswered, if_neg hfits]
    rfl

/--
Of four rows on pages of two, by descending ratings, the text stands before the numbers, those
of one number by their ids, and the row without a rating last; the greatest page is refused.
-/
theorem pages_partition_four_rows :
    let board : Board :=
      ⟨⟨[(secretDigest "s", ⟨"ann", "Ann", .admin⟩)]⟩, 2, fun n => toString n⟩
    let request (page : String) : Request :=
      { method := "GET"
        target := "/api/v1/evaluations/feedbacks/list?order_by=rating&direction=Desc&page=" ++ page
        headers := [("authorization", "bearer s".toUTF8.toList)]
        body := [] }
    let rated (rating : Json.Value) : Json.Value := .object [("rating", rating)]
    let one : Json.Value := .number (.integer 1 (by decide) (by decide))
    let row (id userId : String) (data : Option Json.Value) : Feedback :=
      ⟨id, userId, 0, "rating", data, none, none, 1, 2⟩
    let rows := [row "h" "bob" (rated one), row "f" "ann" none, row "k" "bob" (rated (.string "1")),
      row "g" "bob" (rated one)]
    let item (id userId : String) (data author : Json.Value) : Json.Value :=
      .object
        [("id", .string id), ("user_id", .string userId), ("version", .number (Json.numberOfInt 0)),
         ("type", .string "rating"), ("data", data), ("meta", .null),
         ("created_at", .number (Json.numberOfInt 1)), ("updated_at", .number (Json.numberOfInt 2)),
         ("user", author)]
    let ann : Json.Value :=
      .object [("id", .string "ann"), ("name", .string "Ann"), ("role", .string "admin")]
    let page (items : List Json.Value) : Content :=
      .json (.object [("items", .array items), ("total", .number (Json.numberOfInt 4))])
    ∀ store ∈ [Store.memory rows, .database { (Database.empty.migrate 0).2 with
        rows := rows.map StoredRow.ofFeedback }],
      let response (number : String) := (board.handle 0 (request number) ⟨store, 0⟩).1
      (response "1").body =
          page [item "k" "bob" (rated (.string "1")) .null, item "g" "bob" (rated one) .null] ∧
        (response "2").body = page [item "h" "bob" (rated one) .null, item "f" "ann" .null ann] ∧
          (response "9223372036854775807").status = 400 := by
  intro board request rated one row rows item ann page store hstore response
  let sorted := [row "k" "bob" (rated (.string "1")), row "g" "bob" (rated one),
    row "h" "bob" (rated one), row "f" "ann" none]
  have hperm : sorted.Perm rows := @List.perm_append_comm _ [_, _] [_, _]
  have horder : store.InPageOrder .rating .descending sorted := by
    have hsorted : sorted.Pairwise fun a b => pageOrder .rating .descending a b = .lt := by
      decide +kernel
    have hstored : (sorted.map StoredRow.ofFeedback).Pairwise fun a b =>
        Direction.descending.order (StoredRow.compareCell .rating) StoredRow.id a b = .lt := by
      decide +kernel
    have hordered : ∀ rating : Json.Value, rating.Ordered → (rated rating).Ordered := by
      intro rating h
      simp [rated, Json.Value.Ordered, Json.Value.OrderedMembers, KeysAscending, h]
    have hone : storedContent (storedText (some (rated one))) = some (rated one) :=
      (Json.readValue?_compact (hordered one trivial)).trans rfl
    have htext : storedContent (storedText (some (rated (.string "1")))) =
        some (rated (.string "1")) :=
      (Json.readValue?_compact (hordered (.string "1") trivial)).trans rfl
    have hread : sorted = (sorted.map StoredRow.ofFeedback).map StoredRow.toFeedback := by
      simp only [sorted, row, List.map_cons, List.map_nil, StoredRow.ofFeedback,
        StoredRow.toFeedback, hone, htext]
      rfl
    rcases List.mem_pair.mp hstore with rfl | rfl
    · exact .memory hperm ((Feedback.totallyOrders_pageOrder _ _).pairwise_iff.mp hsorted)
    · exact .database (hperm.map _)
        ((StoredRow.totallyOrders_order _ _).pairwise_iff.mp hstored)
        (StoredRow.forall₂_isReadAs_iff.mpr hread)
  obtain ⟨hready, hdistinct, hjson, hsame⟩ : store.isReady = true ∧ store.ids.Nodup ∧
      store.HoldsJson ∧ store.HoldsSame store := by
    rcases List.mem_pair.mp hstore with rfl | rfl
    · exact ⟨rfl, by decide, trivial, .memory (Or.inl rfl)⟩
    · exact ⟨rfl, by decide, Store.holdsJson_of_isSome (by decide +kernel),
        .database rfl (Or.inl rfl)⟩
  have hclears : ∀ number, board.Clears (request number) .admin := by
    have hsecret : (request "").secret? = some "s" := by decide +kernel
    exact fun _ => ⟨"s", ⟨"ann", "Ann", .admin⟩, hsecret, List.lookup_cons_self, rfl⟩
  have hasks : ∀ text number, Route.ofPath? (request text).path = some .list →
      ListParameters.ofQuery (request text).query =
        .ok ⟨some "rating", some "Desc", some number⟩ →
          board.AsksForPage (request text) .rating .descending number :=
    fun text number hroute hquery => ⟨hroute, rfl, hclears text, _, _, _, hquery,
      SortField.ofName_eq_iff.mp rfl, Direction.ofName_eq_iff.mp (by decide), rfl⟩
  have hauthor : ∀ {id value}, board.registry.ShowsAuthor id value →
      value = if id = "ann" then ann else .null := by
    rintro id value (@⟨digest, user, hlisted, rfl⟩ | hunknown)
    · obtain rfl := congrArg Prod.snd (List.mem_singleton.mp hlisted)
      rfl
    · exact (if_neg fun hid => hunknown _ List.mem_cons_self hid.symm).symm
  have hshown : ∀ {id userId data value}, board.ShowsRow (row id userId data) value →
      value = item id userId (data.getD .null) (if userId = "ann" then ann else .null) := by
    rintro id userId data value ⟨hshows⟩
    rw [hauthor hshows]
    rfl
  obtain ⟨-, all, hall, -, hsent⟩ :=
    board.pages_partition (by decide) hdistinct hready hjson .rating .descending
  obtain rfl := (hall sorted).mp horder
  refine ⟨?_, ?_, ?_⟩
  · have hfirst := hasks "1" 1 (by decide +kernel) (by decide +kernel)
    obtain ⟨items, hitems, hresponse⟩ := (hsent store hsame _ _ hfirst 0 0).2
    obtain _ | ⟨hk, _ | ⟨hg, _ | _⟩⟩ := hitems
    rw [hshown hk, hshown hg] at hresponse
    exact congrArg Response.body hresponse
  · have hsecond := hasks "2" 2 (by decide +kernel) (by decide +kernel)
    obtain ⟨items, hitems, hresponse⟩ := (hsent store hsame _ _ hsecond 0 0).2
    obtain _ | ⟨hh, _ | ⟨hf, _ | _⟩⟩ := hitems
    rw [hshown hh, hshown hf] at hresponse
    exact congrArg Response.body hresponse
  · have hgreatest := hasks "9223372036854775807" 0x7fffffffffffffff (by decide +kernel)
      (by decide +kernel)
    exact congrArg Response.status (hsent store hsame _ _ hgreatest 0 0).2

end Board

end FeedbackBoard
