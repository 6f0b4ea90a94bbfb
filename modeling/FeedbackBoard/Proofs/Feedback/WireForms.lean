import FeedbackBoard.Proofs.Json.RoundTrips
import FeedbackBoard.Reviews.Leaderboard

/-!
# The records of the interface come back

Rows, forms, the parts of a row, authors, pages and leaderboards are written as JSON
and read again.  Each comes back as it was, save that `null` as optional content comes
back as no content.  All of them are records of fields that come back, but for a row
with its author: the members of both stand in one object, and the reader first takes
the author out.

Main definitions:

- the instances of `Json.Exchanged` for all records of the interface.
- `WireRecord`: the records of the interface.

Main results:

- `Feedback.Signed.split_ofMembers`: the author is taken out of the members of a row.
- `WireRecord.round_trip`: every record of the interface comes back from its texts.
-/

namespace FeedbackBoard

open Json (Value Node Wire Exchanged contentWithoutNull levelLimit countBound)

namespace Feedback

/-! ## Rows and parts of them -/

/-- The fields of rows come back. -/
@[reducible]
def Column.exchanged : (f : Column) → @Exchanged f.Carrier f.form
  | .id | .userId | .kind => inferInstanceAs (Exchanged String)
  | .version | .createdAt | .updatedAt => inferInstanceAs (Exchanged Int64)
  | .data | .info | .snapshot => inferInstanceAs (Exchanged (Option Value))

/-- The row without content where it held `null`. -/
def withoutNulls (row : Feedback) : Feedback :=
  { row with
    data := contentWithoutNull row.data
    info := contentWithoutNull row.info
    snapshot := contentWithoutNull row.snapshot }

theorem isListed_format : format.IsListed :=
  .of_keys (fun f => by cases f <;> rfl) (by decide)

instance : Exchanged Feedback :=
  format.exchanged isListed_format Column.exchanged withoutNulls (fun _ => rfl) (fun _ => rfl)
    fun _ f => by cases f <;> rfl

/-- The form without content where it held `null`. -/
def Form.withoutNulls (form : Form) : Form :=
  { form with
    data := contentWithoutNull form.data
    info := contentWithoutNull form.info
    snapshot := contentWithoutNull form.snapshot }

theorem Form.isListed_format : Form.format.IsListed :=
  .of_keys (fun f => by cases f <;> rfl) (by decide)

instance : Exchanged Form :=
  Form.format.exchanged Form.isListed_format (fun f => f.column.exchanged) Form.withoutNulls
    (fun _ => rfl) (fun _ => rfl) fun _ f => by cases f <;> rfl

/-- The outline without content where it held `null`. -/
def Outline.withoutNulls (outline : Outline) : Outline :=
  { outline with
    data := contentWithoutNull outline.data
    info := contentWithoutNull outline.info }

theorem Outline.isListed_format : Outline.format.IsListed :=
  .of_keys (fun f => by cases f <;> rfl) (by decide)

instance : Exchanged Outline :=
  Outline.format.exchanged Outline.isListed_format (fun f => f.column.exchanged)
    Outline.withoutNulls (fun _ => rfl) (fun _ => rfl) fun _ f => by cases f <;> rfl

theorem Stamp.isListed_format : Stamp.format.IsListed :=
  .of_keys (fun f => by cases f <;> rfl) (by decide)

instance : Exchanged Stamp :=
  Stamp.format.exchanged Stamp.isListed_format (fun f => f.column.exchanged) (fun stamp => stamp)
    (fun _ => rfl) (fun _ => rfl) fun _ f => by cases f <;> rfl

/-- The payload without content where it held `null`. -/
def Payload.withoutNulls (payload : Payload) : Payload :=
  { payload with data := contentWithoutNull payload.data }

theorem Payload.isListed_format : Payload.format.IsListed :=
  .of_keys (fun f => by cases f <;> rfl) (by decide)

instance : Exchanged Payload :=
  Payload.format.exchanged Payload.isListed_format (fun f => f.column.exchanged)
    Payload.withoutNulls (fun _ => rfl) (fun _ => rfl) fun _ f => by cases f <;> rfl

end Feedback

/-! ## Authors -/

theorem Author.isListed_format : Author.format.IsListed :=
  .of_keys (fun f => by cases f <;> rfl) (by decide)

instance : Exchanged Author :=
  Author.format.exchanged Author.isListed_format (fun _ => inferInstanceAs (Exchanged String))
    (fun author => author)
    (fun _ => rfl) (fun _ => rfl) fun _ f => by cases f <;> rfl

instance : Exchanged (Option Author) :=
  .option fun _ h => by cases h

/-- An author who is known comes back, and so does one who is not. -/
theorem Author.decode_encode {levels : Nat} {author : Option Author}
    (h : (Json.encode author).ComesBack levels) :
    Json.decode levels (Node.ofValue (Json.encode author)) =
      (.ok author : Except Json.Fault (Option Author)) := by
  cases author with
  | none => rfl
  | some author =>
      exact Exchanged.decode_encode (fun _ h => absurd h List.not_mem_nil)
        (fun _ h => absurd h List.not_mem_nil) h

namespace Feedback

/-! ## Rows with their authors -/

/-- The form of a field of a row is an ordered value. -/
theorem Column.ordered_encode (f : Column) {a : f.Carrier}
    (h : ∀ value ∈ f.exchanged.contents a, value.Ordered) : (f.form.encode a).Ordered := by
  cases f with
  | id | userId | version | kind | createdAt | updatedAt => trivial
  | data | info | snapshot =>
      cases a with
      | none => trivial
      | some value => exact h value (List.mem_singleton.mpr rfl)

/-- The author is looked for behind members that have other keys and are values. -/
theorem Signed.split_ofMembers {levels : Nat} {members : List (String × Value)}
    (hmembers : ∀ member ∈ members, member.1 ≠ authorKey ∧
      ((Node.ofValue member.2).value? levels).isSome)
    (before rest : List (Option String × Node)) :
    split levels none before (Node.ofMembers members ++ rest) =
      split levels none ((Node.ofMembers members).reverse ++ before) rest := by
  induction members generalizing before with
  | nil => rfl
  | cons member others ih =>
      obtain ⟨key, item⟩ := member
      obtain ⟨hkey, hvalue⟩ := hmembers (key, item) List.mem_cons_self
      rw [Node.ofMembers, List.cons_append, split, if_neg hkey, if_pos hvalue,
        ih fun other hother => hmembers other (List.mem_cons_of_mem _ hother)]
      rw [List.reverse_cons, List.append_assoc, List.singleton_append]

theorem Outline.key_ne_authorKey (f : Outline.Entry) :
    Outline.format.key f ≠ Signed.authorKey := by
  cases f <;> decide

/-- The members of an outline are values, and none has the key of the author. -/
theorem Outline.isSome_value? {below : Nat} {outline : Outline}
    (hordered : ∀ value ∈ Exchanged.contents outline, value.Ordered)
    (hback : ∀ member ∈ Outline.format.toMembers outline, member.2.ComesBack below) :
    ∀ member ∈ Outline.format.toMembers outline, member.1 ≠ Signed.authorKey ∧
      ((Node.ofValue member.2).value? below).isSome := by
  intro member hmember
  have hdepth : member.2.depth ≤ below := (hback member hmember).depth_le
  obtain ⟨f, hf, rfl⟩ := List.mem_map.mp hmember
  have hfield : ∀ value ∈ f.column.exchanged.contents (Outline.format.get outline f),
      value.Ordered := fun value hvalue =>
    hordered value (List.mem_flatMap.mpr ⟨f, hf, hvalue⟩)
  have hvalue := Node.value?_ofValue below _ (Column.ordered_encode f.column hfield)
  rw [if_pos (by exact hdepth)] at hvalue
  exact ⟨Outline.key_ne_authorKey f, Option.isSome_of_eq_some hvalue⟩

/-- The row without content where it held `null`. -/
def Signed.withoutNulls (signed : Signed) : Signed :=
  { signed with outline := signed.outline.withoutNulls }

/-- A row and its author are read from the members of one object. -/
theorem Signed.decode_encode {levels : Nat} {signed : Signed}
    (hordered : ∀ value ∈ Exchanged.contents signed.outline, value.Ordered)
    (hback : (Json.encode signed).ComesBack levels) :
    Json.decode levels (Node.ofValue (Json.encode signed)) =
      (.ok signed.withoutNulls : Except Json.Fault Signed) := by
  obtain ⟨outline, author⟩ := signed
  obtain ⟨below, rfl, hmembers⟩ := Value.comesBack_object_iff.mp hback
  have hothers : ∀ member ∈ Outline.format.toMembers outline, member.2.ComesBack below :=
    fun member hmember => hmembers member (List.mem_append_left _ hmember)
  have hauthor : (Json.encode author).ComesBack below :=
    hmembers (authorKey, Json.encode author) (List.mem_append_right _ (List.mem_singleton.mpr rfl))
  have hsplit : split below none [] (Node.ofMembers (Outline.format.toMembers outline ++
      [(authorKey, Json.encode author)])) =
        .ok (author, Node.ofMembers (Outline.format.toMembers outline)) := by
    have hread := Author.decode_encode hauthor
    rw [Json.ofMembers_append, split_ofMembers (Outline.isSome_value? hordered hothers),
      List.append_nil, Node.ofMembers, Node.ofMembers, split, if_pos rfl, hread]
    simp only [Option.isSome_none, Bool.false_eq_true, if_false, split, Option.getD_some,
      List.reverse_reverse]
  have hdecode : Json.decode (below + 1) (Node.ofValue (Json.encode outline)) =
      (.ok outline.withoutNulls : Except Json.Fault Outline) :=
    Exchanged.decode_encode hordered (fun _ hn => absurd hn List.not_mem_nil)
      (Value.comesBack_object_iff.mpr ⟨below, rfl, hothers⟩)
  have hread : Outline.format.ofMembers below (Node.ofMembers (Outline.format.toMembers outline))
      true = .ok outline.withoutNulls := hdecode
  change Signed.ofNode (below + 1) (.object _ true) = _
  simp only [Signed.ofNode, hsplit, hread, if_true]
  rfl

instance : Exchanged Signed where
  contents signed := Exchanged.contents signed.outline
  counts _ := []
  withoutNulls := Signed.withoutNulls
  withoutNulls_eq_self {signed} h :=
    congrArg (fun outline => { signed with outline }) (Exchanged.withoutNulls_eq_self h)
  encode_withoutNulls signed := by
    have hmembers : Outline.format.toMembers signed.outline.withoutNulls =
        Outline.format.toMembers signed.outline :=
      Value.object.inj (Exchanged.encode_withoutNulls signed.outline)
    exact congrArg
      (fun members => Value.object (members ++ [(Signed.authorKey, Json.encode signed.author)]))
      hmembers
  decode_encode hordered _ hback := Signed.decode_encode hordered hback

/-! ## Pages -/

/-- The page without content where its rows held `null`. -/
def Listing.withoutNulls (listing : Listing) : Listing :=
  { listing with items := listing.items.map Signed.withoutNulls }

/-- The fields of pages come back. -/
@[reducible]
def Listing.Entry.exchanged :
    (f : Entry) → @Exchanged (Listing.format.Carrier f) (Listing.format.form f)
  | .items => inferInstanceAs (Exchanged (List Signed))
  | .total => inferInstanceAs (Exchanged Int64)

theorem Listing.isListed_format : Listing.format.IsListed :=
  .of_keys (fun f => by cases f <;> rfl) (by decide)

instance : Exchanged Listing :=
  Listing.format.exchanged Listing.isListed_format Listing.Entry.exchanged Listing.withoutNulls
    (fun _ => rfl) (fun _ => rfl) fun _ f => by cases f <;> rfl

end Feedback

/-! ## Leaderboards -/

/-- The fields of lines come back. -/
@[reducible]
def Standing.Entry.exchanged :
    (f : Entry) → @Exchanged (Standing.format.Carrier f) (Standing.format.form f)
  | .model => inferInstanceAs (Exchanged String)
  | .score => inferInstanceAs (Exchanged Binary64)
  | .total | .positive | .negative => inferInstanceAs (Exchanged Nat)

theorem Standing.isListed_format : Standing.format.IsListed :=
  .of_keys (fun f => by cases f <;> rfl) (by decide)

instance : Exchanged Standing :=
  Standing.format.exchanged Standing.isListed_format Standing.Entry.exchanged (fun line => line)
    (fun _ => rfl) (fun _ => rfl) fun _ f => by cases f <;> rfl

theorem Leaderboard.isListed_format : Leaderboard.format.IsListed :=
  .of_keys (fun f => by cases f; rfl) (by decide)

instance : Exchanged Leaderboard :=
  Leaderboard.format.exchanged Leaderboard.isListed_format
    (fun _ => inferInstanceAs (Exchanged (List Standing))) (fun board => board)
    (fun _ => rfl)
    (fun board => congrArg (fun entries => (Except.ok ⟨entries⟩ : Except Json.Fault Leaderboard))
      (List.map_id' board.entries))
    fun board _ => (List.map_id' board.entries).symm

/-! ## All records -/

/-- The records of the interface. -/
inductive WireRecord
  | row
  | form
  | outline
  | stamp
  | author
  | signed
  | listing
  | payload
  | standing
  | leaderboard
deriving DecidableEq, Repr

namespace WireRecord

/-- The elements of a record. -/
def Carrier : WireRecord → Type
  | row => Feedback
  | form => Feedback.Form
  | outline => Feedback.Outline
  | stamp => Feedback.Stamp
  | author => Author
  | signed => Feedback.Signed
  | listing => Feedback.Listing
  | payload => Feedback.Payload
  | standing => Standing
  | leaderboard => Leaderboard

instance : (record : WireRecord) → Wire record.Carrier
  | row => inferInstanceAs (Wire Feedback)
  | form => inferInstanceAs (Wire Feedback.Form)
  | outline => inferInstanceAs (Wire Feedback.Outline)
  | stamp => inferInstanceAs (Wire Feedback.Stamp)
  | author => inferInstanceAs (Wire Author)
  | signed => inferInstanceAs (Wire Feedback.Signed)
  | listing => inferInstanceAs (Wire Feedback.Listing)
  | payload => inferInstanceAs (Wire Feedback.Payload)
  | standing => inferInstanceAs (Wire Standing)
  | leaderboard => inferInstanceAs (Wire Leaderboard)

instance : (record : WireRecord) → Exchanged record.Carrier
  | row => inferInstanceAs (Exchanged Feedback)
  | form => inferInstanceAs (Exchanged Feedback.Form)
  | outline => inferInstanceAs (Exchanged Feedback.Outline)
  | stamp => inferInstanceAs (Exchanged Feedback.Stamp)
  | author => inferInstanceAs (Exchanged Author)
  | signed => inferInstanceAs (Exchanged Feedback.Signed)
  | listing => inferInstanceAs (Exchanged Feedback.Listing)
  | payload => inferInstanceAs (Exchanged Feedback.Payload)
  | standing => inferInstanceAs (Exchanged Standing)
  | leaderboard => inferInstanceAs (Exchanged Leaderboard)

/--
Every element of a record of the interface comes back from its text, on one line or on
indented lines, if the text is nested no deeper than the reader follows and every
binary64 number in it is read back.  It comes back as it was, or without content where
it held `null`, and then it is written alike again.  (The keys of objects ascend, and counts
have 64 bits.)
-/
theorem round_trip (record : WireRecord) (a : record.Carrier)
    (hordered : ∀ value ∈ Exchanged.contents a, value.Ordered)
    (hcounts : ∀ n ∈ Exchanged.counts a, n < countBound)
    (hdepth : (Json.encode a).depth ≤ levelLimit) (hnumbers : (Json.encode a).HasReadBack) :
    let back := Exchanged.withoutNulls a
    Json.ofText (Json.toText a) = .ok back ∧ Json.ofText (Json.toIndentedText a) = .ok back ∧
      (Value.null ∉ Exchanged.contents a → back = a) ∧
      Json.toText back = Json.toText a ∧ Json.toIndentedText back = Json.toIndentedText a := by
  intro back
  have hback : (Json.encode a).ComesBack levelLimit := ⟨hdepth, hnumbers⟩
  obtain ⟨hline, hindented⟩ := Exchanged.ofText_toText hordered hcounts hback
  exact ⟨hline, hindented, Exchanged.withoutNulls_eq_self, Exchanged.toText_withoutNulls a⟩

/-- A page comes back with a score of `0.5227` and without the `null` of one of its rows. -/
theorem round_trip_listing :
    let score : Value := .number (.double (leaderboardScore 1 1))
    let row (info : Option Value) : Feedback.Outline :=
      { id := "a"
        userId := "ann"
        version := 0
        kind := "rating"
        data := some (.object [("model_id", .string "m"), ("rating", .array [score])])
        info := info
        createdAt := -1
        updatedAt := 9007199254740993 }
    let page (info : Option Value) : Feedback.Listing :=
      { items := [⟨row info, some ⟨"ann", "Ann \"A\"", "user"⟩⟩, ⟨row none, none⟩], total := 2 }
    Json.ofText (Json.toText (page (some .null))) = .ok (page none) ∧
      Json.toText (page none) = Json.toText (page (some .null)) := by
  intro score row page
  let data : Value := .object [("model_id", .string "m"), ("rating", .array [score])]
  have hdata : data.Ordered := by
    refine ⟨List.pairwise_pair.mpr (by decide), trivial, ?_, trivial⟩
    exact ⟨trivial, trivial⟩
  have hordered : ∀ value ∈ Exchanged.contents (page (some .null)), value.Ordered := by
    change ∀ value ∈ [data, .null, data], value.Ordered
    simp only [List.forall_mem_cons]
    exact ⟨hdata, trivial, hdata, List.forall_mem_nil _⟩
  have hback := round_trip .listing (page (some .null)) hordered
    (fun _ h => absurd h List.not_mem_nil) (by decide +kernel) (by decide +kernel)
  exact ⟨hback.1, hback.2.2.2.1⟩

end WireRecord

end FeedbackBoard
