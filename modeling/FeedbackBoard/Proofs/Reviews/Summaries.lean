import FeedbackBoard.Proofs.Database.DamagedColumns
import FeedbackBoard.Proofs.Database.DeepTexts
import FeedbackBoard.Proofs.Json.Rereading
import FeedbackBoard.Proofs.Reviews.Ranking

/-!
# Statistics and reviews

Statistics and reviews count the same ratings in two ways.  Reviews read the value of a
rating.  Statistics ask the database for the texts of two of its members, and these texts
say less: a number has the text of its digits, `true` has the text `1`, and a key ends at
its first zero.  Every rating that reviews count is counted by the statistics, for the
same model and as the same vote; the statistics also count ratings that reviews pass over.

Main definitions:

- `Rating.IsShownAs`: the values whose texts are those of a rating.
- `Json.Value.IsCounted`: a value that statistics count for a model.
- `ShowsVotes`: a table of models shows the votes of the leaderboard, and so many more.

Main results:

- `StoredRow.countP_isCounted`: what is counted has been scored or was passed over.
- `Database.showsVotes_of_standings`: the table of the statistics beside the leaderboard.
-/

namespace FeedbackBoard

open Json (Value levelLimit)

/-! ## Texts of ratings -/

namespace Rating

/-- The text of a rating. -/
def text : Rating → String
  | positive => "1"
  | negative => "-1"

/-- The values that are shown as a rating: those that spell it, and `true` for a positive one. -/
inductive IsShownAs : Rating → Value → Prop
  | spelled {rating : Rating} {value : Value} (h : rating.SpelledBy value) : IsShownAs rating value
  | truth : IsShownAs positive (.bool true)

end Rating

/-- A real has a point, an exponent or a letter, so its text is that of no rating. -/
theorem StoredReal.text_ne (negative : Bool) (rank : Nat) (rating : Rating) :
    StoredReal.text negative rank ≠ rating.text := by
  have hwrite : ∀ d : Decimal, ∃ c ∈ StoredReal.layout.write d, c = '.' ∨ c = 'e' := by
    intro d
    rw [Layout.write]
    split
    · refine ⟨'.', ?_, Or.inl rfl⟩
      rw [Decimal.plain]
      split
      · simp only
        split <;> simp
      · simp
    · refine ⟨'e', ?_, Or.inr rfl⟩
      simp [Layout.scientific]
  have hmark : ∃ c ∈ (StoredReal.text negative rank).toList, c = '.' ∨ c = 'e' ∨ c = 'I' := by
    rw [StoredReal.text]
    split
    · exact ⟨'.', by decide, Or.inl rfl⟩
    · simp only
      split
      · obtain ⟨c, hc, hcase⟩ := hwrite (StoredReal.decimal rank)
        refine ⟨c, ?_, hcase.imp_right Or.inl⟩
        rw [String.toList_ofList]
        exact List.mem_append_right _ hc
      · refine ⟨'I', ?_, by decide⟩
        rw [String.toList_ofList]
        exact List.mem_append_right _ List.mem_cons_self
  intro heq
  obtain ⟨c, hc, hcase⟩ := hmark
  rw [heq] at hc
  rcases hcase with rfl | rfl | rfl <;> cases rating <;> revert hc <;> decide

/-- Containers begin with a bracket, so their texts are those of no rating. -/
theorem CodePoints.ofChars_ne {c : Char} (hc : c = '[' ∨ c = '\x7b') (rest : List Char)
    (rating : Rating) : CodePoints.ofChars (c :: rest) ≠ .ofString rating.text := by
  intro heq
  have hfirst := congrArg List.head? heq
  rcases hc with rfl | rfl <;> cases rating <;> exact absurd (Option.some_inj.mp hfirst) (by decide)

/-- Of all numbers only integers are shown as ratings, by their digits. -/
theorem Rating.text?_cell_number_iff (n : Json.Number) (rating : Rating) :
    (Value.number n).cell.text? = some (.ofString rating.text) ↔ rating.SpelledBy (.number n) := by
  constructor
  · intro h
    cases n with
    | integer n lower upper =>
        cases hfits : Cell.fitsInteger n with
        | true =>
            rw [Value.cell, Cell.ofNumeral_integer lower upper hfits] at h
            have hdigits : String.ofList (Json.integerText n) = rating.text := by
              refine CodePoints.eq_of_some_ofString (Eq.trans ?_ h)
              rw [CodePoints.ofString, String.toList_ofList]
              rfl
            have hvalue : ofValue? (some (.number (.integer n lower upper))) = some rating := by
              rw [ofValue?, hdigits]
              cases rating <;> rfl
            obtain ⟨_, ⟨⟩, hspelled⟩ := (ofValue?_eq_some_iff _ _).mp hvalue
            exact hspelled
        | false =>
            simp only [Value.cell, Cell.ofNumeral, Json.Number.numeral, Json.integerNumeral,
              Json.naturalOfDigits_decimalDigits, Json.signed_natAbs, hfits, Bool.and_false,
              Bool.false_eq_true, if_false] at h
            exact absurd (CodePoints.eq_of_some_ofString h) (StoredReal.text_ne _ _ rating)
    | double x =>
        simp only [Value.cell, Cell.ofNumeral, Json.Number.numeral, Json.isNone_decimalNumeral,
          Bool.false_and, Bool.false_eq_true, if_false] at h
        exact absurd (CodePoints.eq_of_some_ofString h) (StoredReal.text_ne _ _ rating)
  · intro h
    cases h with
    | integer lower upper | negativeInteger lower upper =>
        rw [Value.cell, Cell.ofNumeral_integer lower upper (by decide)]
        decide

/-- The values with the text of a rating are those that are shown as it. -/
theorem Rating.text?_cell_eq_iff (value : Value) (rating : Rating) :
    value.cell.text? = some (.ofString rating.text) ↔ rating.IsShownAs value := by
  constructor
  · intro h
    match value with
    | .null => cases h
    | .bool true =>
        cases rating with
        | positive => exact .truth
        | negative => exact absurd h (by decide)
    | .bool false => cases rating <;> exact absurd h (by decide)
    | .number n => exact .spelled ((text?_cell_number_iff n rating).mp h)
    | .string text =>
        obtain rfl := CodePoints.eq_of_some_ofString h
        cases rating with
        | positive => exact .spelled .text
        | negative => exact .spelled .negativeText
    | .array _ | .object _ =>
        exact absurd (Option.some_inj.mp h) (CodePoints.ofChars_ne (by decide) _ rating)
  · intro h
    cases h with
    | truth => decide
    | spelled h =>
        cases h with
        | text | negativeText => decide
        | integer lower upper => exact (text?_cell_number_iff _ _).mpr (.integer lower upper)
        | negativeInteger lower upper =>
            exact (text?_cell_number_iff _ _).mpr (.negativeInteger lower upper)

instance (rating : Rating) (value : Value) : Decidable (rating.IsShownAs value) :=
  decidable_of_iff _ (rating.text?_cell_eq_iff value)

/-! ## Members that the database sees -/

namespace Json.Value

/-- The member that the database takes for a key: the first one whose key, up to a zero, is this. -/
def seenMember? (key : String) : Value → Option Value
  | .object members =>
    (members.find? fun member =>
      (CodePoints.ofString member.1).beforeZero == CodePoints.ofString key).map Prod.snd
  | _ => none

theorem text?_memberCell (key : String) (value : Value) :
    (value.memberCell key).text? =
      (value.seenMember? key).bind fun member => member.cell.text? := by
  cases value with
  | null | bool _ | number _ | string _ | array _ => rfl
  | object members =>
      rw [memberCell, seenMember?]
      cases members.find? fun member =>
        (CodePoints.ofString member.1).beforeZero == CodePoints.ofString key <;> rfl

/-- A key that goes on behind a zero lies above the key that ends there. -/
theorem le_of_beforeZero_eq {key other : String}
    (h : (CodePoints.ofString other).beforeZero = CodePoints.ofString key) : key ≤ other := by
  obtain ⟨after, hafter⟩ : CodePoints.ofString key <+: CodePoints.ofString other :=
    h ▸ List.takeWhile_prefix _
  obtain ⟨before, rest, hother, hbefore, -⟩ := List.map_eq_append_iff.mp hafter.symm
  have hsame : before = key.toList :=
    (List.map_inj_right fun _ _ => Char.toNat_inj.mp).mp hbefore
  change ¬ other.toList < key.toList
  rw [hother, hsame]
  exact List.le_append_left

/-- The database sees the member of an ordered object that has the key. -/
theorem seenMember?_of_member? {key : String} {value item : Value} (hordered : value.Ordered)
    (hkey : (CodePoints.ofString key).beforeZero = CodePoints.ofString key)
    (h : value.member? key = some item) : value.seenMember? key = some item := by
  cases value with
  | null | bool _ | number _ | string _ | array _ => cases h
  | object members =>
      obtain ⟨hascending, -⟩ := hordered
      rw [member?] at h
      rw [seenMember?]
      induction members with
      | nil => cases h
      | cons member rest ih =>
          obtain ⟨name, first⟩ := member
          obtain ⟨hhead, htail⟩ := List.pairwise_cons.mp hascending
          rw [lookup_entry] at h
          rw [List.find?_cons]
          split_ifs at h with hname
          · cases h
            subst hname
            rw [beq_iff_eq.mpr hkey]
            rfl
          · -- Keys that end with this one at a zero lie above it, and so behind its member.
            have hbelow : name < key :=
              hhead _ ((KeysAscending.lookup_eq_some_iff htail).mp h)
            have hother : (CodePoints.ofString name).beforeZero ≠ CodePoints.ofString key :=
              fun hsame => String.not_le.mpr hbelow (le_of_beforeZero_eq hsame)
            rw [beq_eq_false_iff_ne.mpr hother]
            exact ih h htail

/-! ## Counting a rating -/

/-- Statistics count the value for the model as such a vote. -/
def IsCounted (model : String) (rating : Rating) (value : Value) : Prop :=
  (∃ named ∈ value.seenMember? "model_id", named.cell.text? = some (.ofString model)) ∧
    ∃ vote ∈ value.seenMember? "rating", rating.IsShownAs vote

instance (model : String) (rating : Rating) (value : Value) :
    Decidable (value.IsCounted model rating) :=
  inferInstanceAs (Decidable (_ ∧ _))

/-- No value is counted twice. -/
theorem IsCounted.unique {model other : String} {rating vote : Rating} {value : Value}
    (h : value.IsCounted model rating) (h' : value.IsCounted other vote) :
    model = other ∧ rating = vote := by
  obtain ⟨⟨named, hnamed, hmodel⟩, cast, hcast, hrating⟩ := h
  obtain ⟨⟨named', hnamed', hother⟩, cast', hcast', hvote⟩ := h'
  cases Option.mem_unique hnamed hnamed'
  cases Option.mem_unique hcast hcast'
  have htexts : rating.text = vote.text := CodePoints.eq_of_some_ofString <|
    ((rating.text?_cell_eq_iff cast).mpr hrating).symm.trans
      ((vote.text?_cell_eq_iff cast).mpr hvote)
  refine ⟨CodePoints.eq_of_some_ofString (hmodel.symm.trans hother), ?_⟩
  cases rating <;> cases vote <;> first | rfl | exact absurd htexts (by decide)

end Json.Value

/-- A payload rates a model by two members of its data. -/
theorem Feedback.Payload.rates_iff (payload : Feedback.Payload) (model : String) (rating : Rating) :
    payload.Rates model rating ↔
      model ≠ "" ∧ ∃ value, payload.data = some value ∧
        value.member? "model_id" = some (.string model) ∧
          ∃ vote ∈ value.member? "rating", rating.SpelledBy vote := by
  rw [Rates]
  refine and_congr_right fun _ => ⟨?_, ?_⟩
  · rintro ⟨members, vote, hdata, hmodel, hvote, hspelled⟩
    exact ⟨_, hdata, hmodel, vote, hvote, hspelled⟩
  · rintro ⟨value, hdata, hmodel, vote, hvote, hspelled⟩
    cases value with
    | null | bool _ | number _ | string _ | array _ => cases hmodel
    | object members => exact ⟨members, vote, hdata, hmodel, hvote, hspelled⟩

/-- Reading a rating again keeps what it spells. -/
theorem Rating.spelledBy_reread_iff (rating : Rating) (value : Value) :
    rating.SpelledBy value.reread ↔ rating.SpelledBy value := by
  cases value with
  | null | bool _ | string _ => exact Iff.rfl
  | array _ | object _ => constructor <;> (intro h; cases h)
  | number n =>
      cases n with
      | integer n lower upper => rw [Value.reread, Json.Number.reread_integer]
      | double x =>
          obtain ⟨y, -, hreread⟩ := Json.Number.exists_reread_double x
          rw [Value.reread, hreread]
          constructor <;> (intro h; cases h)

namespace StoredRow

variable {row : StoredRow} {value : Value} (hdata : row.data = some value.compact)
  (hordered : value.Ordered)
include hdata hordered

/-- What a written rating rates. -/
theorem rates_payload_iff (model : String) (rating : Rating) :
    row.payload.Rates model rating ↔
      model ≠ "" ∧ value.depth ≤ levelLimit ∧ value.member? "model_id" = some (.string model) ∧
        ∃ vote ∈ value.member? "rating", rating.SpelledBy vote := by
  have hread : row.payload.data = if value.depth ≤ levelLimit then some value.reread else none := by
    rw [payload, hdata]
    exact Json.readValue?_compact hordered
  rw [Feedback.Payload.rates_iff, hread]
  split
  next hdepth =>
    simp [hdepth, Value.member?_reread, Value.reread_eq_string_iff, Rating.spelledBy_reread_iff]
  next hdepth => simp [hdepth]

/-- What reviews score is counted by the statistics, for the same model and as the same vote. -/
theorem isCounted_of_rates {model : String} {rating : Rating}
    (h : row.payload.Rates model rating) : value.IsCounted model rating := by
  obtain ⟨-, -, hmodel, vote, hvote, hspelled⟩ := (rates_payload_iff hdata hordered _ _).mp h
  refine ⟨⟨.string model, ?_, rfl⟩, vote, ?_, .spelled hspelled⟩
  · exact Value.seenMember?_of_member? hordered (by decide) hmodel
  · exact Value.seenMember?_of_member? hordered (by decide) hvote

/-- A rating that is counted is scored unless one of its parts keeps reviews from reading it. -/
theorem isUsable_payload_iff {model : String} {rating : Rating} (hmodel : model ≠ "")
    (hcounted : value.IsCounted model rating) :
    row.payload.IsUsable ↔
      value.depth ≤ levelLimit ∧ (∃ name, value.member? "model_id" = some (.string name)) ∧
        ∃ vote, value.member? "rating" = some vote ∧ vote ≠ .bool true := by
  constructor
  · rintro ⟨named, given, hrates⟩
    obtain ⟨-, hdepth, hname, vote, hvote, hspelled⟩ :=
      (rates_payload_iff hdata hordered _ _).mp hrates
    refine ⟨hdepth, ⟨named, hname⟩, vote, hvote, ?_⟩
    rintro rfl
    cases hspelled
  · rintro ⟨hdepth, ⟨name, hname⟩, vote, hvote, htrue⟩
    obtain ⟨⟨named, hnamed, htext⟩, cast, hcast, hshown⟩ := hcounted
    have hseen := Value.seenMember?_of_member? hordered (by decide) hname
    have hseenVote := Value.seenMember?_of_member? hordered (by decide) hvote
    cases Option.mem_unique hnamed hseen
    cases Option.mem_unique hcast hseenVote
    obtain rfl := CodePoints.eq_of_some_ofString htext
    cases hshown with
    | truth => exact absurd rfl htrue
    | spelled hspelled =>
        exact ⟨name, rating, (rates_payload_iff hdata hordered _ _).mpr
          ⟨hmodel, hdepth, hname, vote, hvote, hspelled⟩⟩

end StoredRow

/-- Reviews score a rating exactly if statistics count it and nothing keeps reviews from it. -/
theorem StoredRow.rates_payload_iff_isCounted {row : StoredRow} {content : Option Value}
    (hdata : row.data = storedText content) (hordered : ∀ value ∈ content, value.Ordered)
    (model : String) (rating : Rating) :
    row.payload.Rates model rating ↔
      (∃ value ∈ content, value.IsCounted model rating) ∧ row.payload.IsUsable := by
  cases content with
  | none =>
      have hnone : row.payload.data = none := by
        rw [payload, hdata]
        rfl
      simp [Feedback.Payload.rates_iff, hnone]
  | some value =>
      have hcounts : ∀ {m r}, row.payload.Rates m r → value.IsCounted m r :=
        isCounted_of_rates hdata (hordered value rfl)
      constructor
      · intro hrates
        exact ⟨⟨value, rfl, hcounts hrates⟩, model, rating, hrates⟩
      · rintro ⟨⟨_, ⟨⟩, hcounted⟩, named, given, hrates⟩
        obtain ⟨rfl, rfl⟩ := hcounted.unique (hcounts hrates)
        exact hrates

/-! ## The table of models -/

/-- The texts of content, as far as the database can look into it. -/
def RatingTexts.ofContent (content : Option Value) : RatingTexts where
  model := content.bind fun value =>
    (value.seenMember? "model_id").bind fun named => named.cell.text?
  vote := content.bind fun value =>
    (value.seenMember? "rating").bind fun vote => vote.cell.text?

/-- The texts of ratings with these contents. -/
def RatingTexts.ofRatings (content : StoredRow → Option Value) (ratings : List StoredRow) :
    List RatingTexts :=
  ratings.map fun row => ofContent (content row)

/-- The texts are those of a vote exactly if the content is counted as it. -/
theorem RatingTexts.ofContent_eq_iff (content : Option Value) (model : String) (rating : Rating) :
    ofContent content = ⟨some (.ofString model), some (.ofString rating.text)⟩ ↔
      ∃ value ∈ content, value.IsCounted model rating := by
  cases content with
  | none => simp [ofContent]
  | some value =>
      simp [ofContent, Value.IsCounted, Option.bind_eq_some_iff, Rating.text?_cell_eq_iff]

/-- The model that content names can be shown. -/
theorem RatingTexts.isLegible_ofContent (content : Option Value) :
    (ofContent content).IsLegible := by
  intro codes hcodes
  obtain ⟨value, -, hmember⟩ := Option.bind_eq_some_iff.mp hcodes
  obtain ⟨named, -, htext⟩ := Option.bind_eq_some_iff.mp hmember
  exact named.isLegible_cell codes htext

/-- Written data have texts unless they are nested too deep. -/
theorem RatingTexts.ofRow?_of_written {row : StoredRow} {content : Option Value}
    (hdata : row.data = storedText content) (hordered : ∀ value ∈ content, value.Ordered) :
    ofRow? row =
      if ∀ value ∈ content, value.depth ≤ JsonTree.levelLimit then some (ofContent content)
      else none := by
  cases content with
  | none =>
      have hnone : row.data = none := hdata
      simp [ofRow?, StoredRow.dataMember?, hnone, ofContent, Cell.text?]
  | some value =>
      have hsome : row.data = some value.compact := hdata
      have hmember : ∀ key, row.dataMember? key =
          if value.depth ≤ JsonTree.levelLimit then some (value.memberCell key) else none := by
        intro key
        simp only [StoredRow.dataMember?, hsome,
          JsonTree.ofText?_compact_eq_if (hordered value rfl)]
        split
        next => exact JsonTree.member?_ofValue key value
        next => rfl
      have hlimit : (∀ v ∈ some value, v.depth ≤ JsonTree.levelLimit) ↔
          value.depth ≤ JsonTree.levelLimit := by simp
      by_cases hdepth : value.depth ≤ JsonTree.levelLimit
      · rw [if_pos (hlimit.mpr hdepth), ofRow?, hmember, hmember, if_pos hdepth, if_pos hdepth]
        simp only [Value.text?_memberCell]
        rfl
      · rw [if_neg (mt hlimit.mp hdepth), ofRow?, hmember, if_neg hdepth]

/-- The models of written data can be shown. -/
theorem isSome_name?_of_written {rows : List StoredRow} {content : StoredRow → Option Value}
    (hwritten : ∀ row ∈ rows, row.data = storedText (content row))
    (hordered : ∀ row ∈ rows, ∀ value ∈ content row, value.Ordered) {lines : List ModelLine}
    (hlines : modelLines? rows = some lines) : ∀ line ∈ lines, line.name?.isSome := by
  refine (forall_isSome_name?_iff hlines).mpr fun row hrow _ texts htexts => ?_
  rw [RatingTexts.ofRow?_of_written (hwritten row hrow) (hordered row hrow)] at htexts
  split at htexts
  next =>
    cases htexts
    exact RatingTexts.isLegible_ofContent (content row)
  next => cases htexts

/-- The line of a model counts the texts that are those of a vote for it. -/
theorem ModelLine.ofTexts_votes (texts : List RatingTexts) (model : CodePoints) :
    (ofTexts texts (some model)).up =
        texts.count ⟨some model, some (.ofString Rating.positive.text)⟩ ∧
      (ofTexts texts (some model)).down =
        texts.count ⟨some model, some (.ofString Rating.negative.text)⟩ := by
  have hcount : ∀ vote : CodePoints,
      (texts.filter fun entry => entry.model == some model).countP
        (fun entry => entry.vote == some vote) = texts.count ⟨some model, some vote⟩ := by
    intro vote
    rw [List.countP_filter, List.count]
    apply List.countP_congr
    rintro ⟨named, given⟩ -
    simp [and_comm]
  exact ⟨hcount _, hcount _⟩

theorem nodup_eraseDups {α : Type} [BEq α] [LawfulBEq α] (l : List α) : l.eraseDups.Nodup := by
  -- The first element stays and is taken out of a rest that is no longer.
  induction hlength : l.length using Nat.strongRecOn generalizing l with
  | ind n ih =>
      cases l with
      | nil => exact List.nodup_nil
      | cons a rest =>
          have hshorter := List.length_filter_le (fun b => !b == a) rest
          rw [List.length_cons] at hlength
          rw [List.eraseDups_cons, List.nodup_cons]
          exact ⟨by simp [List.mem_eraseDups], ih _ (by omega) _ rfl⟩

/-- No model has two lines. -/
theorem nodup_modelLines {rows : List StoredRow} {lines : List ModelLine}
    (hlines : modelLines? rows = some lines) : (lines.map ModelLine.model).Nodup := by
  rw [modelLines?] at hlines
  split at hlines
  next => cases hlines
  next texts _ =>
    cases hlines
    have hkeys : ((texts.map RatingTexts.model).eraseDups.map (ModelLine.ofTexts texts)).map
        ModelLine.model = (texts.map RatingTexts.model).eraseDups := by
      rw [List.map_map]
      exact List.map_id _
    rw [((List.mergeSort_perm _ _).map ModelLine.model).nodup_iff, hkeys]
    exact nodup_eraseDups _

/-- A table of models shows the votes of a model on the leaderboard, and so many more. -/
structure ShowsVotes (lines : List ModelLine) (entries : List Standing) (model : String)
    (more : Rating → Nat) : Prop where
  listed : ∀ entry ∈ entries, entry.model = model →
    ∃ line ∈ lines, line.model = some (.ofString model) ∧
      line.up = entry.positive + more .positive ∧ line.down = entry.negative + more .negative
  unlisted : (∀ entry ∈ entries, entry.model ≠ model) →
    ∀ line ∈ lines, line.model = some (.ofString model) →
      line.up = more .positive ∧ line.down = more .negative

/-- The line of a model shows how many more votes there are. -/
theorem ShowsVotes.unique {lines : List ModelLine} {entries : List Standing} {model : String}
    {more other : Rating → Nat} (h : ShowsVotes lines entries model more)
    (h' : ShowsVotes lines entries model other) (honce : (lines.map ModelLine.model).Nodup)
    (hline : ∃ line ∈ lines, line.model = some (.ofString model)) : more = other := by
  have hboth : more .positive = other .positive ∧ more .negative = other .negative := by
    by_cases hentry : ∃ entry ∈ entries, entry.model = model
    · obtain ⟨entry, hentry, hmodel⟩ := hentry
      obtain ⟨line, hline, hnamed, hup, hdown⟩ := h.listed entry hentry hmodel
      obtain ⟨line', hline', hnamed', hup', hdown'⟩ := h'.listed entry hentry hmodel
      obtain rfl := List.inj_on_of_nodup_map honce hline hline' (hnamed.trans hnamed'.symm)
      omega
    · obtain ⟨line, hline, hnamed⟩ := hline
      have hmissing : ∀ entry ∈ entries, entry.model ≠ model :=
        fun entry hmem hmodel => hentry ⟨entry, hmem, hmodel⟩
      obtain ⟨hup, hdown⟩ := h.unlisted hmissing line hline hnamed
      obtain ⟨hup', hdown'⟩ := h'.unlisted hmissing line hline hnamed
      omega
  funext rating
  cases rating with
  | positive => exact hboth.1
  | negative => exact hboth.2

/-- How many rows are counted for a model as such a vote, though reviews pass them over. -/
def unscoredVotes (content : StoredRow → Option Value) (rows : List StoredRow) (model : String)
    (rating : Rating) : Nat :=
  rows.countP fun row =>
    decide (∃ value ∈ content row, value.IsCounted model rating) && !decide row.payload.IsUsable

section Written

variable {ratings : List StoredRow} {content : StoredRow → Option Value}
  (hwritten : ∀ row ∈ ratings, row.data = storedText (content row))
  (hordered : ∀ row ∈ ratings, ∀ value ∈ content row, value.Ordered)
include hwritten hordered

/-- What is counted has been scored or was passed over. -/
theorem StoredRow.countP_isCounted (model : String) (rating : Rating) :
    ratings.countP (fun row => decide (∃ value ∈ content row, value.IsCounted model rating)) =
      ratings.countP (fun row => decide (row.payload.Rates model rating)) +
        unscoredVotes content ratings model rating := by
  rw [List.countP_eq_countP_filter_add _ _ fun row => decide row.payload.IsUsable,
    List.countP_filter, List.countP_filter, unscoredVotes]
  congr 1
  apply List.countP_congr
  intro row hrow
  have hrates := StoredRow.rates_payload_iff_isCounted (hwritten row hrow) (hordered row hrow) model
    rating
  simp [hrates]

/-- The line of a model counts the ratings that reviews score for it, and those they pass over. -/
theorem ModelLine.ofTexts_eq_add (model : String) :
    let line := ofTexts (RatingTexts.ofRatings content ratings) (some (.ofString model))
    let scored rating :=
      (ratings.map StoredRow.payload).countP fun payload => decide (payload.Rates model rating)
    line.up = scored .positive + unscoredVotes content ratings model .positive ∧
      line.down = scored .negative + unscoredVotes content ratings model .negative := by
  have hcount : ∀ rating : Rating,
      (RatingTexts.ofRatings content ratings).count
          ⟨some (.ofString model), some (.ofString rating.text)⟩ =
        (ratings.map StoredRow.payload).countP
          (fun payload => decide (payload.Rates model rating)) +
            unscoredVotes content ratings model rating := by
    intro rating
    rw [RatingTexts.ofRatings, List.count, List.countP_map, List.countP_map]
    refine Eq.trans (List.countP_congr fun row _ => ?_)
      (StoredRow.countP_isCounted hwritten hordered model rating)
    simp [RatingTexts.ofContent_eq_iff]
  obtain ⟨hup, hdown⟩ :=
    ofTexts_votes (RatingTexts.ofRatings content ratings) (.ofString model)
  exact ⟨hup.trans (hcount .positive), hdown.trans (hcount .negative)⟩

/-- Beside the leaderboard of ratings, the lines of their texts show the votes of every model. -/
theorem showsVotes_of_texts {lines : List ModelLine}
    (hlines : ∀ line, line ∈ lines ↔
      ∃ entry ∈ RatingTexts.ofRatings content ratings,
        ModelLine.ofTexts (RatingTexts.ofRatings content ratings) entry.model =
          line) (model : String) :
    ShowsVotes lines (leaderboard (ratings.map StoredRow.payload)) model
      (unscoredVotes content ratings model) := by
  have hboard := isLeaderboard_leaderboard (ratings.map StoredRow.payload)
  obtain ⟨hup, hdown⟩ := ModelLine.ofTexts_eq_add hwritten hordered model
  constructor
  · rintro entry hentry rfl
    obtain ⟨payload, hpayload, rating, hrates⟩ :=
      (hboard.listed entry.model).mp ⟨entry, hentry, rfl⟩
    obtain ⟨row, hrow, rfl⟩ := List.mem_map.mp hpayload
    obtain ⟨hcounted, -⟩ := (StoredRow.rates_payload_iff_isCounted (hwritten row hrow)
      (hordered row hrow) entry.model rating).mp hrates
    have htexts := (RatingTexts.ofContent_eq_iff (content row) entry.model rating).mpr hcounted
    refine ⟨_, (hlines _).mpr ⟨_, List.mem_map.mpr ⟨row, hrow, htexts⟩, rfl⟩, rfl, ?_, ?_⟩
    · rw [hboard.positive entry hentry]
      exact hup
    · rw [hboard.negative entry hentry]
      exact hdown
  · intro hmissing line hline hmodel
    have hunrated : ∀ rating, (ratings.map StoredRow.payload).countP
        (fun payload => decide (payload.Rates model rating)) = 0 := by
      intro rating
      rw [List.countP_eq_zero]
      intro payload hpayload hrates
      obtain ⟨entry, hentry, hnamed⟩ :=
        (hboard.listed model).mpr ⟨payload, hpayload, rating, of_decide_eq_true hrates⟩
      exact hmissing entry hentry hnamed
    obtain ⟨entry, -, rfl⟩ := (hlines line).mp hline
    have hsame : entry.model = some (.ofString model) := hmodel
    rw [hsame, hup, hdown]
    simp only [hunrated, Nat.zero_add, and_self]

end Written

/-! ## Databases -/

namespace Database

variable {db : Database} {content : StoredRow → Option Value}

/-- The table shows the leaderboard's votes exactly if nothing that is counted is passed over. -/
theorem showsVotes_zero_iff {ratings : List StoredRow} {lines : List ModelLine}
    {entries : List Standing}
    (hshows : ∀ model, ShowsVotes lines entries model (unscoredVotes content ratings model))
    (hnamed : ∀ row ∈ ratings, ∀ value ∈ content row, ∀ model rating,
      value.IsCounted model rating → ∃ line ∈ lines, line.model = some (.ofString model))
    (honce : (lines.map ModelLine.model).Nodup) :
    (∀ model ≠ "", ShowsVotes lines entries model fun _ => 0) ↔
      ∀ row ∈ ratings, ∀ value ∈ content row, ∀ model ≠ "", ∀ rating,
        value.IsCounted model rating → row.payload.IsUsable := by
  constructor
  · intro hagrees row hrow value hvalue model hmodel rating hcounted
    by_contra hunusable
    have hline := hnamed row hrow value hvalue model rating hcounted
    have hnone := congrFun ((hshows model).unique (hagrees model hmodel) honce hline) rating
    rw [unscoredVotes, List.countP_eq_zero] at hnone
    refine hnone row hrow ?_
    rw [Bool.and_eq_true, decide_eq_true_iff]
    exact ⟨⟨value, hvalue, hcounted⟩, by simp [hunusable]⟩
  · intro hscored model hmodel
    have hnone : unscoredVotes content ratings model = fun _ => 0 := by
      funext rating
      rw [unscoredVotes, List.countP_eq_zero]
      intro row hrow hunscored
      rw [Bool.and_eq_true, decide_eq_true_iff] at hunscored
      obtain ⟨⟨value, hvalue, hcounted⟩, hunusable⟩ := hunscored
      have husable := hscored row hrow value hvalue model hmodel rating hcounted
      simp [husable] at hunusable
    exact hnone ▸ hshows model

/--
The table of models in the statistics of a database with JSON data, beside the leaderboard
of its ratings.  A model on the leaderboard has a line, and the line of a model shows its
votes on the leaderboard and the ratings that are counted for it though reviews pass them
over: since the name of the model is no text, since the rating is `true`, since one of the
two keys goes on behind a zero, or since the data are nested deeper than reviews follow.
Without such a rating the table and the leaderboard agree about every model.  All lines
are shown.  Where the data of a rating are nested deeper than the database follows, there
is no table.
-/
theorem showsVotes_of_standings (hready : db.isReady = true)
    (hwritten : ∀ row ∈ db.rows, row.data = storedText (content row))
    (hordered : ∀ row ∈ db.rows, ∀ value ∈ content row, value.Ordered) :
    let ratings := db.rows.filter fun row => row.kind == Feedback.ratingKind
    ∃ entries, (Store.database db).standings = .ok entries ∧
      ((∀ row ∈ ratings, ∀ value ∈ content row, value.depth ≤ JsonTree.levelLimit) →
        ∃ lines, modelLines? db.rows = some lines ∧ (lines.map ModelLine.model).Nodup ∧
          (∀ line ∈ lines, line.name?.isSome) ∧
          (∀ path size now last,
            lastUpdateText now (Overview.ofRows db.rows).lastUpdate = .ok last →
              ∃ before, statisticsOutput path size now db =
                .print (before ++ modelText lines ++ "\n")) ∧
          (∀ model, ShowsVotes lines entries model (unscoredVotes content ratings model)) ∧
          ((∀ model ≠ "", ShowsVotes lines entries model fun _ => 0) ↔
            ∀ row ∈ ratings, ∀ value ∈ content row, ∀ model ≠ "", ∀ rating,
              value.IsCounted model rating → row.payload.IsUsable)) ∧
      (∀ row ∈ ratings, ∀ value ∈ content row, ∀ model ≠ "", ∀ rating,
        value.IsCounted model rating →
          (row.payload.IsUsable ↔
            value.depth ≤ levelLimit ∧ (∃ name, value.member? "model_id" = some (.string name)) ∧
              ∃ vote, value.member? "rating" = some vote ∧ vote ≠ .bool true)) ∧
      ((∃ row ∈ ratings, ∃ value ∈ content row, JsonTree.levelLimit < value.depth) →
        ∀ path size now last,
          lastUpdateText now (Overview.ofRows db.rows).lastUpdate = .ok last →
            (statisticsOutput path size now db).failure = some .database) := by
  intro ratings
  have hmem : ∀ row ∈ ratings, row ∈ db.rows := fun row hrow => (List.mem_filter.mp hrow).1
  have hwritten' : ∀ row ∈ ratings, row.data = storedText (content row) :=
    fun row hrow => hwritten row (hmem row hrow)
  have hordered' : ∀ row ∈ ratings, ∀ value ∈ content row, value.Ordered :=
    fun row hrow => hordered row (hmem row hrow)
  have hdata : ∀ row ∈ ratings, ∀ value ∈ content row, row.data = some value.compact := by
    intro row hrow value hvalue
    rw [hwritten' row hrow, hvalue]
    rfl
  refine ⟨leaderboard (ratings.map StoredRow.payload), ?_, fun hshallow => ?_, ?_, ?_⟩
  · rw [Store.standings, Store.ratings_database, if_pos hready]
    rfl
  · have htexts :
        ratings.mapM RatingTexts.ofRow? = some (RatingTexts.ofRatings content ratings) := by
      refine mapM_eq_some fun row hrow => ?_
      rw [RatingTexts.ofRow?_of_written (hwritten' row hrow) (hordered' row hrow),
        if_pos (hshallow row hrow)]
    obtain ⟨lines, hlines⟩ : ∃ lines, modelLines? db.rows = some lines := by
      rw [modelLines?, htexts]
      exact ⟨_, rfl⟩
    have hline := mem_modelLines_iff htexts hlines
    have hshows := showsVotes_of_texts hwritten' hordered' hline
    have honce := nodup_modelLines hlines
    have hshown := isSome_name?_of_written hwritten hordered hlines
    refine ⟨lines, hlines, honce, hshown, ?_, hshows, showsVotes_zero_iff hshows ?_ honce⟩
    · intro path size now last hlast
      rw [statisticsOutput, if_pos hready]
      simp only [hlast, hlines, if_pos hshown]
      exact ⟨_, rfl⟩
    · intro row hrow value hvalue model rating hcounted
      have htext := (RatingTexts.ofContent_eq_iff (content row) model rating).mpr
        ⟨value, hvalue, hcounted⟩
      exact ⟨_, (hline _).mpr ⟨_, List.mem_map.mpr ⟨row, hrow, htext⟩, rfl⟩, rfl⟩
  · intro row hrow value hvalue model hmodel rating hcounted
    exact StoredRow.isUsable_payload_iff (hdata row hrow value hvalue)
      (hordered' row hrow value hvalue) hmodel hcounted
  · rintro ⟨row, hrow, value, hvalue, hdeep⟩ path size now last hlast
    refine (failure_statisticsOutput_iff path size now hready).mpr
      ⟨⟨last, hlast⟩, row, hmem row hrow, beq_iff_eq.mp (List.mem_filter.mp hrow).2, ?_⟩
    rw [RatingTexts.ofRow?_of_written (hwritten' row hrow) (hordered' row hrow), if_neg]
    exact fun hshallow => Nat.not_le_of_lt hdeep (hshallow value hvalue)

/-- A rating that is `true` is counted for its model beside one that reviews score. -/
theorem showsVotes_of_standings_true :
    let rating (id : String) (value : Value) : StoredRow :=
      { id := id
        userId := "u"
        version := 0
        kind := "rating"
        data := some value.compact
        info := none
        snapshot := none
        createdAt := 0
        updatedAt := 0 }
    let scored : Value := .object [("model_id", .string "m"), ("rating", .string "-1")]
    let unscored : Value := .object [("model_id", .string "m"), ("rating", .bool true)]
    let db := { (empty.migrate 0).2 with rows := [rating "a" scored, rating "b" unscored] }
    ∃ entries lines, (Store.database db).standings = .ok entries ∧
      modelLines? db.rows = some lines ∧
        ShowsVotes lines entries "m" fun | .positive => 1 | .negative => 0 := by
  intro rating scored unscored db
  let content (row : StoredRow) : Option Value := some (if row.id = "a" then scored else unscored)
  have hordered : scored.Ordered ∧ unscored.Ordered := by
    simp only [scored, unscored, Value.Ordered, Value.OrderedMembers, KeysAscending]
    decide
  obtain ⟨entries, hentries, htable, -, -⟩ :=
    @showsVotes_of_standings db content (by decide +kernel)
      (by simp [db, content, rating, storedText]) (by simp [db, content, rating, hordered])
  obtain ⟨lines, hlines, -, -, -, hshows, -⟩ := htable (by decide +kernel)
  refine ⟨entries, lines, hentries, hlines, ?_⟩
  have hmore : unscoredVotes content
      (db.rows.filter fun row => row.kind == Feedback.ratingKind) "m" =
        fun | .positive => 1 | .negative => 0 := by
    funext rating
    cases rating <;> decide +kernel
  exact hmore ▸ hshows "m"

/--
The table and the leaderboard do not agree about a model whose name is also written as a
number: the leaderboard shows one vote for it, and the table shows two.
-/
theorem not_showsVotes_number :
    let rating (id : String) (value : Value) : StoredRow :=
      { id := id
        userId := "u"
        version := 0
        kind := "rating"
        data := some value.compact
        info := none
        snapshot := none
        createdAt := 0
        updatedAt := 0 }
    let named : Value := .object [("model_id", .string "5"), ("rating", .string "1")]
    let numbered : Value :=
      .object [("model_id", .number (Json.numberOfInt 5)), ("rating", .string "1")]
    let db := { (empty.migrate 0).2 with rows := [rating "a" named, rating "b" numbered] }
    db.isReady = true ∧ named.Ordered ∧ numbered.Ordered ∧
      ∃ entries lines, (Store.database db).standings = .ok entries ∧
        modelLines? db.rows = some lines ∧ ¬ ShowsVotes lines entries "5" fun _ => 0 := by
  intro rating named numbered db
  have hordered : named.Ordered ∧ numbered.Ordered := by
    simp only [named, numbered, Value.Ordered, Value.OrderedMembers, KeysAscending]
    decide
  have hlines : modelLines? db.rows = some [⟨some (.ofString "5"), 2, 2, 0⟩] := by
    decide +kernel
  have hvotes : ∃ entry ∈ leaderboard (db.rows.map StoredRow.payload),
      entry.model = "5" ∧ entry.positive = 1 := by decide +kernel
  refine ⟨by decide +kernel, hordered.1, hordered.2, _, _, rfl, hlines, fun hshows => ?_⟩
  obtain ⟨entry, hentry, hmodel, hpositive⟩ := hvotes
  obtain ⟨line, hline, -, hup, -⟩ := hshows.listed entry hentry hmodel
  cases List.mem_singleton.mp hline
  rw [hpositive] at hup
  cases hup

end Database

end FeedbackBoard
