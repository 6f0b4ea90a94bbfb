import FeedbackBoard.Proofs.Json.Records
import FeedbackBoard.Proofs.Json.Rereading

/-!
# Types that come back from their JSON forms

An element that is written and read again comes back if the reader follows its
form to the end and reads every number in it as it was.  One thing does not come
back: `null` as optional content is read as no content, but both are written alike.
A record comes back if its fields do, and a list if its elements do.

Main definitions:

- `Value.ComesBack`: a form that the reader follows, with numbers that are read back.
- `Json.Exchanged`: a type whose elements come back.
- `RecordFormat.exchanged`: a record of such types is such a type.

Main results:

- `Exchanged.ofText_toText`: an element comes back from its texts.
-/

namespace FeedbackBoard.Json

/-- A form that is nested at most so many levels and whose numbers are read back as they were. -/
structure Value.ComesBack (levels : Nat) (value : Value) : Prop where
  depth_le : value.depth ≤ levels
  hasReadBack : value.HasReadBack

namespace Value

theorem depthItems_le_iff {items : List Value} {n : Nat} :
    depthItems items ≤ n ↔ ∀ item ∈ items, item.depth ≤ n := by
  induction items with
  | nil => simp [depthItems]
  | cons item rest ih => rw [depthItems, Nat.max_le, ih, List.forall_mem_cons]

theorem mem_numbersOfItems {items : List Value} {n : Number} :
    n ∈ numbersOfItems items ↔ ∃ item ∈ items, n ∈ item.numbers := by
  induction items with
  | nil => simp [numbersOfItems]
  | cons item rest ih => simp [numbersOfItems, ih]

theorem mem_numbersOfMembers {members : List (String × Value)} {n : Number} :
    n ∈ numbersOfMembers members ↔ ∃ member ∈ members, n ∈ member.2.numbers := by
  induction members with
  | nil => simp [numbersOfMembers]
  | cons member rest ih =>
      obtain ⟨key, item⟩ := member
      simp [numbersOfMembers, ih]

/-- An array is followed if its items are, one level below it. -/
theorem comesBack_array_iff {levels : Nat} {items : List Value} :
    (array items).ComesBack levels ↔
      ∃ below, levels = below + 1 ∧ ∀ item ∈ items, item.ComesBack below := by
  constructor
  · rintro ⟨hdepth, hread⟩
    rw [depth] at hdepth
    obtain ⟨below, rfl⟩ : ∃ below, levels = below + 1 := ⟨levels - 1, by omega⟩
    have hitems := depthItems_le_iff.mp (Nat.le_of_succ_le_succ hdepth)
    refine ⟨below, rfl, fun item hitem => ⟨hitems item hitem, fun x hx => hread x ?_⟩⟩
    exact mem_numbersOfItems.mpr ⟨item, hitem, hx⟩
  · rintro ⟨below, rfl, hitems⟩
    have hdepth := depthItems_le_iff.mpr fun item hitem => (hitems item hitem).depth_le
    refine ⟨Nat.succ_le_succ hdepth, fun x hx => ?_⟩
    obtain ⟨item, hitem, hx⟩ := mem_numbersOfItems.mp hx
    exact (hitems item hitem).hasReadBack x hx

/-- An object is followed if its members are, one level below it. -/
theorem comesBack_object_iff {levels : Nat} {members : List (String × Value)} :
    (object members).ComesBack levels ↔
      ∃ below, levels = below + 1 ∧ ∀ member ∈ members, member.2.ComesBack below := by
  constructor
  · rintro ⟨hdepth, hread⟩
    rw [depth] at hdepth
    obtain ⟨below, rfl⟩ : ∃ below, levels = below + 1 := ⟨levels - 1, by omega⟩
    have hmembers := depthMembers_le_iff.mp (Nat.le_of_succ_le_succ hdepth)
    refine ⟨below, rfl, fun member hmember => ⟨hmembers member hmember, fun x hx => hread x ?_⟩⟩
    exact mem_numbersOfMembers.mpr ⟨member, hmember, hx⟩
  · rintro ⟨below, rfl, hmembers⟩
    have hdepth := depthMembers_le_iff.mpr fun member hmember => (hmembers member hmember).depth_le
    refine ⟨Nat.succ_le_succ hdepth, fun x hx => ?_⟩
    obtain ⟨member, hmember, hx⟩ := mem_numbersOfMembers.mp hx
    exact (hmembers member hmember).hasReadBack x hx

end Value

/-! ## Integers, optional content, and items -/

/-- An integer between two bounds is read back from its numeral. -/
theorem decodeInteger_ofValue {low high n : Int} (hlow : low ≤ n) (hhigh : n < high)
    (hlower : -0x8000000000000000 ≤ n) (hupper : n < 0x10000000000000000) (format : String) :
    decodeInteger low high format (Node.ofValue (.number (numberOfInt n))) = .ok n := by
  have hnumber : numberOfInt n = .integer n hlower hupper := by
    rw [numberOfInt, Number.ofInt?, dif_pos ⟨hlower, hupper⟩, Option.getD_some]
  have hnode : Node.ofValue (.number (.integer n hlower hupper)) = .number (integerNumeral n) := rfl
  rw [hnumber, hnode, decodeInteger, value?_integerNumeral hlower hupper]
  exact if_pos ⟨hlow, hhigh⟩

/-- A time or a version is read back. -/
theorem decode_encode_int64 (levels : Nat) (n : Int64) :
    decode levels (Node.ofValue (encode n)) = (.ok n : Except Fault Int64) := by
  have hlower : -0x8000000000000000 ≤ n.toInt := Int64.le_toInt n
  have hupper : n.toInt < 0x8000000000000000 := Int64.toInt_lt n
  have hread := decodeInteger_ofValue hlower hupper hlower (by omega) "i64"
  have hdecode : (decode levels (Node.ofValue (encode n)) : Except Fault Int64) =
      (Except.ok n.toInt).map Int64.ofInt := congrArg (Except.map Int64.ofInt) hread
  exact hdecode.trans (congrArg Except.ok (Int64.ofInt_toInt n))

/-- Optional content without `null`. -/
def contentWithoutNull : Option Value → Option Value
  | some .null => none
  | content => content

/-- What is there is read as what is written for it, unless that is `null`. -/
theorem decode_encode_some {α : Type} [Wire α] (levels : Nat) {a : α} (h : encode a ≠ .null) :
    (decode levels (Node.ofValue (encode (some a))) : Except Fault (Option α)) =
      (decode levels (Node.ofValue (encode a)) : Except Fault α).map some := by
  change (decode levels (Node.ofValue (encode a)) : Except Fault (Option α)) = _
  cases hvalue : encode a with
  | null => exact absurd hvalue h
  | bool _ | number _ | string _ | array _ | object _ => rfl

theorem contentWithoutNull_some {value : Value} (hnull : value ≠ .null) :
    contentWithoutNull (some value) = some value := by
  cases value with
  | null => exact absurd rfl hnull
  | bool _ | number _ | string _ | array _ | object _ => rfl

/-- The items of an array are read one after the other. -/
theorem decodeItems_ofItems {α : Type} [Wire α] {levels : Nat} {items : List α} {read : α → α}
    (h : ∀ a ∈ items, decode levels (Node.ofValue (encode a)) = .ok (read a)) (index : Nat) :
    decodeItems levels index (Node.ofItems (items.map encode)) =
      (.ok (items.map read) : Except Fault (List α)) := by
  induction items generalizing index with
  | nil => rfl
  | cons a rest ih =>
      have hrest := ih (fun b hb => h b (List.mem_cons_of_mem a hb)) (index + 1)
      rw [List.map_cons, Node.ofItems, decodeItems, h a List.mem_cons_self]
      simp only [hrest]
      rfl

theorem ofMembers_append (members others : List (String × Value)) :
    Node.ofMembers (members ++ others) = Node.ofMembers members ++ Node.ofMembers others := by
  induction members with
  | nil => rfl
  | cons member rest ih =>
      rw [List.cons_append, Node.ofMembers, ih, Node.ofMembers, List.cons_append]

/-! ## Types whose elements come back -/

/-- The counts of a record are natural numbers below this bound. -/
def countBound : Nat := 0x10000000000000000

/-- A type whose elements come back from their forms, but for `null` as optional content. -/
class Exchanged (α : Type) [Wire α] where
  /-- The values that an element holds as optional content. -/
  contents : α → List Value
  /-- The counts that an element holds. -/
  counts : α → List Nat
  /-- The element without content where it held `null`. -/
  withoutNulls : α → α
  withoutNulls_eq_self : ∀ {a : α}, Value.null ∉ contents a → withoutNulls a = a
  encode_withoutNulls : ∀ a : α, encode (withoutNulls a) = encode a
  decode_encode : ∀ {levels : Nat} {a : α}, (∀ value ∈ contents a, value.Ordered) →
    (∀ n ∈ counts a, n < countBound) → (encode a).ComesBack levels →
      decode levels (Node.ofValue (encode a)) = .ok (withoutNulls a)

namespace Exchanged

section Scalars

/-- An element without contents that comes back as it is. -/
@[reducible]
def scalar {α : Type} [Wire α]
    (h : ∀ {levels : Nat} {a : α}, (encode a).ComesBack levels →
      decode levels (Node.ofValue (encode a)) = .ok a) : Exchanged α where
  contents _ := []
  counts _ := []
  withoutNulls a := a
  withoutNulls_eq_self _ := rfl
  encode_withoutNulls _ := rfl
  decode_encode _ _ h' := h h'

instance : Exchanged String :=
  scalar fun _ => rfl

instance : Exchanged Int64 :=
  scalar fun {levels n} _ => decode_encode_int64 levels n

instance : Exchanged Nat where
  contents _ := []
  counts n := [n]
  withoutNulls n := n
  withoutNulls_eq_self _ := rfl
  encode_withoutNulls _ := rfl
  decode_encode {levels n} _ hcounts _ := by
    have hbound : n < countBound := hcounts n (List.mem_singleton.mpr rfl)
    rw [countBound] at hbound
    have hread : decodeInteger 0 0x10000000000000000 "u64"
        (Node.ofValue (.number (numberOfInt n))) = .ok (n : Int) :=
      decodeInteger_ofValue (by omega) (by omega) (by omega) (by omega) "u64"
    exact congrArg (Except.map Int.toNat) hread

instance : Exchanged Binary64 :=
  scalar fun {levels x} h => by
    have hread : x.IsReadBack := h.hasReadBack x (List.mem_singleton.mpr rfl)
    have hvalue : (Number.double x).numeral.value? = some (.double x) := by
      rw [Number.numeral, value?_decimalNumeral, hread]
      rfl
    change (match (Number.double x).numeral.value? with
      | some number => Except.ok number.toDouble
      | none => Except.error Fault.malformed) = _
    rw [hvalue]
    rfl

end Scalars

section Containers

instance : Exchanged (Option Value) where
  contents := Option.toList
  counts _ := []
  withoutNulls := contentWithoutNull
  withoutNulls_eq_self {content} h := by
    cases content with
    | none => rfl
    | some value =>
        exact contentWithoutNull_some fun heq => h (List.mem_singleton.mpr heq.symm)
  encode_withoutNulls content := by
    cases content with
    | none => rfl
    | some value =>
        by_cases hnull : value = .null
        · rw [hnull]
          rfl
        · rw [contentWithoutNull_some hnull]
  decode_encode {levels content} hordered _ h := by
    cases content with
    | none => rfl
    | some value =>
        by_cases hnull : value = .null
        · rw [hnull]
          rfl
        · have hback : value.ComesBack levels := h
          have hreread := (Value.reread_eq_self_iff_hasReadBack value).mpr hback.hasReadBack
          have hvalue := Node.value?_ofValue levels value
            (hordered value (List.mem_singleton.mpr rfl))
          rw [if_pos hback.depth_le, hreread] at hvalue
          have hread : decode levels (Node.ofValue value) = (.ok value : Except Fault Value) := by
            simp only [decode, hvalue]
          rw [decode_encode_some (a := value) levels hnull, contentWithoutNull_some hnull]
          exact congrArg (Except.map some) hread

variable {α : Type} [Wire α] [Exchanged α]

/-- An element that is there is read as what is written for it, unless that is `null`. -/
@[reducible]
def option (h : ∀ a : α, encode a ≠ .null) : Exchanged (Option α) where
  contents a := a.toList.flatMap contents
  counts a := a.toList.flatMap counts
  withoutNulls := Option.map withoutNulls
  withoutNulls_eq_self {a} hnull := by
    cases a with
    | none => rfl
    | some a => rw [Option.map_some, withoutNulls_eq_self (by simpa using hnull)]
  encode_withoutNulls a := by
    cases a with
    | none => rfl
    | some a => exact encode_withoutNulls a
  decode_encode {levels a} hordered hcounts hback := by
    cases a with
    | none => rfl
    | some a =>
        have hread : (decode levels (Node.ofValue (encode a)) : Except Fault α) =
            .ok (withoutNulls a) :=
          decode_encode (by simpa using hordered) (by simpa using hcounts) hback
        rw [decode_encode_some levels (h a), hread]
        rfl

instance : Exchanged (List α) where
  contents items := items.flatMap contents
  counts items := items.flatMap counts
  withoutNulls := List.map withoutNulls
  withoutNulls_eq_self {items} h := by
    rw [List.mem_flatMap] at h
    conv => rhs; rw [← List.map_id' items]
    exact List.map_congr_left fun a ha => withoutNulls_eq_self fun hnull => h ⟨a, ha, hnull⟩
  encode_withoutNulls items := by
    have hitems : (items.map withoutNulls).map encode = items.map (encode (α := α)) := by
      rw [List.map_map]
      exact List.map_congr_left fun a _ => encode_withoutNulls a
    exact congrArg Value.array hitems
  decode_encode {levels items} hordered hcounts hback := by
    obtain ⟨below, rfl, hitems⟩ := Value.comesBack_array_iff.mp hback
    have hread := decodeItems_ofItems (fun a ha =>
      decode_encode
        (fun value hvalue => hordered value (List.mem_flatMap.mpr ⟨a, ha, hvalue⟩))
        (fun n hn => hcounts n (List.mem_flatMap.mpr ⟨a, ha, hn⟩))
        (hitems _ (List.mem_map_of_mem ha))) 0
    change decode (below + 1) (.array (Node.ofItems (items.map encode)) true) = _
    simp only [decode, hread, if_true]

end Containers

end Exchanged

/-! ## Records -/

namespace RecordFormat

variable {R : Type} {format : RecordFormat R}

/-- A record of fields that come back. -/
@[reducible]
def exchanged (hlisted : format.IsListed)
    (fields : (f : format.Field) → @Exchanged (format.Carrier f) (format.form f))
    (withoutNulls : R → R)
    (hbuild : ∀ record, format.build (fun f => .ok (format.get record f)) = .ok record)
    (hwithout : ∀ record,
      format.build (fun f => .ok ((fields f).withoutNulls (format.get record f))) =
        .ok (withoutNulls record))
    (hget : ∀ record f,
      format.get (withoutNulls record) f = (fields f).withoutNulls (format.get record f)) :
    @Exchanged R format.wire :=
  letI := format.wire
  { contents record := format.order.flatMap fun f => (fields f).contents (format.get record f)
    counts record := format.order.flatMap fun f => (fields f).counts (format.get record f)
    withoutNulls := withoutNulls
    withoutNulls_eq_self {record} h := by
      rw [List.mem_flatMap] at h
      have hfields : (fun f => (.ok ((fields f).withoutNulls (format.get record f)) :
          Except Fault (format.Carrier f))) = fun f => .ok (format.get record f) := by
        funext f
        exact congrArg Except.ok
          ((fields f).withoutNulls_eq_self fun hnull => h ⟨f, hlisted.mem f, hnull⟩)
      have hsame := hwithout record
      rw [hfields, hbuild] at hsame
      exact (Except.ok.inj hsame).symm
    encode_withoutNulls record := by
      refine congrArg Value.object (List.map_congr_left fun f _ => ?_)
      rw [hget]
      exact congrArg (Prod.mk _) ((fields f).encode_withoutNulls _)
    decode_encode {levels record} hordered hcounts hback := by
      obtain ⟨below, rfl, hmembers⟩ := Value.comesBack_object_iff.mp hback
      refine (ofNode_ofValue hlisted fun f => ?_).trans (hwithout record)
      have hmem := hlisted.mem f
      refine (fields f).decode_encode
        (fun value hvalue => hordered value (List.mem_flatMap.mpr ⟨f, hmem, hvalue⟩))
        (fun n hn => hcounts n (List.mem_flatMap.mpr ⟨f, hmem, hn⟩))
        (hmembers _ (List.mem_map_of_mem hmem)) }

end RecordFormat

/-! ## Texts -/

namespace Exchanged

variable {α : Type} [Wire α] [Exchanged α] {a : α}

/-- An element whose form comes back is read from both of its texts, and written again alike. -/
theorem ofText_toText (hordered : ∀ value ∈ contents a, value.Ordered)
    (hcounts : ∀ n ∈ counts a, n < countBound) (hback : (encode a).ComesBack levelLimit) :
    ofText (toText a) = .ok (withoutNulls a) ∧
      ofText (toIndentedText a) = .ok (withoutNulls a) := by
  have hread : decode levelLimit (Node.ofValue (encode a)) = .ok (withoutNulls a) :=
    decode_encode hordered hcounts hback
  have hdocument : ofDocument ⟨Node.ofValue (encode a), true⟩ = .ok (withoutNulls a) := by
    rw [ofDocument, hread]
    rfl
  constructor
  · rw [ofText, toText, Document.ofString_compact]
    exact hdocument
  · rw [ofText, toIndentedText, Document.ofString_pretty]
    exact hdocument

theorem toText_withoutNulls (a : α) :
    toText (withoutNulls a) = toText a ∧ toIndentedText (withoutNulls a) = toIndentedText a := by
  rw [toText, toText, toIndentedText, toIndentedText, encode_withoutNulls]
  exact ⟨rfl, rfl⟩

end Exchanged

end FeedbackBoard.Json
