import FeedbackBoard.Json.Fault
import FeedbackBoard.Json.Printer

/-!
# Types with a JSON form

A type is written as a value and read from a document.  Documents are read from
left to right, and the first fault decides.  Reading is bounded to a number of
levels of nesting.

Main definitions:

- `Json.Wire`: a type with a JSON form.
- `Json.ofText`: reads a value of such a type from a text.
- `Json.toText`, `Json.toIndentedText`: writes it.
-/

namespace FeedbackBoard.Json

/-- A type with a JSON form. -/
class Wire (α : Type) where
  /-- The value that stands for an element of the type. -/
  encode : α → Value
  /-- The element that a document stands for, nested at most so many levels. -/
  decode : (levels : Nat) → Node → Except Fault α

export Wire (encode decode)

/-! ## Scalars -/

instance : Wire String where
  encode := .string
  decode _ node :=
    match node with
    | .string (some text) => .ok text
    | _ => .error (mismatch node "a string")

/-- An integer between two bounds, which the name of its format implies. -/
def decodeInteger (low high : Int) (format : String) (node : Node) : Except Fault Int :=
  match node with
  | .number numeral =>
    match numeral.value? with
    | some (.integer n _ _) =>
      if low ≤ n ∧ n < high then .ok n else .error (.here (.outOfRange n format))
    | _ => .error (mismatch node format)
  | _ => .error (mismatch node format)

/-- The integer as a number; one outside the range of numbers becomes the nearest binary64 number. -/
def numberOfInt (n : Int) : Number :=
  (Number.ofInt? n).getD (.double (Binary64.ofInt n))

instance : Wire Int64 where
  encode n := .number (numberOfInt n.toInt)
  decode _ node := (decodeInteger (-0x8000000000000000) 0x8000000000000000 "i64" node).map Int64.ofInt

instance : Wire Nat where
  encode n := .number (numberOfInt n)
  decode _ node := (decodeInteger 0 0x10000000000000000 "u64" node).map Int.toNat

instance : Wire Binary64 where
  encode x := .number (.double x)
  decode _ node :=
    match node with
    | .number numeral =>
      match numeral.value? with
      | some number => .ok number.toDouble
      | none => .error .malformed
    | _ => .error (mismatch node "f64")

instance : Wire Bool where
  encode := .bool
  decode _ node :=
    match node with
    | .bool b => .ok b
    | _ => .error (mismatch node "a boolean")

instance : Wire Value where
  encode := id
  decode levels node :=
    match node.value? levels with
    | some value => .ok value
    | none => .error .malformed

/-! ## Containers -/

instance {α : Type} [Wire α] : Wire (Option α) where
  encode
    | some a => encode a
    | none => .null
  decode levels node :=
    match node with
    | .null => .ok none
    | _ => (decode levels node).map some

/-- The elements that the items of an array stand for; the items before them are counted. -/
def decodeItems {α : Type} [Wire α] (levels : Nat) : (index : Nat) → List Node → Except Fault (List α)
  | _, [] => .ok []
  | index, item :: rest =>
    match decode levels item with
    | .ok a => (decodeItems levels (index + 1) rest).map (a :: ·)
    | .error fault => .error (fault.under (.item index))

instance {α : Type} [Wire α] : Wire (List α) where
  encode items := .array (items.map encode)
  decode levels node :=
    match node with
    | .array items closed =>
      match levels with
      | 0 => .error .malformed
      | levels + 1 =>
        match decodeItems levels 0 items with
        | .ok elements => if closed then .ok elements else .error .malformed
        | .error fault => .error fault
    | _ => .error (mismatch node "a sequence")

/-! ## Texts -/

/-- The element that a whole document stands for. -/
def ofDocument {α : Type} [Wire α] (document : Document) : Except Fault α :=
  match decode levelLimit document.root with
  | .ok a => if document.ended then .ok a else .error .malformed
  | .error fault => .error fault

/-- The element that a text stands for. -/
def ofText {α : Type} [Wire α] (text : String) : Except Fault α :=
  ofDocument (Document.ofString text)

/-- The text of an element on one line. -/
def toText {α : Type} [Wire α] (a : α) : String :=
  (encode a).compact

/-- The indented text of an element. -/
def toIndentedText {α : Type} [Wire α] (a : α) : String :=
  (encode a).pretty

end FeedbackBoard.Json
