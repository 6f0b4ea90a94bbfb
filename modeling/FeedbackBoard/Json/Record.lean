import FeedbackBoard.Json.Wire

/-!
# Records

A record is written as an object with its fields in their order.  It is read
from an object, where the fields may come in any order and other members are
passed over, or from an array of its fields in their order.  A field that comes
twice is a fault at its second place, before its value is looked at; a field
that is left out is a fault of the whole record.

Main definitions:

- `Json.Absence`: what stands for a field that is left out.
- `Json.RecordFormat`: the fields of a record and how they are read and written.
- `Json.RecordFormat.wire`: the JSON form of the record.
-/

namespace FeedbackBoard.Json

/-- What stands for a field that is left out. -/
inductive Absence (α : Type)
  /-- Nothing: the field is required. -/
  | required
  /-- This element, if the record is an object. -/
  | named (a : α)
  /-- This element, also if the record is an array that ends before the field. -/
  | always (a : α)

/-- The fields of a record and how they are read and written. -/
structure RecordFormat (R : Type) where
  /-- The name of the record in messages. -/
  name : String
  /-- The names of its fields. -/
  Field : Type
  decEq : DecidableEq Field
  /-- The fields in their order. -/
  order : List Field
  /-- The key of a field in an object. -/
  key : Field → String
  /-- The type of a field. -/
  Carrier : Field → Type
  /-- The JSON form of a field. -/
  form : (f : Field) → Wire (Carrier f)
  /-- What stands for a field that is left out. -/
  absence : (f : Field) → Absence (Carrier f)
  /-- The record with these fields, which are asked for in their order. -/
  build : ((f : Field) → Except Fault (Carrier f)) → Except Fault R
  /-- A field of a record. -/
  get : R → (f : Field) → Carrier f

namespace RecordFormat

variable {R : Type} (format : RecordFormat R)

/-- The fields that have been read. -/
abbrev Fields : Type :=
  (f : format.Field) → Option (format.Carrier f)

/-- No field has been read. -/
def noFields : format.Fields :=
  fun _ => none

/-- The fields with one more. -/
def setField (fields : format.Fields) (f : format.Field) (a : format.Carrier f) : format.Fields :=
  fun g =>
    have := format.decEq
    if h : g = f then some (h ▸ a) else fields g

/-- The field with this key. -/
def fieldOf? (key : String) : Option format.Field :=
  format.order.find? fun f => format.key f == key

/-! ## Objects -/

/-- Reads the members of an object from left to right. -/
def readMembers (levels : Nat) (fields : format.Fields) :
    List (Option String × Node) → Except Fault format.Fields
  | [] => .ok fields
  | (none, _) :: _ => .error .malformed
  | (some key, item) :: rest =>
    match format.fieldOf? key with
    | none => if item.sound then readMembers levels fields rest else .error .malformed
    | some f =>
      if (fields f).isSome then .error (.here (.duplicateField key))
      else
        match (format.form f).decode levels item with
        | .ok a => readMembers levels (format.setField fields f a) rest
        | .error fault => .error (fault.under (.field key))

/-- A field of an object, or what stands for it. -/
def memberOr (fields : format.Fields) (f : format.Field) : Except Fault (format.Carrier f) :=
  match fields f, format.absence f with
  | some a, _ => .ok a
  | none, .named a => .ok a
  | none, .always a => .ok a
  | none, .required => .error (.here (.missingField (format.key f)))

/-- The record of the members of an object whose end was reached or not. -/
def ofMembers (levels : Nat) (members : List (Option String × Node)) (closed : Bool) :
    Except Fault R :=
  match format.readMembers levels format.noFields members with
  | .ok fields => if closed then format.build (format.memberOr fields) else .error .malformed
  | .error fault => .error fault

/-! ## Arrays -/

/-- Reads the items of an array, one for each field. -/
def readItems (levels : Nat) (closed : Bool) :
    (index : Nat) → List format.Field → List Node → format.Fields → Except Fault format.Fields
  | _, [], [], fields => if closed then .ok fields else .error .malformed
  | _, [], _ :: _, _ => .error .malformed
  | index, f :: rest, item :: items, fields =>
    match (format.form f).decode levels item with
    | .ok a => readItems levels closed (index + 1) rest items (format.setField fields f a)
    | .error fault => .error (fault.under (.item index))
  | index, f :: rest, [], fields =>
    if closed then
      match format.absence f with
      | .always a => readItems levels closed (index + 1) rest [] (format.setField fields f a)
      | _ => .error (.here (.wrongLength index format.name format.order.length))
    else .error .malformed

/-- The record of the items of an array whose end was reached or not. -/
def ofItems (levels : Nat) (items : List Node) (closed : Bool) : Except Fault R :=
  match format.readItems levels closed 0 format.order items format.noFields with
  | .ok fields => format.build (format.memberOr fields)
  | .error fault => .error fault

/-! ## The JSON form -/

/-- What a message calls the record. -/
def expected : String :=
  "struct " ++ format.name

/-- The record that a document stands for. -/
def ofNode (levels : Nat) (node : Node) : Except Fault R :=
  match node with
  | .object members closed =>
    match levels with
    | 0 => .error .malformed
    | levels + 1 => format.ofMembers levels members closed
  | .array items closed =>
    match levels with
    | 0 => .error .malformed
    | levels + 1 => format.ofItems levels items closed
  | _ => .error (mismatch node format.expected)

/-- The members that stand for a record. -/
def toMembers (record : R) : List (String × Value) :=
  format.order.map fun f => (format.key f, (format.form f).encode (format.get record f))

/-- The JSON form of the record. -/
@[reducible]
def wire : Wire R where
  encode record := .object (format.toMembers record)
  decode := format.ofNode

end RecordFormat

end FeedbackBoard.Json
