import FeedbackBoard.Json.Number

/-!
# JSON values

A value is what a document means: numbers instead of spellings, sound texts, and
objects whose keys are distinct and in ascending order.

Main definitions:

- `Json.Value`: the values.
- `Json.insertMember`: sets one key of an object.
- `Json.Value.ofMembers`: the object of a list of members, the last of a key deciding.
- `Json.Value.member?`: the member of an object.
-/

namespace FeedbackBoard.Json

/-- A JSON value; the members of an object are listed in the order in which they are written. -/
inductive Value
  | null
  | bool (b : Bool)
  | number (n : Number)
  | string (text : String)
  | array (items : List Value)
  | object (members : List (String × Value))

instance : Inhabited Value := ⟨.null⟩

/-! ## Objects -/

/-- Sets a key in a list of members in ascending order of their keys. -/
def insertMember {α : Type} (key : String) (value : α) : List (String × α) → List (String × α)
  | [] => [(key, value)]
  | (other, kept) :: rest =>
    if key < other then (key, value) :: (other, kept) :: rest
    else if key = other then (key, value) :: rest
    else (other, kept) :: insertMember key value rest

/-- Members in ascending order of their keys; of several with one key the last remains. -/
def sortedMembers {α : Type} (members : List (String × α)) : List (String × α) :=
  members.foldl (fun sorted member => insertMember member.1 member.2 sorted) []

/-- The object with these members. -/
def Value.ofMembers (members : List (String × Value)) : Value :=
  .object (sortedMembers members)

/-- The member of an object with this key. -/
def Value.member? (key : String) : Value → Option Value
  | .object members => members.lookup key
  | _ => none

end FeedbackBoard.Json
