import FeedbackBoard.Json.Value

/-!
# JSON documents

A document is the tree of what a text spells, up to the first place where it
stops being JSON.  Everything before that place is intact, so a reader that
walks the tree from left to right meets a problem of shape before it meets a
fault of spelling that comes later in the text.

Main definitions:

- `Json.Node`: the tree.
- `Json.Node.sound`: whether it is spelled correctly to its end.
- `Json.Node.value?`: the value of a document that is nested at most so many levels.
-/

namespace FeedbackBoard.Json

/-- What a text spells, up to its first fault. -/
inductive Node
  | null
  | bool (b : Bool)
  | number (numeral : Numeral)
  /-- A string; none if its escapes or bytes spell something that is no text. -/
  | string (text : Option String)
  /-- An array, and whether its end was reached. -/
  | array (items : List Node) (closed : Bool)
  /-- An object, and whether its end was reached. -/
  | object (members : List (Option String × Node)) (closed : Bool)
  /-- The place of the fault. -/
  | broken

instance : Inhabited Node := ⟨.broken⟩

namespace Node

/-! ## Spelling -/

mutual

/-- Whether the document is spelled correctly to its end. -/
def sound : Node → Bool
  | .array items closed => soundItems items && closed
  | .object members closed => soundMembers members && closed
  | .broken => false
  | _ => true

/-- Whether all items are spelled correctly. -/
def soundItems : List Node → Bool
  | [] => true
  | item :: rest => sound item && soundItems rest

/-- Whether all members are spelled correctly. -/
def soundMembers : List (Option String × Node) → Bool
  | [] => true
  | (_, item) :: rest => sound item && soundMembers rest

end

/-! ## Meaning -/

mutual

/--
The value of a document that is spelled correctly, has only sound texts and
numbers in range, and is nested at most `levels` levels.
-/
def value? : (levels : Nat) → Node → Option Value
  | _, .null => some .null
  | _, .bool b => some (.bool b)
  | _, .number numeral => numeral.value?.map .number
  | _, .string text => text.map .string
  | 0, .array _ _ => none
  | levels + 1, .array items closed =>
    match valueItems? levels items with
    | some values => if closed then some (.array values) else none
    | none => none
  | 0, .object _ _ => none
  | levels + 1, .object members closed =>
    match valueMembers? levels members with
    | some values => if closed then some (Value.ofMembers values) else none
    | none => none
  | _, .broken => none

/-- The values of all items. -/
def valueItems? : (levels : Nat) → List Node → Option (List Value)
  | _, [] => some []
  | levels, item :: rest =>
    match value? levels item with
    | some value => (valueItems? levels rest).map (value :: ·)
    | none => none

/-- The values of all members. -/
def valueMembers? : (levels : Nat) → List (Option String × Node) → Option (List (String × Value))
  | _, [] => some []
  | levels, (some key, item) :: rest =>
    match value? levels item with
    | some value => (valueMembers? levels rest).map ((key, value) :: ·)
    | none => none
  | _, (none, _) :: _ => none

end

end Node

end FeedbackBoard.Json
