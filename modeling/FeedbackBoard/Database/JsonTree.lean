import FeedbackBoard.Database.Cell
import FeedbackBoard.Json.Printer
import FeedbackBoard.Json.Reader

/-!
# JSON texts in the database

Database expressions look into stored JSON texts.  They see every number with
its own spelling, and the first of several members with one key.

Main definitions:

- `JsonTree`: a stored text as expressions see it.
- `JsonTree.ofNode`: the tree of a document.
- `JsonTree.member?`: the cell of a member of an object.
-/

namespace FeedbackBoard

/-- A stored JSON text; a scalar has its spelling inside a container, and a cell if it has a value. -/
inductive JsonTree
  | scalar (cell : Option Cell) (spelling : List Char)
  | array (items : List JsonTree)
  /-- Members with their keys, and the keys' spellings. -/
  | object (members : List (CodePoints × List Char × JsonTree))

instance : Inhabited JsonTree := ⟨.scalar none []⟩

namespace JsonTree

/-! ## Scalars -/

/-- The text of a string; one that spells no text becomes a replacement character. -/
def stringText (text : Option String) : String :=
  text.getD (String.ofList [Char.ofNat 0xFFFD])

/-- A string as a scalar. -/
def ofString (text : Option String) : JsonTree :=
  .scalar (some (.text (.ofString (stringText text)))) (Json.stringChars (stringText text))

/-- A truth value as a scalar. -/
def ofBool (b : Bool) : JsonTree :=
  .scalar (some (.integer (if b then 1 else 0))) (Json.Value.bool b).compactChars

/-! ## Documents -/

/-- How many levels of nesting the database follows. -/
def levelLimit : Nat := 1000

mutual

/-- The tree of a document that is spelled correctly and nested at most `levels` levels. -/
def ofNode : (levels : Nat) → Json.Node → Option JsonTree
  | _, .null => some (.scalar (some .null) ['n', 'u', 'l', 'l'])
  | _, .bool b => some (ofBool b)
  | _, .number n => some (.scalar (some (.ofNumeral n)) n.chars)
  | _, .string text => some (ofString text)
  | 0, .array _ _ => none
  | levels + 1, .array items closed =>
    match ofItems levels items with
    | some trees => if closed then some (.array trees) else none
    | none => none
  | 0, .object _ _ => none
  | levels + 1, .object members closed =>
    match ofMembers levels members with
    | some trees => if closed then some (.object trees) else none
    | none => none
  | _, .broken => none

/-- The trees of all items. -/
def ofItems : (levels : Nat) → List Json.Node → Option (List JsonTree)
  | _, [] => some []
  | levels, item :: rest =>
    match ofNode levels item with
    | some tree => (ofItems levels rest).map (tree :: ·)
    | none => none

/-- The trees of all members. -/
def ofMembers : (levels : Nat) → List (Option String × Json.Node) →
    Option (List (CodePoints × List Char × JsonTree))
  | _, [] => some []
  | levels, (key, item) :: rest =>
    match ofNode levels item with
    | some tree =>
      (ofMembers levels rest).map
        ((.ofString (stringText key), Json.stringChars (stringText key), tree) :: ·)
    | none => none

end

/-- The tree of a text that is JSON to its end. -/
def ofDocument (document : Json.Document) : Option JsonTree :=
  match ofNode levelLimit document.root with
  | some tree => if document.ended then some tree else none
  | none => none

/-! ## Spelling -/

mutual

/-- The characters of a tree, without spaces. -/
def chars : JsonTree → List Char
  | .scalar _ spelling => spelling
  | .array items => '[' :: itemChars items ++ [']']
  | .object members => '\x7b' :: memberChars members ++ ['\x7d']

/-- The characters of all items, with commas between them. -/
def itemChars : List JsonTree → List Char
  | [] => []
  | [item] => item.chars
  | item :: rest => item.chars ++ ',' :: itemChars rest

/-- The characters of all members, with commas between them. -/
def memberChars : List (CodePoints × List Char × JsonTree) → List Char
  | [] => []
  | [(_, key, item)] => key ++ ':' :: item.chars
  | (_, key, item) :: rest => key ++ ':' :: item.chars ++ ',' :: memberChars rest

end

/-! ## Members -/

/-- The cell of a tree, if it has a value; containers become their texts. -/
def cell? : JsonTree → Option Cell
  | .scalar cell _ => cell
  | tree => some (.text (.ofChars tree.chars))

/--
The cell of a member of an object; a missing member is nothing.  Keys are
compared up to their first zero, and the first member with the key counts.
-/
def member? (key : String) : JsonTree → Option Cell
  | .object members =>
    match members.find? fun entry => entry.1.beforeZero == CodePoints.ofString key with
    | some (_, _, tree) => tree.cell?
    | none => some .null
  | _ => some .null

end JsonTree

end FeedbackBoard
