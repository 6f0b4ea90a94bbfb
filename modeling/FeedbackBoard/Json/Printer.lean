import FeedbackBoard.Json.Value

/-!
# Writing JSON

Values are written either on one line without spaces, or with every item and
member on a line of its own, indented by two spaces for each level.

Main definitions:

- `Json.Value.compact`: the text on one line.
- `Json.Value.pretty`: the indented text.
-/

namespace FeedbackBoard.Json

/-! ## Strings -/

/-- The four hexadecimal digits of a control character. -/
def controlEscape (c : Char) : List Char :=
  let digits := Nat.toDigits 16 c.toNat
  ['\\', 'u'] ++ List.replicate (4 - digits.length) '0' ++ digits

/-- The character inside a string. -/
def escapedChar (c : Char) : List Char :=
  match c with
  | '"' => ['\\', '"']
  | '\\' => ['\\', '\\']
  | '\x08' => ['\\', 'b']
  | '\x0c' => ['\\', 'f']
  | '\n' => ['\\', 'n']
  | '\r' => ['\\', 'r']
  | '\t' => ['\\', 't']
  | _ => if c.toNat < 0x20 then controlEscape c else [c]

/-- A text between quotation marks. -/
def stringChars (text : String) : List Char :=
  '"' :: text.toList.flatMap escapedChar ++ ['"']

/-! ## One line -/

mutual

/-- The characters of a value on one line. -/
def Value.compactChars : Value → List Char
  | .null => ['n', 'u', 'l', 'l']
  | .bool true => ['t', 'r', 'u', 'e']
  | .bool false => ['f', 'a', 'l', 's', 'e']
  | .number n => n.text
  | .string text => stringChars text
  | .array items => '[' :: Value.compactItems items ++ [']']
  | .object members => '\x7b' :: Value.compactMembers members ++ ['\x7d']

/-- The items of an array, with commas between them. -/
def Value.compactItems : List Value → List Char
  | [] => []
  | [item] => item.compactChars
  | item :: rest => item.compactChars ++ ',' :: Value.compactItems rest

/-- The members of an object, with commas between them. -/
def Value.compactMembers : List (String × Value) → List Char
  | [] => []
  | [(key, item)] => stringChars key ++ ':' :: item.compactChars
  | (key, item) :: rest =>
    stringChars key ++ ':' :: item.compactChars ++ ',' :: Value.compactMembers rest

end

/-- The text of a value on one line. -/
def Value.compact (value : Value) : String :=
  String.ofList value.compactChars

/-! ## Indented lines -/

/-- A new line at a level. -/
def newLine (level : Nat) : List Char :=
  '\n' :: List.replicate (2 * level) ' '

mutual

/-- The characters of a value that stands at a level. -/
def Value.prettyChars (level : Nat) : Value → List Char
  | .array [] => ['[', ']']
  | .array (item :: rest) =>
    '[' :: Value.prettyItems (level + 1) (item :: rest) ++ newLine level ++ [']']
  | .object [] => ['\x7b', '\x7d']
  | .object (member :: rest) =>
    '\x7b' :: Value.prettyMembers (level + 1) (member :: rest) ++ newLine level ++ ['\x7d']
  | .null => ['n', 'u', 'l', 'l']
  | .bool true => ['t', 'r', 'u', 'e']
  | .bool false => ['f', 'a', 'l', 's', 'e']
  | .number n => n.text
  | .string text => stringChars text

/-- The items of an array, each on a line of its own. -/
def Value.prettyItems (level : Nat) : List Value → List Char
  | [] => []
  | [item] => newLine level ++ item.prettyChars level
  | item :: rest => newLine level ++ item.prettyChars level ++ ',' :: Value.prettyItems level rest

/-- The members of an object, each on a line of its own. -/
def Value.prettyMembers (level : Nat) : List (String × Value) → List Char
  | [] => []
  | [(key, item)] => newLine level ++ stringChars key ++ ':' :: ' ' :: item.prettyChars level
  | (key, item) :: rest =>
    newLine level ++ stringChars key ++ ':' :: ' ' :: item.prettyChars level ++
      ',' :: Value.prettyMembers level rest

end

/-- The indented text of a value. -/
def Value.pretty (value : Value) : String :=
  String.ofList (value.prettyChars 0)

end FeedbackBoard.Json
