/-!
# Values and space of TOML

What a settings file holds: tables of named values.  Times are kept only as
such, since no setting is a time.

Lines end with a line feed, with or without a carriage return before it, or with
the end of the text.  A comment runs to the end of its line.

Main definitions:

- `Toml.Value`: the values.
- `Toml.Value.member?`: a value of a table.
- `Toml.skipBlanks`, `Toml.newline?`, `Toml.comment?`: the parts of space.
- `Toml.lineEnd?`: the rest of a line that must hold nothing more.
- `Toml.skipLines`: space that may run over several lines.
-/

namespace FeedbackBoard.Toml

/-! ## Values -/

/-- A value of a settings file. -/
inductive Value
  | text (s : String)
  | integer (n : Int)
  | float
  | bool (b : Bool)
  | moment
  | array (items : List Value)
  | table (entries : List (String × Value))

instance : Inhabited Value := ⟨.float⟩

/-- The value of a table with this name. -/
def Value.member? (name : String) : Value → Option Value
  | .table entries => entries.lookup name
  | _ => none

/-! ## Space -/

/-- Whether the character is a blank within a line. -/
def isBlank (c : Char) : Bool :=
  c == ' ' || c == '\t'

/-- The text without the blanks at its beginning. -/
def skipBlanks (text : List Char) : List Char :=
  text.dropWhile isBlank

/-- Whether the character may stand in a comment: a tab or no control character. -/
def isCommentChar (c : Char) : Bool :=
  c == '\t' || (decide (0x20 ≤ c.toNat) && c.toNat != 0x7F)

/-- What follows the end of a line. -/
def newline? : List Char → Option (List Char)
  | '\n' :: rest => some rest
  | '\r' :: '\n' :: rest => some rest
  | _ => none

/-- What follows a comment, which ends before the end of its line. -/
def comment? : List Char → Option (List Char)
  | '#' :: rest => some (rest.dropWhile isCommentChar)
  | _ => none

/-- What follows a line that holds nothing more than a comment. -/
def lineEnd? (text : List Char) : Option (List Char) :=
  let text := skipBlanks text
  let rest := (comment? text).getD text
  match rest with
  | [] => some []
  | _ => newline? rest

/-- The text without blanks, ends of lines and comments at its beginning. -/
def skipLines : (fuel : Nat) → List Char → List Char
  | 0, text => text
  | fuel + 1, text =>
    let text := skipBlanks text
    match newline? text with
    | some rest => skipLines fuel rest
    | none =>
      match (comment? text).bind newline? with
      | some rest => skipLines fuel rest
      | none => text

end FeedbackBoard.Toml
