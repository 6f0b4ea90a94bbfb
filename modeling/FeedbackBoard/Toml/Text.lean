import FeedbackBoard.Json.Reader
import FeedbackBoard.Toml.Basic

/-!
# Strings of TOML

A string stands in double quotes, where a backslash escapes, or in single
quotes, where it does not; three quotes begin a string that may run over several
lines.  An end of a line within a string is a line feed, and the first of them
is left out.

Main definitions:

- `Toml.readText`: a string of any kind.
- `Toml.readLineText`: a string that stays on its line.
-/

namespace FeedbackBoard.Toml

/-- Whether the character may stand in a string as it is, quotes and backslashes apart. -/
def isTextChar (c : Char) : Bool :=
  isCommentChar c

/-- The number that hexadecimal digits spell. -/
def hexNumber? (digits : List Char) : Option Nat :=
  digits.foldlM (fun n c => (Json.hexValue? c).map (n * 16 + ·)) 0

/-- The character that so many hexadecimal digits at the beginning of a text spell. -/
def readCodePoint (count : Nat) (text : List Char) : Option (Char × List Char) :=
  let digits := text.take count
  if digits.length = count then
    match hexNumber? digits with
    | some n => if n.isValidChar then some (Char.ofNat n, text.drop count) else none
    | none => none
  else none

/-- The character that an escape stands for, after its backslash. -/
def readEscape (text : List Char) : Option (Char × List Char) :=
  match text with
  | 'b' :: rest => some ('\x08', rest)
  | 't' :: rest => some ('\t', rest)
  | 'n' :: rest => some ('\n', rest)
  | 'f' :: rest => some ('\x0c', rest)
  | 'r' :: rest => some ('\r', rest)
  | '"' :: rest => some ('"', rest)
  | '\\' :: rest => some ('\\', rest)
  | 'u' :: rest => readCodePoint 4 rest
  | 'U' :: rest => readCodePoint 8 rest
  | _ => none

/-- The text without the blanks and ends of lines at its beginning. -/
def skipFolded : (fuel : Nat) → List Char → List Char
  | 0, text => text
  | fuel + 1, text =>
    match newline? (skipBlanks text) with
    | some rest => skipFolded fuel rest
    | none => skipBlanks text

/-- What follows a backslash at the end of a line: the blanks and ends of lines after it are left out. -/
def foldedLine? (text : List Char) : Option (List Char) :=
  (newline? (skipBlanks text)).map fun rest => skipFolded rest.length rest

/-- The rest of a string in double quotes on one line; the characters before it are latest first. -/
def readQuoted : (fuel : Nat) → List Char → List Char → Option (String × List Char)
  | 0, _, _ => none
  | fuel + 1, read, text =>
    match text with
    | '"' :: rest => some (String.ofList read.reverse, rest)
    | '\\' :: rest =>
      match readEscape rest with
      | some (c, rest) => readQuoted fuel (c :: read) rest
      | none => none
    | c :: rest => if isTextChar c then readQuoted fuel (c :: read) rest else none
    | [] => none

/-- The rest of a string in single quotes on one line. -/
def readLiteral (text : List Char) : Option (String × List Char) :=
  let allowed (c : Char) : Bool := isTextChar c && c.toNat != 0x27
  let body := text.takeWhile allowed
  match text.drop body.length with
  | c :: rest => if c.toNat = 0x27 then some (String.ofList body, rest) else none
  | [] => none

/--
The rest of a string over several lines between three quotes of one kind.  Up to
two more quotes before the closing three belong to the string.
-/
def readLines (quote : Char) (escapes : Bool) :
    (fuel : Nat) → List Char → List Char → Option (String × List Char)
  | 0, _, _ => none
  | fuel + 1, read, text =>
    let quotes := (text.takeWhile (· == quote)).length
    if 3 ≤ quotes then
      if 5 < quotes then none
      else
        some (String.ofList (read.reverse ++ List.replicate (quotes - 3) quote), text.drop quotes)
    else
      match text with
      | [] => none
      | c :: rest =>
        match newline? text with
        | some rest => readLines quote escapes fuel ('\n' :: read) rest
        | none =>
          if escapes && c == '\\' then
            match foldedLine? rest with
            | some rest => readLines quote escapes fuel read rest
            | none =>
              match readEscape rest with
              | some (c, rest) => readLines quote escapes fuel (c :: read) rest
              | none => none
          else if isTextChar c then readLines quote escapes fuel (c :: read) rest
          else none

/-- The text without an end of a line at its beginning. -/
def skipNewline (text : List Char) : List Char :=
  (newline? text).getD text

/-- The string at the beginning of a text, if it stays on its line. -/
def readLineText (text : List Char) : Option (String × List Char) :=
  match text with
  | '"' :: rest => readQuoted (rest.length + 1) [] rest
  | '\'' :: rest => readLiteral rest
  | _ => none

/-- The string at the beginning of a text. -/
def readText (text : List Char) : Option (String × List Char) :=
  match text with
  | '"' :: '"' :: '"' :: rest => readLines '"' true (rest.length + 1) [] (skipNewline rest)
  | '\'' :: '\'' :: '\'' :: rest => readLines '\'' false (rest.length + 1) [] (skipNewline rest)
  | _ => readLineText text

end FeedbackBoard.Toml
