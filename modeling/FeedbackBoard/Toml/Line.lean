import FeedbackBoard.Toml.Number
import FeedbackBoard.Toml.Text

/-!
# Lines of TOML

A settings file is a list of lines that begin a table, begin a further table of
an array, or give a value to a key.  A key is a path of names.

Main definitions:

- `Toml.Line`: the lines.
- `Toml.readKey`, `Toml.readValue`: keys and values.
- `Toml.readLines?`: all lines of a text.
-/

namespace FeedbackBoard.Toml

/-! ## Keys -/

/-- Whether the character may stand in a name without quotes. -/
def isNameChar (c : Char) : Bool :=
  c.isAlphanum || c == '_' || c == '-'

/-- A single name. -/
def readName (text : List Char) : Option (String × List Char) :=
  match readLineText text with
  | some found => some found
  | none =>
    let name := text.takeWhile isNameChar
    if name.isEmpty then none else some (String.ofList name, text.drop name.length)

/-- A path of names with points between them, with blanks around each. -/
def readPath : (fuel : Nat) → List Char → Option (List String × List Char)
  | 0, _ => none
  | fuel + 1, text =>
    match readName (skipBlanks text) with
    | none => none
    | some (name, rest) =>
      match skipBlanks rest with
      | '.' :: rest => (readPath fuel rest).map fun (path, rest) => (name :: path, rest)
      | rest => some ([name], rest)

/-- How long a path and how deep a value may be. -/
def nestingLimit : Nat := 80

/-- A path that is not too long. -/
def readKey (text : List Char) : Option (List String × List Char) :=
  match readPath (text.length + 1) text with
  | some (path, rest) => if path.length < nestingLimit then some (path, rest) else none
  | none => none

/-! ## Tables from paths -/

/-- An entry of a table that is still being written. -/
inductive Item
  | value (value : Value)
  /-- A table: whether it only follows from longer paths, whether those are keys, and its entries. -/
  | table (implied dotted : Bool) (entries : List (String × Item))
  /-- An array of tables, the latest first. -/
  | tables (latestFirst : List (List (String × Item)))

instance : Inhabited Item := ⟨.table true false []⟩

/-- The entries with one replaced or added at the end. -/
def setEntry (name : String) (item : Item) : List (String × Item) → List (String × Item)
  | [] => [(name, item)]
  | (other, kept) :: rest =>
    if other = name then (name, item) :: rest else (other, kept) :: setEntry name item rest

mutual

/-- The finished value of an entry. -/
def Item.finish : Item → Value
  | .value finished => finished
  | .table _ _ entries => .table (Item.finishEntries entries)
  | .tables latestFirst => .array (Item.finishTables latestFirst).reverse

/-- The finished entries of a table. -/
def Item.finishEntries : List (String × Item) → List (String × Value)
  | [] => []
  | (name, item) :: rest => (name, item.finish) :: Item.finishEntries rest

/-- The finished tables of an array. -/
def Item.finishTables : List (List (String × Item)) → List Value
  | [] => []
  | entries :: rest => .table (Item.finishEntries entries) :: Item.finishTables rest

end

/--
Gives a value to a key below a table.  Tables on the way are made where they are
missing; only tables that follow from keys may be extended by keys.
-/
def assign (value : Value) : List String → List (String × Item) →
    Option (List (String × Item))
  | [], _ => none
  | [name], entries =>
    match entries.lookup name with
    | some _ => none
    | none => some (entries ++ [(name, .value value)])
  | name :: next :: path, entries =>
    match entries.lookup name with
    | none =>
      (assign value (next :: path) []).map fun inner =>
        entries ++ [(name, .table true true inner)]
    | some (.table true dotted inner) =>
      if path = [] ∧ !dotted then none
      else
        (assign value (next :: path) inner).map fun inner =>
          setEntry name (.table true dotted inner) entries
    | some (.tables (latest :: earlier)) =>
      if path = [] then none
      else
        (assign value (next :: path) latest).map fun latest =>
          setEntry name (.tables (latest :: earlier)) entries
    | some _ => none

/-! ## Values -/

mutual

/-- A value nested in at most so many further values. -/
def readValue : (fuel levels : Nat) → List Char → Option (Value × List Char)
  | 0, _, _ => none
  | fuel + 1, levels, text =>
    match text with
    | '"' :: _ => (readText text).map fun (s, rest) => (.text s, rest)
    | '\'' :: _ => (readText text).map fun (s, rest) => (.text s, rest)
    | 't' :: 'r' :: 'u' :: 'e' :: rest => some (.bool true, rest)
    | 'f' :: 'a' :: 'l' :: 's' :: 'e' :: rest => some (.bool false, rest)
    | '[' :: rest =>
      match levels with
      | 0 => none
      | levels + 1 => readItems fuel levels [] rest
    | '\x7b' :: rest =>
      match levels with
      | 0 => none
      | levels + 1 =>
        match skipBlanks rest with
        | '\x7d' :: rest => some (.table [], rest)
        | rest => readEntries fuel levels [] rest
    | _ => readNumber text

/-- The rest of an array; the items before it are latest first. -/
def readItems : (fuel levels : Nat) → List Value → List Char → Option (Value × List Char)
  | 0, _, _, _ => none
  | fuel + 1, levels, items, text =>
    match skipLines text.length text with
    | ']' :: rest => some (.array items.reverse, rest)
    | text =>
      match readValue fuel levels text with
      | none => none
      | some (item, rest) =>
        match skipLines rest.length rest with
        | ',' :: rest => readItems fuel levels (item :: items) rest
        | ']' :: rest => some (.array (item :: items).reverse, rest)
        | _ => none

/-- The rest of a table in braces, from a key on. -/
def readEntries : (fuel levels : Nat) → List (String × Item) → List Char →
    Option (Value × List Char)
  | 0, _, _, _ => none
  | fuel + 1, levels, entries, text =>
    match readKey text with
    | some (path, '=' :: rest) =>
      match readValue fuel levels (skipBlanks rest) with
      | none => none
      | some (value, rest) =>
        match assign value path entries with
        | none => none
        | some entries =>
          match skipBlanks rest with
          | ',' :: rest => readEntries fuel levels entries rest
          | '\x7d' :: rest => some (.table (Item.finishEntries entries), rest)
          | _ => none
    | _ => none

end

/-! ## Lines -/

/-- A line of a settings file. -/
inductive Line
  | table (path : List String)
  | further (path : List String)
  | entry (path : List String) (value : Value)

/-- The line at the beginning of a text, and what follows it. -/
def readLine (text : List Char) : Option (Line × List Char) :=
  match text with
  | '[' :: '[' :: rest =>
    match readKey rest with
    | some (path, ']' :: ']' :: rest) => (lineEnd? rest).map (.further path, ·)
    | _ => none
  | '[' :: rest =>
    match readKey rest with
    | some (path, ']' :: rest) => (lineEnd? rest).map (.table path, ·)
    | _ => none
  | _ =>
    match readKey text with
    | some (path, '=' :: rest) =>
      match readValue (2 * rest.length + 2) (nestingLimit - 1) (skipBlanks rest) with
      | some (value, rest) => (lineEnd? rest).map (.entry path value, ·)
      | none => none
    | _ => none

/-- The lines of a text; those before it are latest first. -/
def readLinesFrom : (fuel : Nat) → List Line → List Char → Option (List Line)
  | 0, _, _ => none
  | fuel + 1, lines, text =>
    match skipLines text.length text with
    | [] => some lines.reverse
    | text =>
      if (comment? text).isSome then
        if ((comment? text).getD []).isEmpty then some lines.reverse else none
      else
        match readLine text with
        | some (line, rest) => readLinesFrom fuel (line :: lines) rest
        | none => none

/-- The lines of a text; a byte order mark at its beginning is left out. -/
def readLines? (text : String) : Option (List Line) :=
  let chars :=
    match text.toList with
    | c :: rest => if c.toNat = 0xFEFF then rest else c :: rest
    | [] => []
  readLinesFrom (chars.length + 2) [] chars

end FeedbackBoard.Toml
