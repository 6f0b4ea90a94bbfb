import FeedbackBoard.Json.Node
import FeedbackBoard.Text.Symbol

/-!
# Reading JSON

Texts are read into documents.  The reader never fails: at a fault it closes the
tree that it has built, and nothing of the text is left.  Every step takes a
symbol from the text, so the length of the text bounds the number of steps.

Main definitions:

- `Json.readNode`: one document at the beginning of a text, and what follows it.
- `Json.Document.ofSymbols`: a whole text.
- `Json.readValue?`: the value of a whole text.
-/

namespace FeedbackBoard.Json

/-- Whether the symbol may stand between the parts of a document. -/
def isSpace : Symbol → Bool
  | some c => c == ' ' || c == '\n' || c == '\t' || c == '\r'
  | none => false

/-- The text from its first symbol on that is no space. -/
def skipSpace (text : List Symbol) : List Symbol :=
  text.dropWhile isSpace

/-! ## Numbers -/

/-- Whether the symbol is a decimal digit. -/
def isDigitSymbol : Symbol → Bool
  | some c => c.isDigit
  | none => false

/-- The decimal digits at the beginning of a text, and what follows them. -/
def takeDigits (text : List Symbol) : List Char × List Symbol :=
  ((text.takeWhile isDigitSymbol).filterMap id, text.dropWhile isDigitSymbol)

/-- The digits after a point, if there is a point; a point alone is a fault. -/
def readFraction (text : List Symbol) : Option (Option (List Char) × List Symbol) :=
  match text with
  | some '.' :: rest =>
    let (digits, rest) := takeDigits rest
    if digits.isEmpty then none else some (some digits, rest)
  | _ => some (none, text)

/-- The exponent, if there is one; a mark without digits is a fault. -/
def readExponent (text : List Symbol) : Option (Option ExponentPart × List Symbol) :=
  let digitsAfter (mark : List Char) (rest : List Symbol) :=
    let (digits, rest) := takeDigits rest
    if digits.isEmpty then none else some (some (ExponentPart.mk mark digits), rest)
  match text with
  | some 'e' :: some '+' :: rest => digitsAfter ['e', '+'] rest
  | some 'e' :: some '-' :: rest => digitsAfter ['e', '-'] rest
  | some 'E' :: some '+' :: rest => digitsAfter ['E', '+'] rest
  | some 'E' :: some '-' :: rest => digitsAfter ['E', '-'] rest
  | some 'e' :: rest => digitsAfter ['e'] rest
  | some 'E' :: rest => digitsAfter ['E'] rest
  | _ => some (none, text)

/-- Whether the digits may stand before the point: a leading zero stands alone. -/
def wholeDigitsAllowed : List Char → Bool
  | [] => false
  | '0' :: _ :: _ => false
  | _ => true

/-- The numeral at the beginning of a text, after its sign. -/
def readUnsigned (negative : Bool) (text : List Symbol) : Option (Numeral × List Symbol) :=
  let (whole, rest) := takeDigits text
  if wholeDigitsAllowed whole then
    match readFraction rest with
    | none => none
    | some (fraction, rest) =>
      match readExponent rest with
      | none => none
      | some (exponent, rest) => some ({ negative, whole, fraction, exponent }, rest)
  else none

/-- The numeral at the beginning of a text. -/
def readNumeral (text : List Symbol) : Option (Numeral × List Symbol) :=
  match text with
  | some '-' :: rest => readUnsigned true rest
  | _ => readUnsigned false text

/-! ## Strings -/

/-- A string that is being read. -/
structure StringState where
  /-- The characters read, latest first. -/
  chars : List Char
  /-- Whether everything read so far spells characters. -/
  sound : Bool
  /-- The first half of a pair of escapes that waits for its second half. -/
  high : Option Nat

namespace StringState

/-- Nothing has been read. -/
def empty : StringState := ⟨[], true, none⟩

/-- Takes a character; a half pair before it spells nothing. -/
def put (state : StringState) (c : Char) : StringState :=
  ⟨c :: state.chars, state.sound && state.high.isNone, none⟩

/-- Takes something that spells no character. -/
def damage (state : StringState) : StringState :=
  ⟨state.chars, false, none⟩

/-- Takes an escape of four hexadecimal digits, one 16-bit unit. -/
def putUnit (state : StringState) (unit : Nat) : StringState :=
  if 0xD800 ≤ unit ∧ unit < 0xDC00 then
    ⟨state.chars, state.sound && state.high.isNone, some unit⟩
  else if 0xDC00 ≤ unit ∧ unit < 0xE000 then
    match state.high with
    | some high =>
      ⟨Char.ofNat (0x10000 + (high - 0xD800) * 0x400 + (unit - 0xDC00)) :: state.chars,
        state.sound, none⟩
    | none => state.damage
  else state.put (Char.ofNat unit)

/-- The text read, if it is one. -/
def finish (state : StringState) : Option String :=
  if state.sound && state.high.isNone then some (String.ofList state.chars.reverse) else none

end StringState

/-- The value of a hexadecimal digit. -/
def hexValue? (c : Char) : Option Nat :=
  if '0' ≤ c ∧ c ≤ '9' then some (c.toNat - '0'.toNat)
  else if 'a' ≤ c ∧ c ≤ 'f' then some (c.toNat - 'a'.toNat + 10)
  else if 'A' ≤ c ∧ c ≤ 'F' then some (c.toNat - 'A'.toNat + 10)
  else none

/-- The number that four hexadecimal digits spell. -/
def hexUnit? : (a b c d : Symbol) → Option Nat
  | some a, some b, some c, some d =>
    match hexValue? a, hexValue? b, hexValue? c, hexValue? d with
    | some a, some b, some c, some d => some (((a * 16 + b) * 16 + c) * 16 + d)
    | _, _, _, _ => none
  | _, _, _, _ => none

/-- The character that a backslash and a letter stand for. -/
def simpleEscape? : Symbol → Option Char
  | some '"' => some '"'
  | some '\\' => some '\\'
  | some '/' => some '/'
  | some 'b' => some '\x08'
  | some 'f' => some '\x0c'
  | some 'n' => some '\n'
  | some 'r' => some '\r'
  | some 't' => some '\t'
  | _ => none

/-- The string that ends at the first quotation mark of its own, and what follows it. -/
def readString (state : StringState) : List Symbol → Option (Option String × List Symbol)
  | [] => none
  | some '"' :: rest => some (state.finish, rest)
  | some '\\' :: some 'u' :: a :: b :: c :: d :: rest =>
    match hexUnit? a b c d with
    | some unit => readString (state.putUnit unit) rest
    | none => none
  | some '\\' :: escape :: rest =>
    match simpleEscape? escape with
    | some c => readString (state.put c) rest
    | none => none
  | some c :: rest => if c.toNat < 0x20 then none else readString (state.put c) rest
  | none :: rest => readString state.damage rest

/-! ## Documents -/

mutual

/-- The document at the beginning of a text, and what follows it. -/
def readNode : (fuel : Nat) → List Symbol → Node × List Symbol
  | 0, _ => (.broken, [])
  | fuel + 1, text =>
    match skipSpace text with
    | some 'n' :: some 'u' :: some 'l' :: some 'l' :: rest => (.null, rest)
    | some 't' :: some 'r' :: some 'u' :: some 'e' :: rest => (.bool true, rest)
    | some 'f' :: some 'a' :: some 'l' :: some 's' :: some 'e' :: rest => (.bool false, rest)
    | some '"' :: rest =>
      match readString .empty rest with
      | some (string, rest) => (.string string, rest)
      | none => (.broken, [])
    | some '[' :: rest =>
      match skipSpace rest with
      | some ']' :: rest => (.array [] true, rest)
      | rest => readItems fuel [] rest
    | some '\x7b' :: rest =>
      match skipSpace rest with
      | some '\x7d' :: rest => (.object [] true, rest)
      | rest => readMembers fuel [] rest
    | text =>
      match readNumeral text with
      | some (numeral, rest) => (.number numeral, rest)
      | none => (.broken, [])

/-- The rest of an array from one of its items on; the items before it are given, latest first. -/
def readItems : (fuel : Nat) → List Node → List Symbol → Node × List Symbol
  | 0, items, _ => (.array items.reverse false, [])
  | fuel + 1, items, text =>
    let (item, rest) := readNode fuel text
    match skipSpace rest with
    | some ',' :: rest => readItems fuel (item :: items) rest
    | some ']' :: rest => (.array (item :: items).reverse true, rest)
    | _ => (.array (item :: items).reverse false, [])

/-- The rest of an object from one of its keys on; the members before it are given, latest first. -/
def readMembers : (fuel : Nat) → List (Option String × Node) → List Symbol → Node × List Symbol
  | 0, members, _ => (.object members.reverse false, [])
  | fuel + 1, members, text =>
    match skipSpace text with
    | some '"' :: rest =>
      match readString .empty rest with
      | some (key, rest) =>
        match skipSpace rest with
        | some ':' :: rest =>
          let (item, rest) := readNode fuel rest
          match skipSpace rest with
          | some ',' :: rest => readMembers fuel ((key, item) :: members) rest
          | some '\x7d' :: rest => (.object ((key, item) :: members).reverse true, rest)
          | _ => (.object ((key, item) :: members).reverse false, [])
        | _ => (.object ((key, .broken) :: members).reverse false, [])
      | none => (.object members.reverse false, [])
    | _ => (.object members.reverse false, [])

end

/-- A text as a document, and whether nothing but space follows it. -/
structure Document where
  root : Node
  ended : Bool

/-- Enough steps for a text of this length. -/
def readingFuel (text : List Symbol) : Nat :=
  2 * text.length + 2

/-- The document of a whole text. -/
def Document.ofSymbols (text : List Symbol) : Document :=
  let (root, rest) := readNode (readingFuel text) text
  { root, ended := (skipSpace rest).isEmpty }

/-- The document of a string. -/
def Document.ofString (text : String) : Document :=
  Document.ofSymbols (symbolsOfString text)

/-- How many levels of nesting a reader follows. -/
def levelLimit : Nat := 127

/-- The value of a document. -/
def Document.value? (document : Document) : Option Value :=
  match document.root.value? levelLimit with
  | some value => if document.ended then some value else none
  | none => none

/-- The value that a text spells. -/
def readValue? (text : String) : Option Value :=
  (Document.ofString text).value?

end FeedbackBoard.Json
