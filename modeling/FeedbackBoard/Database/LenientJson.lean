import FeedbackBoard.Database.JsonTree

/-!
# Lenient JSON

The database also reads texts that are JSON only in a wider sense: comments and
any white space between the parts, a comma before a closing bracket, names as
keys, texts in single quotes, hexadecimal integers, signs and bare points of
numbers, and names for infinite and missing numbers.

Main definitions:

- `LenientJson.read?`: the tree of a text.
- `JsonTree.ofText?`: the tree of a stored text, strict or lenient.
-/

namespace FeedbackBoard.LenientJson

/-! ## Space -/

/-- White space outside ASCII that may stand between the parts of a text. -/
def wideSpaces : List Nat :=
  [0xA0, 0x1680, 0x2028, 0x2029, 0x202F, 0x205F, 0x3000, 0xFEFF]

/-- Whether the character may stand between the parts of a text. -/
def isSpace (c : Char) : Bool :=
  let n := c.toNat
  (decide (0x09 ≤ n) && decide (n ≤ 0x0D)) || n == 0x20 ||
    (decide (0x2000 ≤ n) && decide (n ≤ 0x200A)) || wideSpaces.contains n

/-- Whether the character ends a line comment. -/
def endsLine (c : Char) : Bool :=
  c == '\n' || c == '\r' || c.toNat == 0x2028 || c.toNat == 0x2029

/-- What follows a block comment, if it is closed. -/
def closeComment? : List Char → Option (List Char)
  | [] => none
  | '*' :: '/' :: rest => some rest
  | _ :: rest => closeComment? rest

/-- The text without the space and the comments at its beginning. -/
def skipSpace : (fuel : Nat) → List Char → List Char
  | 0, text => text
  | fuel + 1, text =>
    match text.dropWhile isSpace with
    | '/' :: '*' :: rest =>
      match closeComment? rest with
      | some rest => skipSpace fuel rest
      | none => '/' :: '*' :: rest
    | '/' :: '/' :: rest => skipSpace fuel ((rest.dropWhile fun c => !endsLine c).drop 1)
    | rest => rest

/-! ## Scalars -/

/-- Whether the character may begin a name. -/
def beginsName (c : Char) : Bool :=
  c.isAlpha || c == '_' || c == '$' || decide (0x80 ≤ c.toNat)

/-- Whether the character may continue a name. -/
def continuesName (c : Char) : Bool :=
  (beginsName c || c.isDigit) && !isSpace c

/-- Whether a word may end before this text. -/
def wordEnds : List Char → Bool
  | c :: _ => !c.isAlphanum
  | [] => true

/-- The words that stand for values, in letters of any case. -/
def words : List (List Char × JsonTree) :=
  let infinite := JsonTree.scalar (some (.real false Binary64.infinityRank)) ['9', 'e', '9', '9', '9']
  let missing := JsonTree.scalar (some .null) ['n', 'u', 'l', 'l']
  [(['i', 'n', 'f'], infinite), (['i', 'n', 'f', 'i', 'n', 'i', 't', 'y'], infinite),
   (['n', 'a', 'n'], missing), (['q', 'n', 'a', 'n'], missing), (['s', 'n', 'a', 'n'], missing)]

/-- The word at the beginning of a text, and what follows it. -/
def readWord (text : List Char) : Option (JsonTree × List Char) :=
  let literal (word : List Char) (tree : JsonTree) :=
    if word.isPrefixOf text && wordEnds (text.drop word.length) then
      some (tree, text.drop word.length)
    else none
  let folded := text.map Char.toLower
  let named := words.findSome? fun (word, tree) =>
    if word.isPrefixOf folded && wordEnds (text.drop word.length) then
      some (tree, text.drop word.length)
    else none
  (literal ['t', 'r', 'u', 'e'] (.ofBool true)).or <|
    (literal ['f', 'a', 'l', 's', 'e'] (.ofBool false)).or <|
      (literal ['n', 'u', 'l', 'l'] (.scalar (some .null) ['n', 'u', 'l', 'l'])).or named

/-- A hexadecimal integer: a word of 64 bits, read with a sign.  Longer ones have no value. -/
def hexCell? (negative : Bool) (magnitude : Nat) : Option Cell :=
  if magnitude < 0x10000000000000000 then
    let word := Int64.ofNat magnitude
    some (.integer (if negative then -word else word).toInt)
  else none

/-- The number at the beginning of a text after its sign, and what follows it. -/
def readMagnitude (negative : Bool) (text : List Char) : Option (JsonTree × List Char) :=
  let sign := if negative then ['-'] else []
  let hexadecimal (rest : List Char) :=
    let digits := rest.takeWhile fun c => (Json.hexValue? c).isSome
    if digits.isEmpty then none
    else
      let magnitude := digits.foldl (fun n c => n * 16 + (Json.hexValue? c).getD 0) 0
      let spelling :=
        if magnitude < 0x10000000000000000 then decimalDigits magnitude else ['9', '.', '0', 'e', '9', '9', '9']
      some (JsonTree.scalar (hexCell? negative magnitude) (sign ++ spelling), rest.drop digits.length)
  let decimal : Option (JsonTree × List Char) :=
    let whole := text.takeWhile Char.isDigit
    let rest := text.drop whole.length
    let leadingZero := whole.head? == some '0' && decide (1 < whole.length)
    let (fraction, rest) :=
      match rest with
      | '.' :: after =>
        let digits := after.takeWhile Char.isDigit
        (some digits, after.drop digits.length)
      | _ => (none, rest)
    if leadingZero || (whole.isEmpty && (fraction.getD []).isEmpty) then none
    else
      let finish (exponent : Option Json.ExponentPart) (rest : List Char) :=
        let numeral : Json.Numeral := { negative, whole, fraction, exponent }
        let written : Json.Numeral :=
          { negative
            whole := if whole.isEmpty then ['0'] else whole
            fraction := fraction.map fun digits => if digits.isEmpty then ['0'] else digits
            exponent }
        some (JsonTree.scalar (some (Cell.ofNumeral numeral)) written.chars, rest)
      let withExponent (mark : List Char) (after : List Char) :=
        let digits := after.takeWhile Char.isDigit
        if digits.isEmpty then none
        else finish (some ⟨mark, digits⟩) (after.drop digits.length)
      match rest with
      | '.' :: _ => none
      | e :: sign :: after =>
        if e = 'e' ∨ e = 'E' then
          if sign = '+' ∨ sign = '-' then withExponent [e, sign] after
          else withExponent [e] (sign :: after)
        else finish none rest
      | [e] => if e = 'e' ∨ e = 'E' then none else finish none rest
      | [] => finish none rest
  match text with
  | '0' :: 'x' :: rest => hexadecimal rest
  | '0' :: 'X' :: rest => hexadecimal rest
  | _ => decimal

/-- The number at the beginning of a text, and what follows it. -/
def readNumber (text : List Char) : Option (JsonTree × List Char) :=
  let signed (negative : Bool) (rest : List Char) :=
    match (rest.take 3).map Char.toLower with
    | ['i', 'n', 'f'] =>
      let after := rest.drop 3
      let after :=
        if (after.take 5).map Char.toLower = ['i', 'n', 'i', 't', 'y'] then after.drop 5 else after
      let sign := if negative then ['-'] else []
      some (JsonTree.scalar (some (.real negative Binary64.infinityRank))
        (sign ++ ['9', 'e', '9', '9', '9']), after)
    | _ => readMagnitude negative rest
  match text with
  | '-' :: rest => signed true rest
  | '+' :: rest => signed false rest
  | _ => readMagnitude false text

/-! ## Strings -/

/-- A part of a string: the code points that it stands for, its spelling in a container, and the text after it. -/
structure StringPart where
  meaning : CodePoints
  spelling : List Char
  rest : List Char

/-- Four hexadecimal digits after a backslash and `u`; half of a pair may stand alone. -/
def readUnit (text : List Char) : Option StringPart :=
  match text with
  | a :: b :: c :: d :: rest =>
    let spelling := ['\\', 'u', a, b, c, d]
    match Json.hexUnit? (some a) (some b) (some c) (some d) with
    | none => none
    | some unit =>
      if 0xD800 ≤ unit ∧ unit < 0xE000 then
        let low : Option (Nat × List Char × List Char) :=
          match rest with
          | '\\' :: 'u' :: e :: f :: g :: h :: after =>
            (Json.hexUnit? (some e) (some f) (some g) (some h)).map (·, ['\\', 'u', e, f, g, h], after)
          | _ => none
        match low with
        | some (second, more, after) =>
          if unit < 0xDC00 ∧ 0xDC00 ≤ second ∧ second < 0xE000 then
            some ⟨[0x10000 + (unit - 0xD800) * 0x400 + (second - 0xDC00)], spelling ++ more, after⟩
          else some ⟨[unit], spelling, rest⟩
        | none => some ⟨[unit], spelling, rest⟩
      else some ⟨[unit], spelling, rest⟩
  | _ => none

/-- What a backslash before the end of a line stands for: nothing, but a zero at the end of a string. -/
def joinedLine (quote : Char) (rest : List Char) : StringPart :=
  ⟨if rest.head? = some quote then [0] else [], [], rest⟩

/-- What follows a backslash in a string that this quote ends. -/
def readEscape (quote : Char) (text : List Char) : Option StringPart :=
  match text with
  | 'u' :: rest => readUnit rest
  | 'x' :: a :: b :: rest =>
    match Json.hexValue? a, Json.hexValue? b with
    | some high, some low =>
      some ⟨[high * 16 + low], ['\\', 'u', '0', '0', a, b], rest⟩
    | _, _ => none
  | '\r' :: '\n' :: rest => some (joinedLine quote rest)
  | '0' :: rest => some ⟨[0], ['\\', 'u', '0', '0', '0', '0'], rest⟩
  | 'v' :: rest => some ⟨[0x0B], ['\\', 'u', '0', '0', '0', '9'], rest⟩
  | '\'' :: rest => some ⟨['\''.toNat], ['\''], rest⟩
  | c :: rest =>
    if endsLine c then some (joinedLine quote rest)
    else (Json.simpleEscape? (some c)).map fun meaning => ⟨[meaning.toNat], ['\\', c], rest⟩
  | [] => none

/-- The string in quotes whose opening quote has been read; meaning and spelling so far are latest first. -/
def readQuoted (quote : Char) : (fuel : Nat) → CodePoints → (spelling : List Char) → List Char →
    Option (CodePoints × List Char × List Char)
  | 0, _, _, _ => none
  | fuel + 1, meaning, spelling, text =>
    match text with
    | [] => none
    | '\\' :: rest =>
      match readEscape quote rest with
      | some part =>
        readQuoted quote fuel (part.meaning.reverse ++ meaning) (part.spelling.reverse ++ spelling)
          part.rest
      | none => none
    | c :: rest =>
      if c = quote then
        some (meaning.reverse, '"' :: spelling.reverse ++ ['"'], rest)
      else readQuoted quote fuel (c.toNat :: meaning) ((Json.escapedChar c).reverse ++ spelling) rest

/-- The characters at the beginning of a text that continue a name. -/
def readName : (fuel : Nat) → List Char → List Char × List Char
  | 0, text => ([], text)
  | fuel + 1, text =>
    match text with
    | '\\' :: 'u' :: rest =>
      if (readUnit rest).isSome then
        let (more, rest) := readName fuel ('u' :: rest)
        ('\\' :: more, rest)
      else ([], text)
    | c :: rest =>
      if continuesName c then
        let (more, rest) := readName fuel rest
        (c :: more, rest)
      else ([], text)
    | [] => ([], [])

/-- The text that the characters of a name stand for. -/
def nameMeaning : (fuel : Nat) → List Char → CodePoints
  | 0, _ => []
  | fuel + 1, name =>
    match name with
    | '\\' :: 'u' :: rest =>
      match readUnit rest with
      | some part => part.meaning ++ nameMeaning fuel part.rest
      | none => []
    | c :: rest => c.toNat :: nameMeaning fuel rest
    | [] => []

/-! ## Texts -/

/-- The key at the beginning of a text, its spelling, and what follows it: a string or a name. -/
def readKey (fuel : Nat) (text : List Char) : Option (CodePoints × List Char × List Char) :=
  match text with
  | '"' :: rest => readQuoted '"' fuel [] [] rest
  | '\'' :: rest => readQuoted '\'' fuel [] [] rest
  | c :: _ =>
    if (readWord text).isSome || !(beginsName c || c == '\\') then none
    else
      let (name, rest) := readName fuel text
      if name.isEmpty then none
      else some (nameMeaning fuel name, '"' :: name ++ ['"'], rest)
  | [] => none

mutual

/-- The tree at the beginning of a text, nested at most `levels` levels, and what follows it. -/
def readTree : (fuel levels : Nat) → List Char → Option (JsonTree × List Char)
  | 0, _, _ => none
  | fuel + 1, levels, text =>
    match skipSpace text.length text with
    | '"' :: rest =>
      (readQuoted '"' (rest.length + 1) [] [] rest).map fun (s, spelling, rest) =>
        (.scalar (some (.text s)) spelling, rest)
    | '\'' :: rest =>
      (readQuoted '\'' (rest.length + 1) [] [] rest).map fun (s, spelling, rest) =>
        (.scalar (some (.text s)) spelling, rest)
    | '[' :: rest =>
      match levels with
      | 0 => none
      | levels + 1 => readItems fuel levels [] rest
    | '\x7b' :: rest =>
      match levels with
      | 0 => none
      | levels + 1 => readMembers fuel levels [] rest
    | rest => (readWord rest).or (readNumber rest)

/-- The rest of an array; the items before it are given, latest first. -/
def readItems : (fuel levels : Nat) → List JsonTree → List Char → Option (JsonTree × List Char)
  | 0, _, _, _ => none
  | fuel + 1, levels, items, text =>
    match skipSpace text.length text with
    | ']' :: rest => some (.array items.reverse, rest)
    | text =>
      match readTree fuel levels text with
      | none => none
      | some (item, rest) =>
        match skipSpace rest.length rest with
        | ',' :: rest => readItems fuel levels (item :: items) rest
        | ']' :: rest => some (.array (item :: items).reverse, rest)
        | _ => none

/-- The rest of an object; the members before it are given, latest first. -/
def readMembers : (fuel levels : Nat) → List (CodePoints × List Char × JsonTree) → List Char →
    Option (JsonTree × List Char)
  | 0, _, _, _ => none
  | fuel + 1, levels, members, text =>
    match skipSpace text.length text with
    | '\x7d' :: rest => some (.object members.reverse, rest)
    | text =>
      match readKey (text.length + 1) text with
      | none => none
      | some (key, spelling, rest) =>
        match skipSpace rest.length rest with
        | ':' :: rest =>
          match readTree fuel levels rest with
          | none => none
          | some (item, rest) =>
            let entry := (key, spelling, item)
            match skipSpace rest.length rest with
            | ',' :: rest => readMembers fuel levels (entry :: members) rest
            | '\x7d' :: rest => some (.object (entry :: members).reverse, rest)
            | _ => none
        | _ => none

end

/-- The tree of a text; a character with the code zero ends the text. -/
def read? (text : String) : Option JsonTree :=
  let chars := text.toList.takeWhile fun c => c != '\x00'
  match readTree (2 * chars.length + 2) JsonTree.levelLimit chars with
  | some (tree, rest) => if (skipSpace rest.length rest).isEmpty then some tree else none
  | none => none

end FeedbackBoard.LenientJson

namespace FeedbackBoard

/--
The tree of a stored text, if it is JSON at least in the wider sense.  A text
that is written as its tree is needs no lenient reading.
-/
def JsonTree.ofText? (text : String) : Option JsonTree :=
  match JsonTree.ofDocument (Json.Document.ofString text) with
  | some tree => if tree.chars = text.toList then some tree else LenientJson.read? text
  | none => LenientJson.read? text

end FeedbackBoard
