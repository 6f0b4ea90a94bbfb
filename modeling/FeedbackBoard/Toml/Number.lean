import FeedbackBoard.Json.Reader
import FeedbackBoard.Toml.Basic

/-!
# Numbers and times of TOML

An integer fits in 64 bits and may be written with underscores between its
digits, or in hexadecimal, octal or binary digits.  A float has a point or an
exponent.  A time begins with four digits and a hyphen, or with two digits and a
colon.

Main definitions:

- `Toml.readMoment`, `Toml.readFloat`, `Toml.readInteger`: the three kinds.
- `Toml.readNumber`: whichever of them a text begins with.
-/

namespace FeedbackBoard.Toml

/-- What a reader finds: something else, a fault, or an element and what follows it. -/
inductive Found (α : Type)
  | other
  | fault
  | element (a : α) (rest : List Char)

/-! ## Digits -/

/-- Digits with single underscores between them, from the first digit on; none if an underscore stands alone. -/
def readDigits (isDigit : Char → Bool) : List Char → Option (List Char × List Char)
  | '_' :: c :: rest =>
    if isDigit c then (readDigits isDigit rest).map fun (digits, rest) => (c :: digits, rest)
    else none
  | '_' :: [] => none
  | c :: rest =>
    if isDigit c then (readDigits isDigit rest).map fun (digits, rest) => (c :: digits, rest)
    else some ([], c :: rest)
  | [] => some ([], [])

/-- One digit or more, the first without an underscore before it. -/
def readDigits1 (isDigit : Char → Bool) (text : List Char) : Option (List Char × List Char) :=
  match text with
  | c :: rest =>
    if isDigit c then (readDigits isDigit rest).map fun (digits, rest) => (c :: digits, rest)
    else none
  | [] => none

/-- The decimal digits before a point: a leading zero stands alone. -/
def readWhole (text : List Char) : Option (List Char × List Char) :=
  match text with
  | '0' :: rest => some (['0'], rest)
  | _ => readDigits1 Char.isDigit text

/-- A sign, if there is one: whether it is a minus, and what follows it. -/
def readSign (text : List Char) : Bool × List Char :=
  match text with
  | '-' :: rest => (true, rest)
  | '+' :: rest => (false, rest)
  | _ => (false, text)

/-! ## Times -/

/-- So many decimal digits, as a number. -/
def fixedDigits? (count : Nat) (text : List Char) : Option (Nat × List Char) :=
  let digits := text.take count
  if digits.length = count ∧ digits.all Char.isDigit then
    some (Json.naturalOfDigits digits, text.drop count)
  else none

/-- How many days a month has. -/
def monthDays (year month : Nat) : Nat :=
  if month = 2 then
    if year % 4 = 0 ∧ (year % 100 ≠ 0 ∨ year % 400 = 0) then 29 else 28
  else if month = 4 ∨ month = 6 ∨ month = 9 ∨ month = 11 then 30
  else 31

/-- What follows a month and a day. -/
def afterMonthDay? (year : Nat) (text : List Char) : Option (List Char) := do
  let (month, text) ← fixedDigits? 2 text
  match text with
  | '-' :: text =>
    let (day, text) ← fixedDigits? 2 text
    if 1 ≤ month ∧ month ≤ 12 ∧ 1 ≤ day ∧ day ≤ monthDays year month then some text else none
  | _ => none

/-- What follows minutes, seconds and parts of a second. -/
def afterMinute? (text : List Char) : Option (List Char) := do
  let (minute, text) ← fixedDigits? 2 text
  match text with
  | ':' :: text =>
    let (second, text) ← fixedDigits? 2 text
    if 59 < minute ∨ 60 < second then none
    else
      match text with
      | '.' :: rest =>
        let digits := rest.takeWhile Char.isDigit
        if digits.isEmpty then some text else some (rest.drop digits.length)
      | _ => some text
  | _ => none

/-- A time of day: two digits, a colon, and the rest. -/
def readClock (text : List Char) : Found Unit :=
  match fixedDigits? 2 text with
  | some (hour, ':' :: rest) =>
    if 23 < hour then .fault
    else
      match afterMinute? rest with
      | some rest => .element () rest
      | none => .fault
  | _ => .other

/-- What follows a distance from the common time, if there is one. -/
def afterOffset? (text : List Char) : Option (List Char) :=
  match text with
  | 'Z' :: rest => some rest
  | 'z' :: rest => some rest
  | sign :: rest =>
    if sign = '+' ∨ sign = '-' then
      match fixedDigits? 2 rest with
      | some (hour, ':' :: after) =>
        match fixedDigits? 2 after with
        | some (minute, after) => if 23 < hour ∨ 59 < minute then none else some after
        | none => none
      | _ => some text
    else some text
  | [] => some []

/-- A date, a time of day, or both. -/
def readMoment (text : List Char) : Found Unit :=
  match fixedDigits? 4 text with
  | some (year, '-' :: rest) =>
    match afterMonthDay? year rest with
    | none => .fault
    | some rest =>
      match rest with
      | c :: after =>
        if c = 'T' ∨ c = 't' ∨ c = ' ' then
          match readClock after with
          | .element () after =>
            match afterOffset? after with
            | some after => .element () after
            | none => .fault
          | .fault => .fault
          | .other => .element () rest
        else .element () rest
      | [] => .element () []
  | _ => readClock text

/-! ## Floats -/

/-- Whether a decimal is too large for a binary64 number. -/
def overflows (digits : List Char) (exponent : Int) : Bool :=
  let significand := Json.naturalOfDigits digits
  if significand = 0 then false
  else if 0 ≤ exponent then
    decide (400 < exponent) ||
      decide (Binary64.infinityRank ≤ Binary64.ratioRank (significand * powerOfTen exponent.toNat) 1)
  else
    decide (0 < exponent + digits.length) &&
      decide (Binary64.infinityRank ≤ Binary64.ratioRank significand (powerOfTen exponent.natAbs))

/-- An exponent after its letter. -/
def readExponent (text : List Char) : Option (Int × List Char) :=
  let (negative, rest) := readSign text
  (readDigits1 Char.isDigit rest).map fun (digits, rest) =>
    let n := Json.naturalOfDigits digits
    (if negative then -(n : Int) else n, rest)

/-- Ends a float; a positive one that is too large is a fault. -/
def finishFloat (negative : Bool) (digits : List Char) (exponent : Int) (rest : List Char) :
    Found Value :=
  if !negative && overflows digits exponent then .fault else .element .float rest

/-- A float, which has a point or an exponent, or is a word. -/
def readFloat (text : List Char) : Found Value :=
  let (negative, unsigned) := readSign text
  match unsigned with
  | 'i' :: 'n' :: 'f' :: rest => .element .float rest
  | 'n' :: 'a' :: 'n' :: rest => .element .float rest
  | _ =>
    match readWhole unsigned with
    | none => .other
    | some (whole, rest) =>
      let withExponent (digits : List Char) (shift : Int) (after : List Char) : Found Value :=
        match readExponent after with
        | some (exponent, rest) => finishFloat negative digits (exponent - shift) rest
        | none => .fault
      match rest with
      | 'e' :: after => withExponent whole 0 after
      | 'E' :: after => withExponent whole 0 after
      | '.' :: after =>
        match readDigits1 Char.isDigit after with
        | none => .fault
        | some (fraction, rest) =>
          match rest with
          | 'e' :: after => withExponent (whole ++ fraction) fraction.length after
          | 'E' :: after => withExponent (whole ++ fraction) fraction.length after
          | _ => finishFloat negative (whole ++ fraction) (-(fraction.length : Int)) rest
      | _ => .other

/-! ## Integers -/

/-- Digits of a base as an integer, if it fits in 64 bits. -/
def integerOf (base : Nat) (negative : Bool) (digits : List Char) : Option Int :=
  let magnitude := digits.foldl (fun n c => n * base + (Json.hexValue? c).getD 0) 0
  let n : Int := if negative then -(magnitude : Int) else magnitude
  if -0x8000000000000000 ≤ n ∧ n < 0x8000000000000000 then some n else none

/-- An integer in digits of a base. -/
def readBased (base : Nat) (isDigit : Char → Bool) (text : List Char) :
    Option (Value × List Char) := do
  let (digits, rest) ← readDigits1 isDigit text
  let n ← integerOf base false digits
  return (.integer n, rest)

/-- An integer. -/
def readInteger (text : List Char) : Option (Value × List Char) :=
  match text with
  | '0' :: 'x' :: rest => readBased 16 (fun c => (Json.hexValue? c).isSome) rest
  | '0' :: 'o' :: rest => readBased 8 (fun c => '0' ≤ c && c ≤ '7') rest
  | '0' :: 'b' :: rest => readBased 2 (fun c => c == '0' || c == '1') rest
  | _ => do
    let (negative, rest) := readSign text
    let (digits, rest) ← readWhole rest
    let n ← integerOf 10 negative digits
    return (.integer n, rest)

/-- A time, a float or an integer. -/
def readNumber (text : List Char) : Option (Value × List Char) :=
  match readMoment text with
  | .element () rest => some (.moment, rest)
  | .fault => none
  | .other =>
    match readFloat text with
    | .element value rest => some (value, rest)
    | .fault => none
    | .other => readInteger text

end FeedbackBoard.Toml
