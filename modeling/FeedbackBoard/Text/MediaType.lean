/-!
# Media types

A media type is a type, a slash and a subtype, with parameters after a semicolon.
The last plus sign in a subtype begins a suffix, which says what
syntax the type is written in.

Main definitions:

- `isJsonMediaType`: whether a media type is JSON or is written in JSON.
-/

namespace FeedbackBoard

/-- Whether the character may stand in a name of a media type. -/
def isMediaChar (c : Char) : Bool :=
  c.isAlphanum || "!#$%&'*+-.^_`|~".toList.contains c

/-- Whether the character may stand in a quoted value. -/
def isQuotedMediaChar (c : Char) : Bool :=
  decide (31 < c.toNat) && c.toNat != 127

/-- What follows a quoted value: blanks, then the end or a further parameter. -/
def afterQuotedValue? (chars : List Char) : Option (List Char) :=
  match chars.dropWhile (· == ' ') with
  | [] => some []
  | ';' :: rest => some rest
  | _ => none

/-- What follows the value of a parameter; a quotation mark at the beginning of a quoted value is content. -/
def afterValue? (chars : List Char) : Option (List Char) :=
  match chars with
  | '"' :: first :: rest =>
    if isQuotedMediaChar first then
      match rest.dropWhile fun c => c != '"' && isQuotedMediaChar c with
      | '"' :: rest => afterQuotedValue? rest
      | _ => none
    else none
  | _ =>
    match chars.dropWhile isMediaChar with
    | [] => some []
    | ';' :: rest => if chars.takeWhile isMediaChar = [] then none else some rest
    | _ => none

/-- What follows the first parameter of a list. -/
def afterParameter? (chars : List Char) : Option (List Char) :=
  match chars.dropWhile isMediaChar with
  | '=' :: rest => if chars.takeWhile isMediaChar = [] then none else afterValue? rest
  | _ => none

/-- Whether the characters are a list of parameters. -/
def areParameters : (fuel : Nat) → List Char → Bool
  | 0, _ => false
  | fuel + 1, chars =>
    match chars.dropWhile (· == ' ') with
    | [] => true
    | rest =>
      match afterParameter? rest with
      | some rest => areParameters fuel rest
      | none => false

/-- The subtype without its suffix, and the suffix. -/
def splitSuffix (subtype : List Char) : List Char × Option (List Char) :=
  let suffix := (subtype.reverse.takeWhile (· != '+')).reverse
  let base := subtype.take (subtype.length - suffix.length - 1)
  if suffix.length < subtype.length ∧ base ≠ [] then (base, some suffix) else (subtype, none)

/-- Whether the media type is JSON or is written in JSON, in letters of any case. -/
def isJsonMediaType (chars : List Char) : Bool :=
  let main := chars.takeWhile isMediaChar
  match chars.dropWhile isMediaChar with
  | '/' :: rest =>
    let subtype := rest.takeWhile isMediaChar
    let wellFormed :=
      match rest.dropWhile isMediaChar with
      | [] => true
      | ';' :: parameters =>
        subtype != [] && areParameters (parameters.length + 1) parameters
      | _ => false
    let json := ['j', 's', 'o', 'n']
    let (base, suffix) := splitSuffix (subtype.map Char.toLower)
    main != [] && wellFormed && main.map Char.toLower == "application".toList &&
      (base == json || suffix == some json)
  | _ => false

end FeedbackBoard
