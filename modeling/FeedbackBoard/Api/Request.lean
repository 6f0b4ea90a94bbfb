import FeedbackBoard.Text.Characters
import FeedbackBoard.Text.MediaType
import FeedbackBoard.Text.Symbol

/-!
# Requests

A request of the interface: a method, a target, headers and a body.  It shows a
secret in one of its headers: a scheme, a space, and the secret.

Main definitions:

- `bearerSecret?`: the secret of a header's value.
- `Request`, `Request.path`, `Request.query`: a request and the parts of its target.
- `Request.header?`: the first header with a name.
- `Request.secret?`: the secret that a request shows.
- `Request.hasJsonBody`: whether the body is announced as JSON.
-/

namespace FeedbackBoard

/-! ## Bearer secrets -/

/-- Whether the byte may stand in a header that is read as a text: a tab or a printable ASCII character. -/
def isHeaderByte (byte : UInt8) : Bool :=
  byte == 9 || (decide (32 ≤ byte.toNat) && decide (byte.toNat ≤ 126))

/-- The characters of a header's value, if it can be read as a text. -/
def headerChars? (bytes : List UInt8) : Option (List Char) :=
  if bytes.all isHeaderByte then some (bytes.map fun byte => Char.ofNat byte.toNat) else none

/-- The scheme that announces a secret. -/
def bearerScheme : List Char :=
  ['b', 'e', 'a', 'r', 'e', 'r']

/-- The secret of a header's value: what follows the scheme and a space, without blanks around it. -/
def bearerSecret? (bytes : List UInt8) : Option String :=
  match headerChars? bytes with
  | none => none
  | some chars =>
    let scheme := chars.takeWhile (· != ' ')
    match chars.dropWhile (· != ' ') with
    | [] => none
    | _ :: rest =>
      let secret := trimBlanks rest
      if scheme.map Char.toLower = bearerScheme ∧ secret ≠ [] then some (String.ofList secret)
      else none

/-! ## Requests -/

/-- A request of the interface. -/
structure Request where
  method : String
  /-- The path and the query, as they are written. -/
  target : String
  /-- The headers, with their names in lowercase. -/
  headers : List (String × List UInt8)
  body : List UInt8

namespace Request

/-- The target without its fragment. -/
def address (request : Request) : List Char :=
  request.target.toList.takeWhile (· != '#')

/-- The path of the target. -/
def path (request : Request) : List Char :=
  request.address.takeWhile (· != '?')

/-- The query of the target; without a question mark it is empty. -/
def query (request : Request) : List Char :=
  (request.address.dropWhile (· != '?')).drop 1

/-- The value of the first header with this name. -/
def header? (request : Request) (name : String) : Option (List UInt8) :=
  request.headers.lookup name

/-- The secret that the request shows. -/
def secret? (request : Request) : Option String :=
  (request.header? "authorization").bind bearerSecret?

/-- Whether the body is announced as JSON. -/
def hasJsonBody (request : Request) : Bool :=
  match (request.header? "content-type").bind headerChars? with
  | some chars => isJsonMediaType chars
  | none => false

end Request

end FeedbackBoard
