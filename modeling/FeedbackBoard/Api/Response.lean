import FeedbackBoard.Api.Parameters
import FeedbackBoard.Json.Wire

/-!
# Responses

A request is answered or refused.  A refusal has a cause; its status, its code
and its message follow from the cause, and they are sent as a JSON object.

Main definitions:

- `Refusal`, `Refusal.status`, `Refusal.code`, `Refusal.message`: causes and what is said of them.
- `Response`: what is sent.
- `Response.ofValue`, `Response.ofRefusal`: answers and refusals as responses.
-/

namespace FeedbackBoard

/-! ## Refusals -/

/-- What is wrong with a request. -/
inductive BadRequest
  | notJson
  | tooLong
  | malformedBody
  | misshapenBody (path : List Json.Step) (problem : Json.Problem)
  | query (fault : QueryFault)
  | pageOutOfRange
  | blankKind
deriving DecidableEq, Repr

/-- The message of a bad request. -/
def BadRequest.message : BadRequest → String
  | notJson => "Expected request with `Content-Type: application/json`"
  | tooLong => "Failed to buffer the request body: length limit exceeded"
  | malformedBody => "Failed to parse the request body as JSON"
  | misshapenBody path problem =>
    "Failed to deserialize the JSON body into the target type: " ++
      Json.placedMessage path problem
  | query fault => "Failed to deserialize query string: " ++ fault.message
  | pageOutOfRange => "page out of range"
  | blankKind => "feedback type must not be empty"

/-- Why a request is refused. -/
inductive Refusal
  | noSecret
  | unknownSecret
  | pendingAccount
  | adminOnly
  | noFeedback
  | bad (cause : BadRequest)
  | storeFailed
deriving DecidableEq, Repr

namespace Refusal

/-- The status of a refusal. -/
def status : Refusal → Nat
  | noSecret | unknownSecret | pendingAccount | adminOnly => 401
  | noFeedback => 404
  | bad _ => 400
  | storeFailed => 500

/-- The code of a refusal. -/
def code : Refusal → String
  | noSecret | unknownSecret | pendingAccount | adminOnly => "unauthorized"
  | noFeedback => "not_found"
  | bad _ => "bad_request"
  | storeFailed => "internal"

/-- The message of a refusal; the reason of a failure of the store is not told. -/
def message : Refusal → String
  | noSecret => "missing bearer token"
  | unknownSecret => "invalid token"
  | pendingAccount => "account is pending approval"
  | adminOnly => "admin access required"
  | noFeedback => "feedback not found"
  | bad cause => cause.message
  | storeFailed => "internal server error"

/-- The object that is sent. -/
def value (refusal : Refusal) : Json.Value :=
  .object [("error",
    .object [("code", .string refusal.code), ("message", .string refusal.message)])]

end Refusal

/-! ## Responses -/

/-- What a response carries. -/
inductive Content
  | none
  | json (value : Json.Value)
  | text (text : String)

/-- What is sent. -/
structure Response where
  status : Nat
  content : Content
  /-- Whether only the headers are sent. -/
  headersOnly : Bool
  /-- The methods that the place admits, where they are told. -/
  allow : Option (List String)
  /-- Whether any method and any header may be used from other sites. -/
  preflight : Bool

namespace Response

/-- A response without content. -/
def bare (status : Nat) : Response :=
  ⟨status, .none, false, .none, false⟩

/-- An answer. -/
def ofValue (value : Json.Value) : Response :=
  { bare 200 with content := .json value }

/-- A refusal as a response. -/
def ofRefusal (refusal : Refusal) : Response :=
  { bare refusal.status with content := .json refusal.value }

/-- The media type of the content. -/
def contentType (response : Response) : Option String :=
  match response.content with
  | .none => none
  | .json _ => some "application/json"
  | .text _ => some "text/plain; charset=utf-8"

/-- What is sent after the headers. -/
def body (response : Response) : Content :=
  if response.headersOnly then .none else response.content

/-- The other sites that may use the response: all. -/
def allowedOrigin (_ : Response) : String := "*"

/-- The methods that other sites may use. -/
def allowedMethods (response : Response) : Option String :=
  if response.preflight then some "*" else none

/-- The headers that other sites may use. -/
def allowedHeaders (response : Response) : Option String :=
  if response.preflight then some "*" else none

end Response

end FeedbackBoard
