import FeedbackBoard.Json.Reader
import FeedbackBoard.Text.Characters

/-!
# Faults of a document

A text is not a value of the wanted type either because it is not JSON or
because it has the wrong shape.  A problem of shape is found at some place, and
its message names what was found and what was expected.

Main definitions:

- `Json.Problem`: what can be wrong with a shape, with its message.
- `Json.Step`: one step from a document into a part of it.
- `Json.Fault`: a malformed text, or a problem and its place.
- `Json.mismatch`: the fault of a document that has another type.
-/

namespace FeedbackBoard.Json

/-- What is wrong with the shape of a document. -/
inductive Problem
  | missingField (name : String)
  | duplicateField (name : String)
  | wrongType (found expected : String)
  | outOfRange (value : Int) (expected : String)
  | wrongLength (found : Nat) (record : String) (fields : Nat)
deriving DecidableEq, Repr

/-- A text as a part of a message, marked as code. -/
def marked (text : String) : String :=
  "`" ++ text ++ "`"

/-- The message of a problem. -/
def Problem.message : Problem → String
  | .missingField name => "missing field " ++ marked name
  | .duplicateField name => "duplicate field " ++ marked name
  | .wrongType found expected => "invalid type: " ++ found ++ ", expected " ++ expected
  | .outOfRange value expected =>
    "invalid value: integer " ++ marked (String.ofList (integerText value)) ++
      ", expected " ++ expected
  | .wrongLength found record fields =>
    "invalid length " ++ String.ofList (decimalDigits found) ++ ", expected struct " ++ record ++
      " with " ++ String.ofList (decimalDigits fields) ++ " elements"

/-- A step from a document into one of its parts. -/
inductive Step
  | field (name : String)
  | item (index : Nat)
deriving DecidableEq, Repr

/-- Why a text is not a value of the wanted type. -/
inductive Fault
  | malformed
  | misshapen (path : List Step) (problem : Problem)
deriving DecidableEq, Repr

/-- A problem at the place that is being read. -/
def Fault.here (problem : Problem) : Fault :=
  .misshapen [] problem

/-- The fault as seen from the document that holds the part. -/
def Fault.under (step : Step) : Fault → Fault
  | .malformed => .malformed
  | .misshapen path problem => .misshapen (step :: path) problem

/-- The characters of a path: names are joined by points, positions stand in brackets. -/
def pathText : List Step → String
  | [] => ""
  | .field name :: rest => name ++ pathTail rest
  | .item index :: rest => "[" ++ String.ofList (decimalDigits index) ++ "]" ++ pathTail rest
where
  /-- The characters of a path after its first step. -/
  pathTail : List Step → String
    | [] => ""
    | .field name :: rest => "." ++ name ++ pathTail rest
    | .item index :: rest => "[" ++ String.ofList (decimalDigits index) ++ "]" ++ pathTail rest

/-- The message of a problem with its place in front, unless it concerns the whole document. -/
def placedMessage (path : List Step) (problem : Problem) : String :=
  if path.isEmpty then problem.message else pathText path ++ ": " ++ problem.message

/-! ## Mismatches -/

/-- What a document is called in a message; none if it is not spelled correctly. -/
def Node.description? : Node → Option String
  | .null => some "null"
  | .bool b => some ("boolean " ++ marked (if b then "true" else "false"))
  | .number numeral =>
    numeral.value?.map fun
      | .integer n _ _ => "integer " ++ marked (String.ofList (integerText n))
      | .double x => "floating point " ++ marked (String.ofList (doubleText x))
  | .string text => text.map fun text => "string " ++ quoted text
  | .array _ _ => some "sequence"
  | .object _ _ => some "map"
  | .broken => none

/-- The fault of a document where something else was expected. -/
def mismatch (node : Node) (expected : String) : Fault :=
  match node.description? with
  | some found => .here (.wrongType found expected)
  | none => .malformed

end FeedbackBoard.Json
