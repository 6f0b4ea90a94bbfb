import FeedbackBoard.Text.Percent

/-!
# Parameters of a page

The query of a target is a list of names and values.  Three names are known, and
each of them may come once; the first fault decides.

Main definitions:

- `ListParameters`: what a query asks for.
- `ListParameters.ofQuery`: reads a query.
- `QueryFault.message`: why it cannot be read.
- `integerOfText`: reads an integer of 64 bits.
-/

namespace FeedbackBoard

/-! ## Integers -/

/-- Why a text is not an integer of 64 bits. -/
inductive IntegerFault
  | empty
  | digit
  | tooLarge
  | tooSmall
deriving DecidableEq, Repr

/-- The message of such a fault. -/
def IntegerFault.message : IntegerFault → String
  | empty => "cannot parse integer from empty string"
  | digit => "invalid digit found in string"
  | tooLarge => "number too large to fit in target type"
  | tooSmall => "number too small to fit in target type"

/-- Reads digits from left to right; the first one that is no digit or exceeds the bound decides. -/
def boundedNatural (bound : Nat) (excess : IntegerFault) : Nat → List Char → Except IntegerFault Nat
  | n, [] => .ok n
  | n, c :: rest =>
    if c.isDigit then
      let next := n * 10 + (c.toNat - '0'.toNat)
      if bound < next then .error excess else boundedNatural bound excess next rest
    else .error .digit

/-- The integer of 64 bits that a text spells; a plus sign is allowed. -/
def integerOfText (chars : List Char) : Except IntegerFault Int :=
  match chars with
  | [] => .error .empty
  | ['+'] => .error .digit
  | ['-'] => .error .digit
  | '-' :: digits => (boundedNatural 0x8000000000000000 .tooSmall 0 digits).map fun n => -(n : Int)
  | '+' :: digits => (boundedNatural 0x7FFFFFFFFFFFFFFF .tooLarge 0 digits).map Int.ofNat
  | digits => (boundedNatural 0x7FFFFFFFFFFFFFFF .tooLarge 0 digits).map Int.ofNat

/-! ## Queries -/

/-- What a query asks for. -/
structure ListParameters where
  orderBy : Option String
  direction : Option String
  page : Option Int
deriving DecidableEq, Repr

/-- Why a query cannot be read. -/
inductive QueryFault
  | duplicate (name : String)
  | page (fault : IntegerFault)
deriving DecidableEq, Repr

/-- The message of a fault in a query. -/
def QueryFault.message : QueryFault → String
  | duplicate name => "duplicate field `" ++ name ++ "`"
  | page fault => "page: " ++ fault.message

namespace ListParameters

/-- A query that asks for nothing in particular. -/
def empty : ListParameters := ⟨none, none, none⟩

/-- Takes a name and its value; unknown names are passed over. -/
def put (parameters : ListParameters) (pair : String × String) :
    Except QueryFault ListParameters :=
  match pair.1 with
  | "order_by" =>
    if parameters.orderBy.isSome then .error (.duplicate "order_by")
    else .ok { parameters with orderBy := some pair.2 }
  | "direction" =>
    if parameters.direction.isSome then .error (.duplicate "direction")
    else .ok { parameters with direction := some pair.2 }
  | "page" =>
    if parameters.page.isSome then .error (.duplicate "page")
    else
      match integerOfText pair.2.toList with
      | .ok n => .ok { parameters with page := some n }
      | .error fault => .error (.page fault)
  | _ => .ok parameters

/-- Takes names and values one after the other. -/
def putAll : ListParameters → List (String × String) → Except QueryFault ListParameters
  | parameters, [] => .ok parameters
  | parameters, pair :: rest =>
    match parameters.put pair with
    | .ok next => putAll next rest
    | .error fault => .error fault

/-- What a query asks for. -/
def ofQuery (query : List Char) : Except QueryFault ListParameters :=
  empty.putAll (formPairs query)

end ListParameters

end FeedbackBoard
