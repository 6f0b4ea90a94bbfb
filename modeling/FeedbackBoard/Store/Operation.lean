import FeedbackBoard.Store.Basic

/-!
# Operations as data

An operation of the store and its outcome as data, so that sequences of
operations can be run and compared.

Main definitions:

- `Operation`, `Outcome`: requests to the store and its answers.
- `Store.perform`: one operation.
- `Store.performAll`: a sequence of operations, each with its time and its fresh id.
-/

namespace FeedbackBoard

/-- A request to the store. -/
inductive Operation
  | insert (userId : String) (form : Feedback.Form)
  | restore (row : Feedback)
  | restoreAll (batch : List Feedback)
  | importAll (batch : List Feedback)
  | revise (id : String) (owner : Option String) (form : Feedback.Form)
  | remove (id : String) (owner : Option String)
  | removeUser (user : String)
  | removeAll
  | find (id : String) (owner : Option String)
  | newest
  | newestOf (user : String)
  | stamps
  | ratings
  | standings
  | page (query : PageQuery)

/-- An answer of the store. -/
inductive Outcome
  | failed (error : StoreError)
  | unit
  | row (row : Feedback)
  | rowOrNone (row : Option Feedback)
  | rows (rows : List Feedback)
  | stamps (stamps : List Feedback.Stamp)
  | payloads (payloads : List Feedback.Payload)
  | standings (lines : List Standing)
  | page (page : Page)
  | count (n : Nat)
  | flag (b : Bool)

/-- An answer, or the failure that stands in its place. -/
def Outcome.ofResult {α : Type} (answer : α → Outcome) : Except StoreError α → Outcome
  | .ok a => answer a
  | .error error => .failed error

namespace Store

/-- Performs an operation; an insertion uses the fresh id. -/
def perform (freshId : String) (now : Int64) (operation : Operation) (store : Store) :
    Outcome × Store :=
  match operation with
  | .insert userId form =>
    let (result, store) := store.insert (Feedback.ofForm freshId userId form now)
    (.ofResult .row result, store)
  | .restore row =>
    let (result, store) := store.restore row
    (.ofResult (fun _ => .unit) result, store)
  | .restoreAll batch =>
    let (result, store) := store.restoreAll batch
    (.ofResult .count result, store)
  | .importAll batch =>
    let (result, store) := store.importAll batch
    (.ofResult .count result, store)
  | .revise id owner form =>
    let (result, store) := store.revise id owner form now
    (.ofResult .rowOrNone result, store)
  | .remove id owner =>
    let (result, store) := store.remove id owner
    (.ofResult .flag result, store)
  | .removeUser user =>
    let (result, store) := store.removeUser user
    (.ofResult .flag result, store)
  | .removeAll =>
    let (result, store) := store.removeAll
    (.ofResult .flag result, store)
  | .find id owner => (.ofResult .rowOrNone (store.find id owner), store)
  | .newest => (.ofResult .rows store.newest, store)
  | .newestOf user => (.ofResult .rows (store.newestOf user), store)
  | .stamps => (.ofResult .stamps store.stamps, store)
  | .ratings => (.ofResult .payloads store.ratings, store)
  | .standings => (.ofResult .standings store.standings, store)
  | .page query => (.ofResult .page (store.page query), store)

/-- Performs operations one after the other, each with a fresh id and a time. -/
def performAll : List (String × Int64 × Operation) → Store → List Outcome × Store
  | [], store => ([], store)
  | (freshId, now, operation) :: rest, store =>
    let (outcome, store) := store.perform freshId now operation
    let (outcomes, store) := performAll rest store
    (outcome :: outcomes, store)

end Store

end FeedbackBoard
