/-!
# Routes

The places of the interface.  A path names a place exactly; every place admits
some methods, and a place that can be read also admits asking for its headers.

Main definitions:

- `Route`, `Route.ofPath?`: the places and their paths.
- `Route.methods`: the methods that a place admits.
- `Action`, `Route.action?`: what a method does at a place.
-/

namespace FeedbackBoard

/-- A place of the interface. -/
inductive Route
  | health
  | reviews
  | all
  | allIds
  | allExport
  | list
  | user
  | own
  | create
  /-- The row whose id is written like this. -/
  | row (id : List Char)
deriving DecidableEq, Repr

/-- The path that all places but one begin with. -/
def apiPrefix : List Char :=
  "/api/v1/evaluations".toList

/-- The place below the common path. -/
def Route.ofTail? (tail : List Char) : Option Route :=
  if tail = "/reviews".toList then some .reviews
  else if tail = "/feedbacks/all".toList then some .all
  else if tail = "/feedbacks/all/ids".toList then some .allIds
  else if tail = "/feedbacks/all/export".toList then some .allExport
  else if tail = "/feedbacks/list".toList then some .list
  else if tail = "/feedbacks/user".toList then some .user
  else if tail = "/feedbacks".toList then some .own
  else if tail = "/feedback".toList then some .create
  else if "/feedback/".toList.isPrefixOf tail then
    let id := tail.drop "/feedback/".toList.length
    if id = [] ∨ '/' ∈ id then none else some (.row id)
  else none

/-- The place that a path names. -/
def Route.ofPath? (path : List Char) : Option Route :=
  if path = "/health".toList then some .health
  else if apiPrefix.isPrefixOf path then ofTail? (path.drop apiPrefix.length)
  else none

/-! ## Methods -/

/-- What a request does. -/
inductive Action
  | health
  | reviews
  | listAll
  | removeAll
  | listIds
  | exportAll
  | listPage
  | listOwn
  | removeOwn
  | create
  | read (id : List Char)
  | revise (id : List Char)
  | remove (id : List Char)
deriving DecidableEq, Repr

/-- What the methods of a place do; reading comes first where a place can be read. -/
def Route.actions : Route → List (String × Action)
  | health => [("GET", .health)]
  | reviews => [("GET", .reviews)]
  | all => [("GET", .listAll), ("DELETE", .removeAll)]
  | allIds => [("GET", .listIds)]
  | allExport => [("GET", .exportAll)]
  | list => [("GET", .listPage)]
  | user => [("GET", .listOwn)]
  | own => [("DELETE", .removeOwn)]
  | create => [("POST", .create)]
  | row id => [("GET", .read id), ("POST", .revise id), ("DELETE", .remove id)]

/-- What a method does at a place; asking for the headers does what reading does. -/
def Route.action? (route : Route) (method : String) : Option Action :=
  route.actions.lookup (if method = "HEAD" then "GET" else method)

/-- The methods that a place admits. -/
def Route.methods (route : Route) : List String :=
  route.actions.flatMap fun entry =>
    if entry.1 = "GET" then ["GET", "HEAD"] else [entry.1]

end FeedbackBoard
