import FeedbackBoard.Text.Percent

/-!
# Addresses of databases

The path in the settings is an address: marks of its scheme, a percent-encoded
name, and parameters after a question mark.  The name is then given to the
database, which takes a name that begins with `file:` for a locator with a
percent-encoded name and parameters of its own.

Main definitions:

- `Address`, `Address.ofPath?`: what the path in the settings says.
- `DatabaseRequest`, `DatabaseRequest.ofAddress?`: what the database is asked for.
- `Location`, `DatabaseRequest.location?`: where the database of a request is kept.
-/

namespace FeedbackBoard

/-! ## Addresses -/

/-- What the path in the settings says about a database. -/
structure Address where
  name : String
  inMemory : Bool
  readOnly : Bool
  /-- Whether all connections of the program share one cache. -/
  shared : Bool
  /-- Whether the file is taken for one that never changes. -/
  frozen : Bool
  /-- The way to the files, if it is not the usual one. -/
  driver : Option String
deriving DecidableEq, Repr

/-- The text without any repetition of a word at its beginning. -/
def dropRepeated (word : List Char) : (fuel : Nat) → List Char → List Char
  | 0, text => text
  | fuel + 1, text =>
    if word.isPrefixOf text then dropRepeated word fuel (text.drop word.length) else text

/-- A path without the marks of its scheme. -/
def schemeless (path : String) : List Char :=
  let address := "sqlite:".toList ++ path.toList
  let short := dropRepeated "sqlite://".toList address.length address
  dropRepeated "sqlite:".toList short.length short

namespace Address

/-- The name of a database that only memory holds. -/
def memoryName : String := ":memory:"

/-- The address of a name without parameters; none if its bytes spell no text. -/
def ofName? (name : List Char) : Option Address :=
  if String.ofList name = memoryName then
    some { name := "file:memory", inMemory := true, readOnly := false, shared := true
           frozen := false, driver := none }
  else
    (pathDecoded? name).map fun decoded =>
      { name := decoded, inMemory := false, readOnly := false, shared := false, frozen := false
        driver := none }

/-- The address with a parameter, if the parameter is known. -/
def withParameter? (address : Address) (parameter : String × String) : Option Address :=
  match parameter with
  | ("mode", "ro") => some { address with readOnly := true }
  | ("mode", "rw") | ("mode", "rwc") => some address
  | ("mode", "memory") => some { address with inMemory := true, shared := true }
  | ("cache", "private") => some { address with shared := false }
  | ("cache", "shared") => some { address with shared := true }
  | ("immutable", "true") | ("immutable", "1") => some { address with frozen := true }
  | ("immutable", "false") | ("immutable", "0") => some { address with frozen := false }
  | ("vfs", driver) => some { address with driver := some driver }
  | _ => none

/-- The address in a path; none if its parameters or its bytes are not understood. -/
def ofPath? (path : String) : Option Address :=
  let address := schemeless path
  let parameters := formPairs ((address.dropWhile (· != '?')).drop 1)
  (ofName? (address.takeWhile (· != '?'))).bind fun start =>
    parameters.foldlM withParameter? start

end Address

/-! ## Requests -/

/-- What may be done with a file. -/
inductive Rights
  | read
  | write
  | create
deriving DecidableEq, Repr

/-- The place of rights among each other. -/
def Rights.level : Rights → Nat
  | read => 0
  | write => 1
  | create => 2

/-- What the database is asked for. -/
structure DatabaseRequest where
  name : String
  /-- Whether the name was given by a locator. -/
  located : Bool
  inMemory : Bool
  rights : Rights
  shared : Bool
  frozen : Bool
  /-- Whether no locks are taken. -/
  lockless : Bool
  driver : String
deriving DecidableEq, Repr

namespace DatabaseRequest

/-- The usual way to the files. -/
def usualDriver : String := "unix"

/-- The request of a name that is no locator. -/
def plain (address : Address) : DatabaseRequest where
  name := address.name
  located := false
  inMemory := address.inMemory
  rights := if address.readOnly then .read else .create
  shared := address.shared
  frozen := false
  lockless := false
  driver := usualDriver

/-- A part of a locator; what follows a zero is not seen. -/
def partText (part : List Char) : String :=
  let bytes := percentDecoded (bytesOfChars part)
  String.ofList (lenient (symbolsOfBytes (bytes.takeWhile (· != 0))))

/-- The parameters of a locator; those without a name are passed over. -/
def partPairs (query : List Char) : List (String × String) :=
  (query.splitOn '&').filterMap fun part =>
    let name := partText (part.takeWhile (· != '='))
    if name = "" then none else some (name, partText ((part.dropWhile (· != '=')).drop 1))

/-- The request with other rights; only a database in memory may be given more than it has. -/
def withRights? (request : DatabaseRequest) (rights : Rights) : Option DatabaseRequest :=
  if request.inMemory || rights.level ≤ request.rights.level then
    some { request with inMemory := false, rights }
  else none

/--
The request with a parameter of a locator; parameters that are not known say
nothing.  A database that is moved into memory may be written there.
-/
def withParameter? (request : DatabaseRequest) (parameter : String × String) :
    Option DatabaseRequest :=
  match parameter with
  | ("vfs", driver) => some { request with driver }
  | ("cache", "shared") => some { request with shared := true }
  | ("cache", "private") => some { request with shared := false }
  | ("cache", _) => none
  | ("mode", "ro") => request.withRights? .read
  | ("mode", "rw") => request.withRights? .write
  | ("mode", "rwc") => request.withRights? .create
  | ("mode", "memory") => some { request with inMemory := true, rights := .create }
  | ("mode", _) => none
  | _ => some request

/-- Whether a text says yes: a number that is not zero modulo 256, or a word. -/
def saysYes (text : String) : Bool :=
  let digits := text.toList.takeWhile Char.isDigit
  if digits.isEmpty then
    ["on", "yes", "true"].contains (String.ofList (text.toList.map Char.toLower))
  else
    let n := digits.foldl (fun n c => n * 10 + (c.toNat - '0'.toNat)) 0
    decide (n < 0x80000000) && n % 256 != 0

/-- The request of a locator with this name and this text of parameters. -/
def locate? (address : Address) (name : String) (query : List Char) : Option DatabaseRequest :=
  let parameters := partPairs query
  let frozen := (parameters.lookup "immutable").any saysYes
  let lockless := (parameters.lookup "nolock").any saysYes
  parameters.foldlM withParameter? { plain address with name, located := true, frozen, lockless }

/-- A locator after its mark, without its host, which has to be this one. -/
def withoutHost? (locator : List Char) : Option (List Char) :=
  match locator with
  | '/' :: '/' :: rest =>
    let host := rest.takeWhile (· != '/')
    if host = [] || host = "localhost".toList then some (rest.drop host.length) else none
  | _ => some locator

/-- The mark of a locator. -/
def locatorMark : List Char := "file:".toList

/-- The text before its first zero. -/
def beforeZero (text : String) : String :=
  String.ofList (text.toList.takeWhile (· != '\x00'))

/--
What the database is asked for; none if it refuses the name or a parameter.  An
address that asks for something itself becomes a locator with its name as it is.
-/
def ofAddress? (address : Address) : Option DatabaseRequest :=
  let name := address.name.toList
  if address.frozen || address.driver.isSome then
    some { plain address with
      name := beforeZero address.name
      located := true
      frozen := address.frozen
      driver := (address.driver.map beforeZero).getD usualDriver }
  else if name.contains '\x00' then none
  else if locatorMark.isPrefixOf name then
    match withoutHost? (name.drop locatorMark.length) with
    | none => none
    | some rest =>
      let rest := rest.takeWhile (· != '#')
      locate? address (partText (rest.takeWhile (· != '?'))) ((rest.dropWhile (· != '?')).drop 1)
  else some (plain address)

end DatabaseRequest

/-! ## Locations -/

/-- The file of a database and what may be done with it. -/
structure DatabaseFile where
  path : String
  rights : Rights
  /-- Whether the file is taken for one that never changes. -/
  frozen : Bool
  /-- Whether changes can be collected in a log beside the file, which needs locks. -/
  logs : Bool
deriving DecidableEq, Repr

/-- Where a database is kept. -/
inductive Location
  /-- In memory, as long as the command runs. -/
  | transient
  /-- Where nothing can be kept: every connection has memory of its own, or none may be written. -/
  | scattered
  | file (file : DatabaseFile)
deriving DecidableEq, Repr

namespace DatabaseRequest

/-- The ways to files that can keep a log of changes. -/
def logDrivers : List String := ["unix", "unix-excl"]

/-- The ways to files that cannot. -/
def loglessDrivers : List String := ["unix-none", "unix-dotfile"]

/-- The way to names in memory instead of files. -/
def memoryDriver : String := "memdb"

/-- Whether the memory of a name is one for all connections. -/
def isCommonName (name : String) : Bool :=
  match name.toList with
  | '/' :: _ :: _ => true
  | '\\' :: _ :: _ => true
  | _ => false

/-- Where the database of a request is kept; none if there is no such way to it. -/
def location? (request : DatabaseRequest) : Option Location :=
  let writable := request.rights != .read
  let memory (common : Bool) : Location := if common && writable then .transient else .scattered
  if !(logDrivers ++ loglessDrivers ++ [memoryDriver]).contains request.driver then none
  else if request.name = "" then some .scattered
  else if request.inMemory || request.name = Address.memoryName then
    some (memory (request.located && request.shared))
  else if request.driver = memoryDriver then
    some (memory ((isCommonName request.name || request.shared) && !request.frozen))
  else
    some (.file
      { path := request.name
        rights := request.rights
        frozen := request.frozen
        logs := logDrivers.contains request.driver && !request.lockless })

end DatabaseRequest

end FeedbackBoard
