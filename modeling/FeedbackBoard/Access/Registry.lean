import FeedbackBoard.Access.Digest
import FeedbackBoard.Config.Settings

/-!
# The registry of secrets

The registry finds the user who has a secret.  Digests are compared in lowercase.

Main definitions:

- `Registry`: users by the digests of their secrets.
- `Registry.ofTokens`: the registry of the settings' entries.
- `Registry.authenticate?`: the user who has a secret.
- `Registry.author?`: what is shown about a user.
-/

namespace FeedbackBoard

/-- Users by the digests of their secrets; a digest has one user. -/
structure Registry where
  users : List (String × User)
deriving DecidableEq, Repr

namespace Registry

/-- Sets the user of a digest. -/
def setUser (digest : String) (user : User) : List (String × User) → List (String × User)
  | [] => [(digest, user)]
  | (other, kept) :: rest =>
    if other = digest then (digest, user) :: rest else (other, kept) :: setUser digest user rest

/-- The user of an entry; entries with an unknown role have none. -/
def userOf? (token : TokenEntry) : Option User :=
  (Role.ofName? token.role).map fun role =>
    { id := token.userId, name := token.name.getD token.userId, role }

/-- The text in lowercase. -/
def lowercase (text : String) : String :=
  String.ofList (text.toList.map Char.toLower)

/-- The registry of entries; of several with one digest the last decides. -/
def ofTokens (tokens : List TokenEntry) : Registry where
  users := tokens.foldl (fun users token =>
    match userOf? token with
    | some user => setUser (lowercase token.digest) user users
    | none => users) []

/-- The user who has a secret. -/
def authenticate? (registry : Registry) (secret : String) : Option User :=
  registry.users.lookup (secretDigest secret)

/-- What is shown about the user with this id. -/
def author? (registry : Registry) (userId : String) : Option Author :=
  (registry.users.find? fun entry => entry.2.id == userId).map fun entry => entry.2.author

/-- How many users there are. -/
def size (registry : Registry) : Nat :=
  registry.users.length

end Registry

end FeedbackBoard
