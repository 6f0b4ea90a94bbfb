import FeedbackBoard.Access.Role

/-!
# Settings

The settings of an installation: where the rows are kept, where the interface
listens, how long a page is, and whose secrets are accepted.

Main definitions:

- `TokenEntry`, `Settings`: the settings.
- `Settings.validate`: whether they can be used.
- `SettingsError.message`: why they cannot.
-/

namespace FeedbackBoard

/-- A secret that is accepted, by its digest, and the user who has it. -/
structure TokenEntry where
  digest : String
  userId : String
  name : Option String
  role : String
deriving DecidableEq, Repr

/-- The settings of an installation. -/
structure Settings where
  databasePath : String
  /-- The address that the interface listens on. -/
  address : String
  pageSize : Int
  tokens : List TokenEntry
deriving DecidableEq, Repr

/-- The number of rows of a page where nothing else is set. -/
def defaultPageSize : Int := 30

/-- The role of a user where nothing else is set. -/
def defaultRole : String := "user"

/-- Settings without any user. -/
def Settings.minimal : Settings where
  databasePath := "./data/evalboard.sqlite"
  address := "127.0.0.1:8080"
  pageSize := defaultPageSize
  tokens := []

/-! ## Validation -/

/-- Why settings cannot be used. -/
inductive SettingsError
  | pageSize
  | digest (userId : String)
  | unknownRole (role userId : String)
  | duplicateUser (userId : String)
deriving DecidableEq, Repr

/-- The message of an error in the settings. -/
def SettingsError.message : SettingsError → String
  | .pageSize => "feedback.page_size must be >= 1"
  | .digest userId =>
    "auth.tokens: token_sha256 for user '" ++ userId ++ "' must be 64 hex characters"
  | .unknownRole role userId =>
    "Unknown role '" ++ role ++ "' for user '" ++ userId ++
      "'. Must be admin, user, or pending."
  | .duplicateUser userId => "auth.tokens: duplicate user_id '" ++ userId ++ "'"

/-- Whether the character is a hexadecimal digit. -/
def isHexDigit (c : Char) : Bool :=
  c.isDigit || ('a' ≤ c && c ≤ 'f') || ('A' ≤ c && c ≤ 'F')

/-- Whether the text can be a digest: 64 hexadecimal digits. -/
def isDigest (text : String) : Bool :=
  text.toList.length == 64 && text.toList.all isHexDigit

/-- Checks the entries in their order, given the users of those before them. -/
def validateTokens : (seen : List String) → List TokenEntry → Except SettingsError Unit
  | _, [] => .ok ()
  | seen, token :: rest =>
    if !isDigest token.digest then .error (.digest token.userId)
    else if (Role.ofName? token.role).isNone then .error (.unknownRole token.role token.userId)
    else if seen.contains token.userId then .error (.duplicateUser token.userId)
    else validateTokens (token.userId :: seen) rest

/-- Whether the settings can be used. -/
def Settings.validate (settings : Settings) : Except SettingsError Unit :=
  if settings.pageSize < 1 then .error .pageSize else validateTokens [] settings.tokens

end FeedbackBoard
