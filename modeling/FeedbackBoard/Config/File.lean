import FeedbackBoard.Config.Settings
import FeedbackBoard.Toml.Document

/-!
# Settings files

Settings are read from a table of tables.  Sections for the database and the
interface are required; unknown names are passed over.  A section may also be an
array of its settings in their order, or a time, which has no settings at all.

Main definitions:

- `Settings.ofToml?`: the settings of a table.
- `Settings.ofText?`: the settings of a text, before they are validated.
-/

namespace FeedbackBoard

open Toml (Value)

/-! ## Sections -/

/-- A setting of a section: by its name, or by its place in an array. -/
def settingAt (part : Value) (place : Nat) (name : String) : Option Value :=
  match part with
  | .table entries => entries.lookup name
  | .array items => items[place]?
  | _ => none

/-- Whether a value can be a section. -/
def isSection : Value → Bool
  | .table _ => true
  | .array _ => true
  | .moment => true
  | _ => false

/-- A text that is required. -/
def textSetting? (value : Option Value) : Option String :=
  match value with
  | some (.text s) => some s
  | _ => none

/-- A text, or another where it is missing. -/
def textSettingOr? (other : String) (value : Option Value) : Option String :=
  match value with
  | none => some other
  | some (.text s) => some s
  | some _ => none

/-- The entry of a user. -/
def tokenOfToml? (value : Value) : Option TokenEntry :=
  if isSection value then do
    let digest ← textSetting? (settingAt value 0 "token_sha256")
    let userId ← textSetting? (settingAt value 1 "user_id")
    let name ←
      match settingAt value 2 "name" with
      | none => some none
      | some (.text s) => some (some s)
      | some _ => none
    let role ← textSettingOr? defaultRole (settingAt value 3 "role")
    return { digest, userId, name, role }
  else none

/-- The number of rows of a page. -/
def pageSizeOfToml? (value : Option Value) : Option Int :=
  match value with
  | none => some defaultPageSize
  | some feedback =>
    if isSection feedback then
      match settingAt feedback 0 "page_size" with
      | none => some defaultPageSize
      | some (.integer n) => some n
      | some _ => none
    else none

/-- The entries of all users. -/
def tokensOfToml? (value : Option Value) : Option (List TokenEntry) :=
  match value with
  | none => some []
  | some auth =>
    if isSection auth then
      match settingAt auth 0 "tokens" with
      | none => some []
      | some (.array items) => items.mapM tokenOfToml?
      | some _ => none
    else none

/-! ## Files -/

/-- The settings of a table. -/
def Settings.ofToml? (value : Value) : Option Settings := do
  let database ← value.member? "db"
  let server ← value.member? "server"
  let databasePath ← textSetting? (settingAt database 0 "path")
  let address ← textSetting? (settingAt server 0 "bind")
  let pageSize ← pageSizeOfToml? (value.member? "feedback")
  let tokens ← tokensOfToml? (value.member? "auth")
  return { databasePath, address, pageSize, tokens }

/-- The settings of a text. -/
def Settings.ofText? (text : String) : Option Settings :=
  (Toml.ofText? text).bind ofToml?

end FeedbackBoard
