import FeedbackBoard.Feedback.Basic

/-!
# Roles and users

A user's role decides what the user may do: pending users nothing, ordinary
users see and change their own rows, administrators those of everybody.

Main definitions:

- `Role`, `Role.name`, `Role.ofName?`: roles and their names.
- `User`: someone who has shown a secret.
- `User.scope`: whose rows a user may reach.
-/

namespace FeedbackBoard

/-- What a user may do. -/
inductive Role
  | admin
  | user
  | pending
deriving DecidableEq, Repr

/-- The name of a role. -/
def Role.name : Role → String
  | admin => "admin"
  | user => "user"
  | pending => "pending"

/-- The role with this name. -/
def Role.ofName? (name : String) : Option Role :=
  match name with
  | "admin" => some .admin
  | "user" => some .user
  | "pending" => some .pending
  | _ => none

/-- Someone who has shown a secret. -/
structure User where
  id : String
  name : String
  role : Role
deriving DecidableEq, Repr

namespace User

/-- Whether the user administrates the installation. -/
def isAdmin (user : User) : Bool :=
  user.role == .admin

/-- Whether the account has been approved. -/
def isVerified (user : User) : Bool :=
  user.role == .admin || user.role == .user

/-- The owner whose rows the user may reach; administrators reach all rows. -/
def scope (user : User) : Option String :=
  if user.isAdmin then none else some user.id

/-- What is shown about the user. -/
def author (user : User) : Author where
  id := user.id
  name := user.name
  role := user.role.name

end User

end FeedbackBoard
