import FlatFileDb.Error
import FlatFileDb.Text.Case

/-!
# Roles and identities

The roles from the least to the most privileged, and who is asking: a user with a role and perhaps a
selected database. A session knows one identity or nobody.
-/

namespace FlatFileDb

/-- The roles, from the least to the most privileged. -/
inductive Role where
  | user
  | admin
  | supermaung
  deriving DecidableEq, Repr

namespace Role

/-- The place of a role in the order of privilege. -/
def rank : Role → Nat
  | user => 0
  | admin => 1
  | supermaung => 2

/-- The name of a role. -/
def name : Role → String
  | user => "user"
  | admin => "admin"
  | supermaung => "supermaung"

/-- The role that a stored name names, letter for letter. -/
def ofName? (name : String) : Option Role :=
  [user, admin, supermaung].find? fun role => role.name == name

/-- The role that a word names, in any case. -/
def ofWord (word : String) : Except Error Role :=
  let small := Text.toLower word
  match ofName? small with
  | some role => .ok role
  | none => .error (.unknownRole small)

theorem ofName?_name (role : Role) : ofName? role.name = some role := by
  cases role <;> decide

end Role

/-- Who is asking. -/
structure Identity where
  user : String
  role : Role
  database : Option String
  deriving DecidableEq, Repr

namespace Identity

/-- Refuses an identity whose role is below `least`. -/
def requireRole (who : Identity) (least : Role) : Except Error Unit :=
  if least.rank ≤ who.role.rank then .ok ()
  else .error (.roleTooLow least.name who.role.name)

/-- The selected database; an empty name selects none. -/
def requireDatabase (who : Identity) : Except Error String :=
  match who.database with
  | some database => if database.isEmpty then .error .noDatabaseSelected else .ok database
  | none => .error .noDatabaseSelected

end Identity

/-- The identity of the session, or nobody. -/
abbrev Session := Option Identity

namespace Session

/-- The identity, which must be there. -/
def identity (session : Session) : Except Error Identity :=
  match session with
  | some who => .ok who
  | none => .error .notLoggedIn

/-- Selects a database for the identity. -/
def useDatabase (session : Session) (database : String) : Except Error Session := do
  let who ← session.identity
  return some { who with database := some database }

end Session

end FlatFileDb
