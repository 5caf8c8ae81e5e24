import FlatFileDb.Role
import FlatFileDb.Row
import FlatFileDb.Schema.Column

/-!
# Table schemas and the rows they take

A schema names the columns of a table and the roles that may read and write it. A row is checked in
two steps: first its fields against their columns, then those of unique and referring columns against
the stored values. The second step is a list of checks, so that it can be seen apart from the
reading of the stored values.
-/

namespace FlatFileDb

/-- What a statement does with the rows of a table. -/
inductive Access where
  | read
  | write
  deriving DecidableEq, Repr

/-- The word for a kind of access in messages. -/
def Access.word : Access → String
  | read => "read"
  | write => "write"

/-- The roles that may read and write a table. -/
structure Permissions where
  read : List Role
  write : List Role
  deriving DecidableEq, Repr

namespace Permissions

/-- Everybody reads, administrators write. -/
def standard : Permissions where
  read := [.user, .admin, .supermaung]
  write := [.admin, .supermaung]

/-- The roles that may do what is asked. -/
def roles (permissions : Permissions) : Access → List Role
  | .read => permissions.read
  | .write => permissions.write

end Permissions

/-- The schema of a table. -/
structure TableSchema where
  database : String
  name : String
  columns : List Column
  permissions : Permissions
  deriving DecidableEq, Repr

/-- What a field must satisfy among the values stored in a column. -/
inductive StoredCheck where
  /-- The value must not yet be stored in the column of its own table. -/
  | absent (table column value : String)
  /-- The value of a column must be stored in the column it refers to. -/
  | present (value column : String) (target : Reference)
  deriving DecidableEq, Repr

namespace StoredCheck

/-- The table and column whose stored values decide. -/
def source : StoredCheck → String × String
  | absent table column _ => (table, column)
  | present _ _ target => (target.table, target.column)

/-- Decides by the stored values. -/
def decide (stored : List String) : StoredCheck → Except Error Unit
  | absent _ column value =>
    if stored.contains value then .error (.duplicateValue value column) else .ok ()
  | present value column target =>
    if stored.contains value then .ok ()
    else .error (.missingReference value column target.table target.column)

/-- Decides after looking up the stored values. -/
def run {m : Type → Type} [Monad m] [MonadExceptOf Error m]
    (lookup : String → String → m (List String)) (check : StoredCheck) : m Unit := do
  let stored ← lookup check.source.1 check.source.2
  MonadExcept.ofExcept (check.decide stored)

end StoredCheck

namespace TableSchema

variable (schema : TableSchema)

/-- Refuses a role that has no such access. -/
def require (role : Role) (access : Access) : Except Error Unit :=
  if (schema.permissions.roles access).contains role then .ok ()
  else .error (.accessDenied schema.name role.name access.word)

/-- The names of the columns in order. -/
def fieldNames : List String :=
  schema.columns.map Column.name

/-- The position of a column. -/
def columnIndex? (name : String) : Option Nat :=
  schema.columns.findIdx? fun column => column.name == name

/-- A column by its name. -/
def column? (name : String) : Option Column :=
  schema.columns.find? fun column => column.name == name

/-- The position of a column, which must be there. -/
def requireColumn (name table : String) : Except Error Nat :=
  match schema.columnIndex? name with
  | some index => .ok index
  | none => .error (.unknownColumn name table)

end TableSchema

namespace Column

/-- Checks one field against its column alone. -/
def checkField (column : Column) (value : String) : Except Error Unit :=
  if value.toList.contains Row.delimiter then .error (.delimiterInField column.name)
  else if value.toList.any fun c => c == '\n' || c == '\r' then
    .error (.lineBreakInField column.name)
  else if Field.isNull value then
    if column.notNull then .error (.nullRefused column.name) else .ok ()
  else if column.type.accepts value then .ok ()
  else .error (.typeMismatch column.name column.type.render value)

/-- The check of a reference against the stored values; a missing value refers to nothing. -/
def referenceCheck? (column : Column) (value : String) : Option StoredCheck :=
  if Field.isNull value then none else column.reference.map (.present value column.name)

/-- The checks of a field of the given table against the stored values. -/
def storedChecks (table : String) (column : Column) (value : String) : List StoredCheck :=
  if Field.isNull value then []
  else (if column.unique then [.absent table column.name value] else [])
    ++ (column.referenceCheck? value).toList

end Column

namespace TableSchema

variable (schema : TableSchema)

/-- Checks the fields of a row against their columns alone. -/
def checkFields (fields : List String) : Except Error Unit :=
  if fields.length = schema.columns.length then
    (schema.columns.zip fields).forM fun (column, value) => column.checkField value
  else .error (.fieldCount schema.columns.length fields.length)

/-- The checks of a row against the stored values, column by column. -/
def storedChecks (fields : List String) : List StoredCheck :=
  (schema.columns.zip fields).flatMap fun (column, value) => column.storedChecks schema.name value

/-- Checks a row: the fields alone first, then against the stored values. -/
def checkRow {m : Type → Type} [Monad m] [MonadExceptOf Error m]
    (lookup : String → String → m (List String)) (row : String) : m Unit := do
  let fields := Row.fields row
  MonadExcept.ofExcept (schema.checkFields fields)
  (schema.storedChecks fields).forM (StoredCheck.run lookup)

end TableSchema

end FlatFileDb
