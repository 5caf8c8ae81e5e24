import FlatFileDb.Schema.DataType

/-!
# Columns

A column has a name, a type and constraints. A primary key is also unique and refuses missing
values.
-/

namespace FlatFileDb

/-- The column of another table that a column refers to. -/
structure Reference where
  table : String
  column : String
  deriving DecidableEq, Repr

/-- A column of a table. -/
structure Column where
  name : String
  type : DataType
  primaryKey : Bool
  unique : Bool
  notNull : Bool
  reference : Option Reference
  deriving DecidableEq, Repr

/-- A constraint as written behind the type of a column. -/
inductive Constraint where
  | primaryKey
  | unique
  | notNull
  | references (target : Reference)
  deriving DecidableEq, Repr

namespace Column

/-- A column without constraints. -/
def plain (name : String) (type : DataType) : Column :=
  { name, type, primaryKey := false, unique := false, notNull := false, reference := none }

/-- The column with one more constraint; of several references the last holds. -/
def constrain (column : Column) : Constraint → Column
  | .primaryKey => { column with primaryKey := true, unique := true, notNull := true }
  | .unique => { column with unique := true }
  | .notNull => { column with notNull := true }
  | .references target => { column with reference := some target }

end Column

end FlatFileDb
