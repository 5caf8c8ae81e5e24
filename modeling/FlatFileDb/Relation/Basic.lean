import FlatFileDb.Condition
import FlatFileDb.Outcome
import FlatFileDb.Schema.Table

/-!
# Relations

Rows under a header, the unit that queries work on. A column of the header has the name shown to the
caller, the name qualified by its source, and a type. Every row is as wide as the header: rows of
tables are cut or filled up, and so are those of views.
-/

namespace FlatFileDb

/-- A column of a relation. -/
structure Attribute where
  name : String
  /-- The name with its source in front. -/
  qualified : String
  type : DataType
  deriving DecidableEq, Repr

/-- Rows under a header. -/
structure Relation where
  name : String
  attributes : List Attribute
  rows : List (List String)
  deriving DecidableEq, Repr

namespace Relation

/-- The name of a column behind its source. -/
def qualify (source column : String) : String :=
  source ++ "." ++ column

/-- The rows of a table under its schema. -/
def ofTable (schema : TableSchema) (rows : List String) : Relation where
  name := schema.name
  attributes := schema.columns.map fun column =>
    { name := column.name, qualified := qualify schema.name column.name, type := column.type }
  rows := rows.map fun row => Row.resize schema.columns.length (Row.fields row)

/-- The result of a view's query. Its columns are texts. -/
def ofView (name : String) (outcome : Outcome) : Relation where
  name := name
  attributes := outcome.columns.map fun column =>
    { name := column, qualified := qualify name column, type := .string }
  rows := outcome.rows.map (Row.resize outcome.columns.length)

/-- The header shown to the caller. -/
def header (relation : Relation) : List String :=
  relation.attributes.map Attribute.name

/-- Whether a qualified name ends in the given column. -/
def endsIn (column qualified : String) : Bool :=
  ('.' :: column.toList).isSuffixOf qualified.toList

/-- The position of the column that a name means: the first with this name in the header, else the
first with this qualified name, else, for a name without a point, the first whose qualified name
ends in it. -/
def resolve? (relation : Relation) (name : String) : Option Nat :=
  (relation.attributes.findIdx? fun a => a.name == name)
    <|> (relation.attributes.findIdx? fun a => a.qualified == name)
    <|> (if name.toList.contains '.' then none
      else relation.attributes.findIdx? fun a => endsIn name a.qualified)

/-- The position of the column that a name means, which must mean one. -/
def require (relation : Relation) (name : String) : Except Error Nat :=
  match relation.resolve? name with
  | some index => .ok index
  | none => .error (.unknownColumn name relation.name)

/-- The field of a row at a position of the header. -/
def fieldAt (row : List String) (index : Nat) : String :=
  row[index]?.getD ""

/-- Whether a row fulfils a condition; a name that means no column is never fulfilled. -/
def fulfils (relation : Relation) (row : List String) (condition : Condition) : Bool :=
  match relation.resolve? condition.field with
  | none => false
  | some index =>
    match relation.attributes[index]? with
    | none => false
    | some column =>
      Condition.compareTyped column.type (fieldAt row index) condition.operator condition.value

/-- The rows that fulfil a chain of conditions. -/
def select (relation : Relation) (conditions : List Condition) : Relation :=
  { relation with
    rows := relation.rows.filter fun row =>
      Id.run (Condition.evaluate (fun condition => pure (relation.fulfils row condition))
        conditions) }

end Relation

end FlatFileDb
