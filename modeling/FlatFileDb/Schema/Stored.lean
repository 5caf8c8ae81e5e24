import FlatFileDb.Json.Basic
import FlatFileDb.Number.Integer
import FlatFileDb.Schema.Table

/-!
# The stored form of schemas

How a schema stands in its file, and how it is read back. A type without arguments is a word; a type
with arguments is an object with one member.
-/

namespace FlatFileDb

namespace DataType

/-- The stored form of a type. -/
def toJson : DataType → Json
  | int => .string "Int"
  | float => .string "Float"
  | string => .string "String"
  | text => .string "Text"
  | bool => .string "Bool"
  | date => .string "Date"
  | char length => .object [("Char", .natural length)]
  | enum variants => .object [("Enum", .array (variants.map Json.string))]

/-- The type without arguments that is stored as the given word. -/
def ofStoredWord? (word : String) : Option DataType :=
  [int, float, string, text, bool, date].find? fun type =>
    match type.toJson with
    | .string other => other == word
    | _ => false

/-- Reads a type. -/
def ofJson? : Json → Option DataType
  | .object [("Char", length)] => length.natural?.map char
  | .object [("Enum", variants)] => (variants.list? Json.string?).map enum
  | value => value.word?.bind ofStoredWord?

end DataType

namespace Reference

/-- The stored form of a reference. -/
def toJson (target : Reference) : Json :=
  .object [("table", .string target.table), ("column", .string target.column)]

/-- Reads a reference. -/
def ofJson? (value : Json) : Option Reference := do
  let members ← value.record? ["table", "column"]
  return {
    table := ← (← members.lookup "table").string?
    column := ← (← members.lookup "column").string? }

end Reference

namespace Column

/-- The stored form of a column. -/
def toJson (column : Column) : Json :=
  .object [
    ("name", .string column.name),
    ("data_type", column.type.toJson),
    ("primary_key", .bool column.primaryKey),
    ("unique", .bool column.unique),
    ("not_null", .bool column.notNull),
    ("foreign_key", match column.reference with
      | some target => target.toJson
      | none => .null)]

/-- Reads a column; a missing reference is none. -/
def ofJson? (value : Json) : Option Column := do
  let members ← value.record? ["name", "data_type", "primary_key", "unique", "not_null",
    "foreign_key"]
  return {
    name := ← (← members.lookup "name").string?
    type := ← DataType.ofJson? (← members.lookup "data_type")
    primaryKey := ← (← members.lookup "primary_key").bool?
    unique := ← (← members.lookup "unique").bool?
    notNull := ← (← members.lookup "not_null").bool?
    reference := ← ((members.lookup "foreign_key").getD .null).optional? Reference.ofJson? }

end Column

namespace Permissions

/-- Reads a role. -/
def roleOfJson? (value : Json) : Option Role :=
  value.word?.bind Role.ofName?

/-- The stored form of permissions. -/
def toJson (permissions : Permissions) : Json :=
  .object [
    ("read", .array (permissions.read.map fun role => .string role.name)),
    ("write", .array (permissions.write.map fun role => .string role.name))]

/-- Reads permissions. -/
def ofJson? (value : Json) : Option Permissions := do
  let members ← value.record? ["read", "write"]
  return {
    read := ← (← members.lookup "read").list? roleOfJson?
    write := ← (← members.lookup "write").list? roleOfJson? }

end Permissions

namespace TableSchema

/-- The stored form of a schema. -/
def toJson (schema : TableSchema) : Json :=
  .object [
    ("database", .string schema.database),
    ("name", .string schema.name),
    ("columns", .array (schema.columns.map Column.toJson)),
    ("permissions", schema.permissions.toJson)]

/-- Reads a schema. -/
def ofJson? (value : Json) : Option TableSchema := do
  let members ← value.record? ["database", "name", "columns", "permissions"]
  return {
    database := ← (← members.lookup "database").string?
    name := ← (← members.lookup "name").string?
    columns := ← (← members.lookup "columns").list? Column.ofJson?
    permissions := ← Permissions.ofJson? (← members.lookup "permissions") }

end TableSchema

end FlatFileDb
