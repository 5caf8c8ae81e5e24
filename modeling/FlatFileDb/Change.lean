import FlatFileDb.Condition
import FlatFileDb.Schema.Table

/-!
# Updates and deletions on lists of rows

What an update or a deletion makes of the rows of a table, without touching the table: which rows
match, what they become, and whether the values assigned to unique columns stay unique. Conditions
are tested on the fields as they stand in the row.
-/

namespace FlatFileDb

/-- A value for the column at a position. -/
structure Assignment where
  position : Nat
  column : Column
  value : String
  deriving DecidableEq, Repr

namespace TableSchema

variable (schema : TableSchema)

/-- The column that a condition names, perhaps behind the name of the table. -/
def conditionColumn (field : String) : String :=
  match Text.afterStart? (schema.name ++ ".").toList field.toList with
  | some column => String.ofList column
  | none => field

/-- Whether the fields of a row fulfil a condition; an unknown column is never fulfilled. -/
def fulfils (fields : List String) (condition : Condition) : Bool :=
  match schema.columnIndex? (schema.conditionColumn condition.field) with
  | none => false
  | some position =>
    match fields[position]?, schema.columns[position]? with
    | some field, some column =>
      Condition.compareTyped column.type field condition.operator condition.value
    | _, _ => false

/-- Whether a row fulfils a chain of conditions. -/
def matchesRow (conditions : List Condition) (row : String) : Bool :=
  let fields := Row.fields row
  Id.run (Condition.evaluate (fun condition => pure (schema.fulfils fields condition)) conditions)

/-- The row with values assigned to some of its columns. -/
def assign (assignments : List Assignment) (row : String) : String :=
  Row.ofFields <| assignments.foldl (fun fields a => fields.set a.position a.value)
    (Row.resize schema.columns.length (Row.fields row))

/-- Refuses an assignment after which a unique column would hold its value twice: in two of the rows
assigned to, or in one of them and in one of the others. -/
def checkUnique (matched others : List String) (a : Assignment) : Except Error Unit :=
  if a.column.unique && !Field.isNull a.value && !matched.isEmpty
      && (1 < matched.length
        || others.any fun row => (Row.fields row)[a.position]? == some a.value) then
    .error (.duplicateValue a.value a.column.name)
  else .ok ()

/-- The rows after an update, and the rows changed, each before and after. -/
def update (assignments : List Assignment) (conditions : List Condition) (rows : List String) :
    Except Error (List String × List (String × String)) := do
  let marked := rows.map fun row => (row, schema.matchesRow conditions row)
  let (matched, others) := marked.partition Prod.snd
  assignments.forM (checkUnique (matched.map Prod.fst) (others.map Prod.fst))
  return (
    marked.map fun (row, isMatched) => if isMatched then schema.assign assignments row else row,
    matched.map fun (row, _) => (row, schema.assign assignments row))

/-- The rows after a deletion, and the rows deleted. -/
def delete (conditions : List Condition) (rows : List String) : List String × List String :=
  (rows.partition (schema.matchesRow conditions)).swap

end TableSchema

end FlatFileDb
