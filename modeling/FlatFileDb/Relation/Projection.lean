import FlatFileDb.Grouping
import FlatFileDb.Relation.Aggregate
import FlatFileDb.Statement.Command

/-!
# Projection and grouping

From the rows that a query selected to the rows that it shows. With a grouping column there is one
row a group, in the order in which the groups first appear; with aggregates alone all rows are one
group. In a group a plain column shows the value of the first row.
-/

namespace FlatFileDb.Relation

/-- A field with the aggregate that it spells, if it spells one. -/
def readField (field : String) : Except Error (String × Option Aggregate) := do
  return (field, ← Aggregate.ofField? field)

/-- The name of the group that a row with the given value belongs to; missing values are one group. -/
def groupName (value : String) : String :=
  if Field.isNull value then Field.nullText else value

/-- The rows by the value of a column. -/
def groups (relation : Relation) (index : Nat) : List (List (List String)) :=
  (groupBy (fun row => groupName (fieldAt row index)) relation.rows).map Prod.snd

/-- Whether a group fulfils one condition on groups: an aggregate is computed, a plain column is
taken from the first row. -/
def groupFulfils (relation : Relation) (group : List (List String)) (condition : Condition) :
    Except Error Bool := do
  match ← Aggregate.ofField? condition.field with
  | some aggregate =>
    let value ← aggregate.compute relation group
    return Condition.compareRendered value condition.operator condition.value
  | none =>
    match group with
    | [] => return false
    | first :: _ => return relation.fulfils first condition

/-- What a group shows of one field. -/
def groupField (relation : Relation) (group : List (List String)) :
    String × Option Aggregate → Except Error String
  | (_, some aggregate) => aggregate.compute relation group
  | (field, none) => do
    let index ← relation.require field
    return (group.head?.map fun row => fieldAt row index).getD Field.nullText

/-- The row that a group shows, if it fulfils the conditions on groups. -/
def groupRow (relation : Relation) (having : List Condition)
    (fields : List (String × Option Aggregate)) (group : List (List String)) :
    Except Error (Option (List String)) := do
  if ← Condition.evaluate (relation.groupFulfils group) having then
    return some (← fields.mapM (relation.groupField group))
  else return none

/-- The header and the rows that a query shows of the rows selected. -/
def project (relation : Relation) (query : Query) :
    Except Error (List String × List (List String)) := do
  let names := if query.isWildcard then relation.header else query.fields
  let fields ← names.mapM readField
  match query.groupBy with
  | some column =>
    let index ← relation.require column
    let rows ← (relation.groups index).mapM (relation.groupRow query.having fields)
    return (names, rows.filterMap fun row => row)
  | none =>
    if fields.any fun field => field.2.isSome then
      let row ← relation.groupRow query.having fields relation.rows
      return (names, row.toList)
    else if !query.having.isEmpty then throw .havingWithoutGroups
    else
      let indices ← names.mapM relation.require
      return (names, relation.rows.map fun row => indices.map (fieldAt row))

end FlatFileDb.Relation
