import FlatFileDb.Change
import FlatFileDb.Engine.Job
import FlatFileDb.Relation.Answer
import FlatFileDb.Relation.Join

/-!
# Running queries

A source of a query is a table or a view. A query over one table with a single equality as condition
may narrow the rows read by an exact index; only columns that compare as texts qualify, where the
narrowed rows hold every row that fulfils the condition.
-/

namespace FlatFileDb.Engine

/-- The condition by which the rows of a query may be narrowed: the only one, an equality, of a query
without joins. -/
def narrowing? (query : Query) : Option Condition :=
  match query.joins, query.conditions with
  | [], [condition] => if condition.operator == .equal then some condition else none
  | _, _ => none

/-- The identifiers that an exact index gives for an equality, if one applies. -/
def candidates? (disk : Disk) (database : String) (schema : TableSchema) (condition : Condition) :
    Option (List String) := do
  let name := schema.conditionColumn condition.field
  let column ← schema.column? name
  if column.type.isNumeric || column.type == .bool || Field.isNull condition.value then none
  else if Index.isPresent disk database schema.name name .exact then
    (Index.lookup disk database schema.name name condition.value).toOption
  else none

/-- The rows left after narrowing. -/
def narrow (disk : Disk) (database : String) (schema : TableSchema) (condition : Option Condition)
    (rows : List String) : List String :=
  match condition.bind (candidates? disk database schema) with
  | some ids => rows.filter fun row => ids.contains (Row.id row)
  | none => rows

/-- A table as a relation, its rows narrowed if there is a condition for it. -/
def tableSource (who : Identity) (database name : String) (condition : Option Condition) :
    Action Engine Relation := do
  let schema ← schema database name
  Action.ofExcept (schema.require who.role .read)
  let rows ← readDisk (Table.rows · database name)
  return Relation.ofTable schema (← look (narrow · database schema condition rows))

/-- The result of a view's query as a relation. -/
def viewSource (executing : Executing) (who : Identity) (database name : String) :
    Action Engine Relation := do
  Action.ofExcept (who.requireRole .user)
  let text ← readDisk (View.load · database name)
  match ← Action.ofExcept (Statement.parse text) with
  | .select query => return Relation.ofView name (← executing who (.select query))
  | _ => throw (.viewWithoutQuery name)

/-- A table or a view as a relation. -/
def source (executing : Executing) (who : Identity) (database name : String)
    (condition : Option Condition) : Action Engine Relation := do
  if ← look (hasSchema · database name) then tableSource who database name condition
  else if ← look (View.isPresent · database name) then viewSource executing who database name
  else throw (.unknownTable name)

/-- A relation joined with further sources, from the first to the last. -/
def joinSources (executing : Executing) (who : Identity) (database : String) (relation : Relation) :
    List Join → Action Engine Relation
  | [] => pure relation
  | join :: rest => do
    let right ← source executing who database join.table none
    let relation ← Action.ofExcept (relation.join right join)
    joinSources executing who database relation rest

/-- Runs a query. -/
def select (executing : Executing) (who : Identity) (database : String) (query : Query) :
    Action Engine Outcome := do
  let first ← source executing who database query.table (narrowing? query)
  let relation ← joinSources executing who database first query.joins
  Action.ofExcept (relation.answer query)

/-- Looks for a word in a word index. The rows found are shown as they stand. -/
def search (who : Identity) (database table column word : String) : Action Engine Outcome := do
  let schema ← schema database table
  Action.ofExcept (schema.require who.role .read)
  let _ ← Action.ofExcept (schema.requireColumn column table)
  let ids ← readDisk (Index.search · database table column word)
  let rows ← readDisk (Table.rows · database table)
  return Outcome.ofRows schema.fieldNames
    ((rows.filter fun row => ids.contains (Row.id row)).map Row.fields)

end FlatFileDb.Engine
