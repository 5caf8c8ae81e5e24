import FlatFileDb.Engine.State
import FlatFileDb.Outcome
import FlatFileDb.Schema.Definition

/-!
# Defining tables, indexes, views and triggers

No name stands for both a table and a view, an index is on a column that exists, and a trigger is on
a table that exists.
-/

namespace FlatFileDb.Engine

/-- Defines a table and makes its file. -/
def createTable (database table definition : String) : Action Engine Outcome := do
  if ← look (View.isPresent · database table) then throw (.tableExists table)
  let columns ← Action.ofExcept (Definition.columns definition)
  let schema ← createSchema database table columns Permissions.standard
  onDisk (Table.init database table)
  let count := String.ofList (Number.decimalDigits schema.columns.length)
  return .ofMessage s!"Table '{table}' created with {count} columns"

/-- What messages call a kind of index. -/
def indexLabel : IndexKind → String
  | .exact => "Index"
  | .words => "Full-text index"

/-- Builds an index on a column. -/
def createIndex (kind : IndexKind) (database table column : String) : Action Engine Outcome := do
  let schema ← schema database table
  let position ← Action.ofExcept (schema.requireColumn column table)
  let keys ← onDisk (Index.build database table column position kind)
  let label := indexLabel kind
  let count := String.ofList (Number.decimalDigits keys)
  return .ofMessage s!"{label} created on {table}.{column} ({count} keys)"

/-- Stores a view. -/
def createView (database name query : String) : Action Engine Outcome := do
  if ← look (hasSchema · database name) then throw (.tableExists name)
  onDisk (View.save database name query)
  return .ofMessage s!"View '{name}' created"

/-- Stores a trigger. -/
def createTrigger (database : String) (definition : TriggerDefinition) : Action Engine Outcome := do
  let _ ← schema database definition.table
  onDisk (Trigger.save database { definition, created := ← now })
  let name := definition.name
  let event := definition.event.word
  let table := definition.table
  return .ofMessage s!"Trigger '{name}' created for {event} on '{table}'"

end FlatFileDb.Engine
