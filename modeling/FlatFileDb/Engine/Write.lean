import FlatFileDb.Change
import FlatFileDb.Engine.Job
import FlatFileDb.Engine.Transaction

/-!
# Changing rows

Insertions, updates and deletions. Everything is checked before anything is changed. In a transaction
the changes are buffered, one entry a row; outside of one they are made and the indexes patched, and
the triggers on the change are due.
-/

namespace FlatFileDb.Engine

/-- What a command did: its outcome, and the change of rows on which triggers are due. -/
structure Effect where
  outcome : Outcome
  firing : Option Firing
  deriving DecidableEq, Repr

/-- The effect of a command on which no triggers are due. -/
def Effect.ofOutcome (outcome : Outcome) : Effect :=
  { outcome, firing := none }

/-- The effect that is a message alone. -/
def Effect.ofMessage (message : String) : Effect :=
  ofOutcome (.ofMessage message)

/-- The decimal text of a count. -/
def countText (n : Nat) : String :=
  String.ofList (Number.decimalDigits n)

/-- The schema of a table that the identity may write. -/
def writableSchema (who : Identity) (database table : String) : Action Engine TableSchema := do
  let schema ← schema database table
  Action.ofExcept (schema.require who.role .write)
  return schema

/-- Whether the identity has a transaction in progress. -/
def isBuffering (who : Identity) : Action Engine Bool :=
  Action.read fun engine => .ok (engine.inTransaction who.user)

/-- Inserts a row. -/
def insert (who : Identity) (database table row : String) : Action Engine Effect := do
  let schema ← writableSchema who database table
  schema.checkRow (storedValues database) row
  if ← isBuffering who then
    buffer who.user .insert database table (Row.id row) row none
    return Effect.ofMessage s!"1 row buffered for '{table}' in the current transaction"
  onDisk (Table.append database table row)
  patchIndexes database schema [] [row]
  return {
    outcome := .ofMessage s!"1 row inserted into '{table}'"
    firing := some ⟨database, table, .insert⟩ }

/-- Checks one assignment on its own: the column, the value, and what a reference refers to. -/
def checkAssignment (schema : TableSchema) (database table : String) (assigned : String × String) :
    Action Engine Assignment := do
  let (name, value) := assigned
  let position ← Action.ofExcept (schema.requireColumn name table)
  match schema.columns[position]? with
  | none => throw (.unknownColumn name table)
  | some column =>
    Action.ofExcept (column.checkField value)
    match column.referenceCheck? value with
    | some check => check.run (storedValues database)
    | none => pure ()
    return { position, column, value }

/-- Assigns values to the columns of the rows that fulfil the conditions. -/
def update (who : Identity) (database table : String) (assigned : Keyed String String)
    (conditions : List Condition) : Action Engine Effect := do
  let schema ← writableSchema who database table
  let assignments ← assigned.entries.mapM (checkAssignment schema database table)
  let change := schema.update assignments conditions
  if ← isBuffering who then
    let rows ← readDisk (Table.rows · database table)
    let (_, changed) ← Action.ofExcept (change rows)
    changed.forM fun (before, after) =>
      buffer who.user .update database table (Row.id before) after (some before)
    let count := countText changed.length
    return Effect.ofMessage s!"{count} row(s) buffered for update in the current transaction"
  let changed ← onDisk (Table.modify database table change)
  if !changed.isEmpty then
    patchIndexes database schema (changed.map Prod.fst) (changed.map Prod.snd)
  let count := countText changed.length
  return {
    outcome := .ofMessage s!"{count} row(s) updated in '{table}'"
    firing := if changed.isEmpty then none else some ⟨database, table, .update⟩ }

/-- Deletes the rows that fulfil the conditions. -/
def delete (who : Identity) (database table : String) (conditions : List Condition) :
    Action Engine Effect := do
  let schema ← writableSchema who database table
  if ← isBuffering who then
    let rows ← readDisk (Table.rows · database table)
    let removed := (schema.delete conditions rows).2
    removed.forM fun row => buffer who.user .delete database table (Row.id row) "" (some row)
    let count := countText removed.length
    return Effect.ofMessage s!"{count} row(s) buffered for delete in the current transaction"
  let removed ← onDisk (Table.modify database table fun rows => .ok (schema.delete conditions rows))
  if !removed.isEmpty then
    patchIndexes database schema removed []
  let count := countText removed.length
  return {
    outcome := .ofMessage s!"{count} row(s) deleted from '{table}'"
    firing := if removed.isEmpty then none else some ⟨database, table, .delete⟩ }

/-! ### Transactions -/

/-- Begins a transaction. -/
def executeBegin (who : Identity) : Action Engine Outcome := do
  let id ← begin who.user
  return .ofMessage s!"Transaction {id} started"

/-- Commits a transaction. The indexes are patched for every change made, also when a later one could
not be made. -/
def executeCommit (who : Identity) : Action Engine Outcome := do
  try
    let (id, applied) ← commit who.user
    patchCommitted applied
    let count := countText applied.length
    pure (.ofMessage s!"Transaction {id} committed ({count} operations)")
  catch e =>
    match e with
    | .partlyApplied _ _ applied => patchCommitted applied
    | _ => pure ()
    throw e

/-- Drops a transaction. -/
def executeRollback (who : Identity) : Action Engine Outcome := do
  let (id, lost) ← rollback who.user
  let count := countText lost
  return .ofMessage s!"Transaction {id} rolled back ({count} operations discarded)"

end FlatFileDb.Engine
