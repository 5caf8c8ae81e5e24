import FlatFileDb.Index.File
import FlatFileDb.Log.File
import FlatFileDb.Node
import FlatFileDb.Schema.Stored
import FlatFileDb.Trigger
import FlatFileDb.View

/-!
# The state of an engine

Besides the disk an engine knows the schemas it has read, the transactions in progress, the role of
its node and the jobs that wait. All of that is gone when it is opened anew.
-/

namespace FlatFileDb

/-- A transaction in progress. -/
structure Transaction where
  id : String
  /-- The changes so far, the latest first. -/
  latest : List Log.Entry
  deriving DecidableEq, Repr

/-- The changes so far, in the order in which they were asked for. -/
def Transaction.changes (transaction : Transaction) : List Log.Entry :=
  transaction.latest.reverse

/-- What is left to do after a change has been made. -/
inductive Job where
  /-- Takes rows out of the indexes of a table, then adds others. -/
  | patchRows (database : String) (schema : TableSchema) (removed added : List String)
  /-- Patches the indexes of all tables that a commit changed. -/
  | patchEntries (entries : List Log.Entry)
  /-- Runs the statement of a trigger, with `budget` levels of nesting left for it. -/
  | runTrigger (who : Identity) (action : String) (budget : Nat)
  deriving DecidableEq, Repr

/-- The state of an engine. -/
structure Engine where
  settings : Settings
  disk : Disk
  /-- The schemas read so far, by database and table. -/
  schemas : Keyed (String × String) TableSchema
  log : Log
  /-- The transactions in progress, by user. -/
  transactions : Keyed String Transaction
  role : NodeRole
  /-- The jobs that wait, the latest first. -/
  latestJobs : List Job
  /-- The time in nanoseconds. It moves on with every transaction begun. -/
  clock : Nat
  deriving DecidableEq, Repr

namespace Engine

/-- The jobs that wait, in the order in which they came up. -/
def jobs (engine : Engine) : List Job :=
  engine.latestJobs.reverse

/-- A step on the disk. -/
def onDisk {α : Type} (step : Action Disk α) : Action Engine α :=
  Action.onPart Engine.disk (fun disk engine => { engine with disk }) step

/-- A result read off the disk. -/
def readDisk {α : Type} (f : Disk → Except Error α) : Action Engine α :=
  Action.read fun engine => f engine.disk

/-- Something seen on the disk. -/
def look {α : Type} (f : Disk → α) : Action Engine α :=
  Action.read fun engine => .ok (f engine.disk)

/-- The time in milliseconds. -/
def now : Action Engine Nat :=
  Action.read fun engine => .ok (engine.clock / 1000000)

/-- Opens an engine over a data directory. -/
def openOn (settings : Settings) (clock : Nat) (disk : Disk) : Except Error Engine :=
  match Log.openAt (Path.log settings) disk with
  | (.ok log, disk) =>
    .ok {
      settings, disk, log, clock
      schemas := .empty
      transactions := .empty
      role := .master
      latestJobs := [] }
  | (.error e, _) => .error e

/-- The engine opened anew over the same data directory. -/
def reopen (engine : Engine) : Except Error Engine :=
  openOn engine.settings engine.clock engine.disk

/-! ### Schemas -/

/-- Whether there is a schema of a table. -/
def hasSchema (disk : Disk) (database table : String) : Bool :=
  disk.hasEntry (Path.schema database table)

/-- The schema in a file. -/
def readSchema (disk : Disk) (database table : String) : Except Error TableSchema := do
  let text ← disk.textOr (.unknownTable table) (Path.schema database table)
  match (Json.ofText? text).bind TableSchema.ofJson? with
  | some schema => return schema
  | none => throw .unreadableFile

/-- Keeps a schema in memory. -/
def remember (database table : String) (schema : TableSchema) : Action Engine Unit :=
  Action.modify fun engine =>
    { engine with schemas := engine.schemas.insert (database, table) schema }

/-- The schema of a table, from memory if it was read before. -/
def schema (database table : String) : Action Engine TableSchema := do
  match (← Action.get).schemas.get? (database, table) with
  | some schema => return schema
  | none =>
    let schema ← readDisk (readSchema · database table)
    remember database table schema
    return schema

/-- Defines a table. -/
def createSchema (database table : String) (columns : List Column) (permissions : Permissions) :
    Action Engine TableSchema := do
  Action.ofExcept (Name.check table)
  Action.ofExcept (columns.forM fun column => Name.check column.name)
  readDisk (Database.require · database)
  if ← look (hasSchema · database table) then throw (.tableExists table)
  let schema : TableSchema := { database, name := table, columns, permissions }
  onDisk (Disk.makeDirectories (Path.schemas database))
  onDisk (Disk.writeFile (Path.schema database table) (schema.toJson.indented 0))
  remember database table schema
  return schema

/-- The values stored in a column. -/
def storedValues (database table column : String) : Action Engine (List String) := do
  let schema ← schema database table
  let position ← Action.ofExcept (schema.requireColumn column table)
  let rows ← readDisk (Table.rows · database table)
  return rows.filterMap fun row => (Row.fields row)[position]?

end Engine

end FlatFileDb
