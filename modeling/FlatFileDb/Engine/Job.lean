import FlatFileDb.Engine.State
import FlatFileDb.Outcome
import FlatFileDb.Statement.Parser

/-!
# Jobs

What follows a change: patching indexes and running triggers. A job runs at once or waits in the
queue, as the settings say. Whether it fails is nobody's concern but its own.
-/

namespace FlatFileDb

/-- A way of executing commands at some level of nesting. -/
abbrev Executing := Identity → Command → Action Engine Outcome

/-- A change of a table's rows that triggers may wait for. -/
structure Firing where
  database : String
  table : String
  event : Operation
  deriving DecidableEq, Repr

namespace Job

/-- Patches the indexes of a table for rows removed and rows added. -/
def patchTable (database : String) (schema : TableSchema) (removed added : List String) :
    Action Engine Unit := do
  removed.forM fun row => Engine.onDisk (Index.removeRow database schema.name (Row.id row))
  added.forM fun row => Engine.onDisk (Index.addRow database schema.name schema.fieldNames row)

/-- Patches the indexes for one change of a commit. -/
def patchEntry (entry : Log.Entry) : Action Engine Unit := do
  if entry.operation != .insert then
    Engine.onDisk (Index.removeRow entry.database entry.table entry.rowId)
  if entry.operation != .delete then
    let schema ← Engine.schema entry.database entry.table
    Engine.onDisk (Index.addRow entry.database entry.table schema.fieldNames entry.row)

/-- Runs a job; `executing` executes the statement of a trigger with the given budget. -/
def run (executing : Nat → Executing) : Job → Action Engine Unit
  | patchRows database schema removed added => patchTable database schema removed added
  | patchEntries entries => entries.forM patchEntry
  | runTrigger who action budget => do
    let command ← Action.ofExcept (Statement.parse action)
    let _ ← executing budget who command

end Job

namespace Engine

/-- Puts a job behind those that wait. -/
def enqueue (job : Job) : Action Engine Unit :=
  Action.modify fun engine => { engine with latestJobs := job :: engine.latestJobs }

/-- Takes the step that a job consists of at once or lets the job wait, as the settings say. -/
def dispatch (job : Job) (step : Action Engine Unit) : Action Engine Unit := do
  if (← Action.get).settings.background then enqueue job
  else Action.attempt step

/-- Dispatches the patching of a table's indexes. -/
def patchIndexes (database : String) (schema : TableSchema) (removed added : List String) :
    Action Engine Unit :=
  dispatch (.patchRows database schema removed added)
    (Job.patchTable database schema removed added)

/-- Dispatches the patching of indexes for the changes of a commit, if there are any. -/
def patchCommitted (entries : List Log.Entry) : Action Engine Unit :=
  if entries.isEmpty then pure ()
  else dispatch (.patchEntries entries) (entries.forM Job.patchEntry)

/-- The jobs for the triggers on a change of a table, each with `budget` levels of nesting. If one of
the triggers cannot be read, none runs. -/
def triggerJobs (disk : Disk) (budget : Nat) (who : Identity) (firing : Firing) : List Job :=
  match Trigger.forEvent disk firing.database firing.table firing.event with
  | .error _ => []
  | .ok triggers =>
    triggers.map fun trigger => .runTrigger who trigger.definition.action budget

/-- Dispatches the triggers on a change of a table. -/
def fireTriggers (executing : Executing) (budget : Nat) (who : Identity) (firing : Firing) :
    Action Engine Unit := do
  (triggerJobs (← Action.get).disk budget who firing).forM fun job =>
    dispatch job (job.run fun _ => executing)

end Engine

end FlatFileDb
