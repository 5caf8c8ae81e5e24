import FlatFileDb.Engine.Define
import FlatFileDb.Engine.Query
import FlatFileDb.Engine.Write

/-!
# Executing commands

A command runs for an identity with a budget of nesting: views and triggers run what they hold with
one level less, and without any level left nothing runs. So every command comes to an end.
-/

namespace FlatFileDb.Engine

/-- Checks what does not depend on a table: the role, the selected database, and that a replica is
not written to. -/
def authorize (who : Identity) (command : Command) (role : NodeRole) : Except Error Unit :=
  match command with
  | .showDatabases => .ok ()
  | .become _ => who.requireRole .supermaung
  | _ => do
    let _ ← who.requireDatabase
    if command.isDefinition then who.requireRole .admin
    if command.isMutation && role != .master then throw .readOnlyReplica

/-- Lists the databases. -/
def showDatabases : Action Engine Outcome := do
  return .ofRows ["database"] ((← look Database.names).map fun name => [name])

/-- Gives the node a new role. -/
def become (role : NodeRole) : Action Engine Outcome := do
  Action.modify fun engine => { engine with role }
  match role with
  | .master => return .ofMessage "Node is now master (read/write)"
  | .replica host => return .ofMessage s!"Node is now a read-only replica of {host}"

/-- What a command does in the selected database, but for triggers; `executing` runs what views
hold. -/
def effectIn (executing : Executing) (who : Identity) (database : String) :
    Command → Action Engine Effect
  | .insert table row => insert who database table row
  | .update table assigned conditions => update who database table assigned conditions
  | .delete table conditions => delete who database table conditions
  | .createTable table definition => Effect.ofOutcome <$> createTable database table definition
  | .select query => Effect.ofOutcome <$> select executing who database query
  | .transaction .begin => Effect.ofOutcome <$> executeBegin who
  | .transaction .commit => Effect.ofOutcome <$> executeCommit who
  | .transaction .rollback => Effect.ofOutcome <$> executeRollback who
  | .createIndex kind table column => Effect.ofOutcome <$> createIndex kind database table column
  | .createView name query => Effect.ofOutcome <$> createView database name query
  | .createTrigger definition => Effect.ofOutcome <$> createTrigger database definition
  | .search table column word => Effect.ofOutcome <$> search who database table column word
  | .showDatabases => Effect.ofOutcome <$> showDatabases
  | .become role => Effect.ofOutcome <$> become role

/-- What a command does if it may run, but for triggers. -/
def effect (executing : Executing) (who : Identity) (command : Command) : Action Engine Effect := do
  Action.read fun engine => authorize who command engine.role
  match command with
  | .showDatabases => Effect.ofOutcome <$> showDatabases
  | .become role => Effect.ofOutcome <$> become role
  | _ =>
    let database ← Action.ofExcept who.requireDatabase
    effectIn executing who database command

/-- Runs a command and the triggers that are due on it; `executing` runs what is nested, with `budget`
levels left. -/
def perform (executing : Executing) (budget : Nat) (who : Identity) (command : Command) :
    Action Engine Outcome := do
  let effect ← effect executing who command
  effect.firing.forM (fireTriggers executing budget who)
  return effect.outcome

/-- Executes a command with a budget of nesting. -/
def executeWithin : Nat → Executing
  | 0, _, _ => Action.read fun engine => .error (.nestingTooDeep engine.settings.nestingLimit)
  | budget + 1, who, command => perform (executeWithin budget) budget who command

/-- Executes a command for an identity. -/
def executeAs (who : Identity) (command : Command) : Action Engine Outcome := do
  let limit := (← Action.get).settings.nestingLimit
  executeWithin (limit + 1) who command

/-- Executes a command for the identity of a session. -/
def execute (session : Session) (command : Command) : Action Engine Outcome := do
  let who ← Action.ofExcept session.identity
  executeAs who command

/-- Reads and executes a statement for the identity of a session. -/
def run (session : Session) (text : String) : Action Engine Outcome := do
  let command ← Action.ofExcept (Statement.parse text)
  execute session command

end FlatFileDb.Engine
