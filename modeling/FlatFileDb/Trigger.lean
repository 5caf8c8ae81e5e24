import FlatFileDb.Database
import FlatFileDb.Json.Parser
import FlatFileDb.Json.Printer
import FlatFileDb.Statement.Command

/-!
# Triggers

A trigger is a file named after its table, its event and its own name, and holds the statement to run
after such a change of the table. The start of a file name may belong to more than one table, so what
the file says decides.
-/

namespace FlatFileDb

/-- A stored trigger. -/
structure Trigger where
  definition : TriggerDefinition
  /-- When it was made, in milliseconds. -/
  created : Nat
  deriving DecidableEq, Repr

namespace Trigger

/-- The stored form of a trigger. -/
def toJson (trigger : Trigger) : Json :=
  .object [
    ("name", .string trigger.definition.name),
    ("event", .string trigger.definition.event.word),
    ("table", .string trigger.definition.table),
    ("action", .string trigger.definition.action),
    ("created_at_ms", .natural trigger.created)]

/-- Reads a trigger. -/
def ofJson? (value : Json) : Option Trigger := do
  let members ← value.record? ["name", "event", "table", "action", "created_at_ms"]
  return {
    definition := {
      name := ← (← members.lookup "name").string?
      event := ← Operation.ofWord? (← (← members.lookup "event").word?)
      table := ← (← members.lookup "table").string?
      action := ← (← members.lookup "action").string? }
    created := ← (← members.lookup "created_at_ms").natural? }

/-- The start of the file names of the triggers on a table and an event. -/
def fileStart (table : String) (event : Operation) : String :=
  table ++ "_" ++ event.word ++ "_"

/-- The file of a trigger. -/
def path (database : String) (definition : TriggerDefinition) : Path :=
  Path.below (Path.triggers database)
    (fileStart definition.table definition.event ++ definition.name ++ ".json")

/-- Writes a trigger, new or not. -/
def save (database : String) (trigger : Trigger) : Action Disk Unit := do
  Action.read (Database.require · database)
  Disk.makeDirectories (Path.triggers database)
  Disk.writeFile (path database trigger.definition) (trigger.toJson.indented 0)

/-- Whether a file name may belong to a trigger on a table and an event. -/
def mayHold (table : String) (event : Operation) (file : String) : Bool :=
  (fileStart table event).toList.isPrefixOf file.toList
    && ".json".toList.isSuffixOf file.toList

/-- The trigger in a file. -/
def load (disk : Disk) (database file : String) : Except Error Trigger := do
  let text ← disk.textOr .fileFailure (Path.triggers database ++ [file])
  match (Json.ofText? text).bind ofJson? with
  | some trigger => return trigger
  | none => throw .unreadableFile

/-- The triggers on a table and an event, sorted by name. One that cannot be read spoils all. -/
def forEvent (disk : Disk) (database table : String) (event : Operation) :
    Except Error (List Trigger) := do
  let files := (disk.namesIn (Path.triggers database)).filter (mayHold table event)
  let found ← files.mapM (load disk database)
  return sortBy (fun a b => a.definition.name < b.definition.name) <|
    found.filter fun trigger =>
      trigger.definition.table == table && trigger.definition.event == event

end Trigger

end FlatFileDb
