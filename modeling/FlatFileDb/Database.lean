import FlatFileDb.Disk.Basic
import FlatFileDb.Schema.Name
import FlatFileDb.Text.Occurrence

/-!
# Databases

A database is a directory of the data directory, with a directory for the schemas of its tables.
-/

namespace FlatFileDb.Database

/-- Whether there is a database of a name. -/
def isPresent (disk : Disk) (name : String) : Bool :=
  disk.hasDirectory (Path.database name)

/-- Refuses a database that is not there. -/
def require (disk : Disk) (name : String) : Except Error Unit :=
  if isPresent disk name then .ok () else .error (.unknownDatabase name)

/-- Makes an empty database. -/
def create (name : String) : Action Disk Unit := do
  Action.ofExcept (Name.check name)
  if (← Action.get).hasEntry (Path.database name) then throw (.databaseExists name)
  Disk.makeDirectories (Path.schemas name)

/-- The name of the database in a directory of the data directory. -/
def nameOf? (disk : Disk) (directory : String) : Option String :=
  if disk.hasDirectory [directory] then
    (Text.afterStart? (Settings.directoryName "").toList directory.toList).map String.ofList
  else none

/-- The names of all databases, sorted. -/
def names (disk : Disk) : List String :=
  sortTexts ((disk.namesIn []).filterMap (nameOf? disk))

/-- The name of the table in a schema file. -/
def tableOf? (file : String) : Option String :=
  (Text.beforeEnd? ".json".toList file.toList).bind fun stem =>
    if stem.isEmpty then none else some (String.ofList stem)

/-- The names of the tables of a database, sorted. -/
def tables (disk : Disk) (name : String) : List String :=
  sortTexts ((disk.namesIn (Path.schemas name)).filterMap tableOf?)

end FlatFileDb.Database
