/-!
# Settings and places

Where the data lies and how deep views and triggers may nest. A place is a text with parts between
slashes: an absolute place put below another one replaces it.
-/

namespace FlatFileDb

namespace Place

/-- The place `name` below `base`. -/
def below (base name : String) : String :=
  if name.toList.head? == some '/' then name
  else if base.isEmpty || base.toList.getLast? == some '/' then base ++ name
  else base ++ "/" ++ name

/-- The parts of a place. A point alone leads nowhere and is none. -/
def parts (place : String) : List String :=
  ((place.toList.splitOn '/').map String.ofList).filter fun part => part != "" && part != "."

/-- What follows the last point of a file name. A name that starts with its only point has no
extension, and a place that ends in the step upwards has no file name. -/
def extension? (place : String) : Option String :=
  match (parts place).getLast? with
  | none => none
  | some name =>
    let pieces := (name.toList.splitOn '.').map String.ofList
    if name == ".." || pieces.length < 2 || (pieces.length == 2 && pieces.head? == some "") then
      none
    else pieces.getLast?

end Place

/-- The settings of an engine. -/
structure Settings where
  dataDirectory : String
  logPlace : Option String
  /-- How deep views and triggers may nest. -/
  nestingLimit : Nat
  /-- Whether maintenance waits in a queue. -/
  background : Bool
  /-- Whether files are synced after every write. -/
  syncWrites : Bool
  deriving DecidableEq, Repr

namespace Settings

/-- The settings where nothing is said. -/
def standard : Settings where
  dataDirectory := "./maung_data"
  logPlace := none
  nestingLimit := 16
  background := false
  syncWrites := true

/-- The file name of the log in its directory. -/
def logName : String := "wal.log"

/-- The place of the log file: a place that ends in `.log` is the file itself, every other one is
its directory. -/
def logFile (settings : Settings) : String :=
  match settings.logPlace with
  | some place => if Place.extension? place == some "log" then place else Place.below place logName
  | none => Place.below settings.dataDirectory logName

/-- The name of the directory of a database. -/
def directoryName (database : String) : String :=
  "db_" ++ database

/-- The place of a database. -/
def databasePlace (settings : Settings) (database : String) : String :=
  Place.below settings.dataDirectory (directoryName database)

end Settings

end FlatFileDb
