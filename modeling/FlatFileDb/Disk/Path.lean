import FlatFileDb.Settings

/-!
# Paths

A path is the way to an entry as it is written, part by part, from the data directory on. A part that
is empty or a point stays where the way has come to, and a way that ends in one demands a directory
there. Other parts lead one directory up, or down to a name. A path that has no such turns in it any
more, but for steps upwards at its start, is the place where a way leads.
-/

namespace FlatFileDb

-- Sums start with the zero of the core library, whatever else is imported.
attribute [local instance (2000)] Zero.ofOfNat0

/-- The parts that lead from the data directory to an entry. -/
abbrev Path := List String

namespace Path

/-- The part that leads one directory up. -/
def upwards : String := ".."

/-- The first part of a path that starts at the root of all directories. -/
def root : String := "/"

/-- Whether a part leads nowhere else. -/
def stays (part : String) : Bool :=
  part == "" || part == "."

/-- The parts of a name with slashes in it. -/
def ofName (name : String) : Path :=
  (name.toList.splitOn '/').map String.ofList

/-- The path of a name below another path. A name that starts with a slash starts at the root. -/
def below (path : Path) (name : String) : Path :=
  if name.toList.head? == some '/' then root :: ofName name else path ++ ofName name

/-! ### Limits -/

/-- Whether a part is short enough for a file name. -/
def fits (part : String) : Bool :=
  part.utf8ByteSize ≤ 255

/-- How many bytes a path takes with a slash between each two parts and an end mark. -/
def size (path : Path) : Nat :=
  (path.map fun part => part.utf8ByteSize + 1).sum

/-- Whether a way can be looked for at all: it has no null character in it and takes at most 4096
bytes. -/
def isSound (path : Path) : Bool :=
  !(path.any fun part => part.toList.contains (Char.ofNat 0)) && path.size ≤ 4096

/-- Whether a part can name a new entry. -/
def isName (part : String) : Bool :=
  !stays part && part != upwards && fits part

/-! ### Places -/

/-- The place one directory up. Above the data directory lie those that hold it; nothing lies above
the root. -/
def above (place : Path) : Path :=
  match place.getLast? with
  | none => [upwards]
  | some part =>
    if part == upwards then place ++ [upwards] else if part == root then place else place.dropLast

/-- Whether a place lies outside of the data directory. -/
def isOutside (place : Path) : Bool :=
  place.head?.any fun part => part == upwards || part == root

/-- A path without the parts at its end that stay. -/
def trimmed (path : Path) : Path :=
  (path.reverse.dropWhile stays).reverse

/-- The path of the directory that holds what a path names. -/
def holder (path : Path) : Path :=
  trimmed (trimmed path).dropLast

/-! ### The layout of the data directory -/

/-- The directory of a database. -/
def database (name : String) : Path :=
  below [] (Settings.directoryName name)

/-- The file of a table. -/
def table (database table : String) : Path :=
  below (Path.database database) (table ++ ".mg")

/-- The directory of the schemas of a database. -/
def schemas (database : String) : Path :=
  Path.database database ++ ["schema"]

/-- The file of a schema. -/
def schema (database table : String) : Path :=
  below (schemas database) (table ++ ".json")

/-- The file of a view. -/
def view (database view : String) : Path :=
  below (Path.database database) (view ++ ".view")

/-- The directory of the triggers of a database. -/
def triggers (database : String) : Path :=
  Path.database database ++ ["triggers"]

/-- The file of the log. -/
def log (settings : Settings) : Path :=
  below [] { settings with dataDirectory := "" }.logFile

end Path

end FlatFileDb
