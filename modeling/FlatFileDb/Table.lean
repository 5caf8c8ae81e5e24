import FlatFileDb.Database
import FlatFileDb.Row
import FlatFileDb.Text.Lines

/-!
# Table files

The rows of a table stand in its file, one a line. Rows are added at the end; every other change
reads all rows, changes the list and writes the file anew.
-/

namespace FlatFileDb.Table

/-- The rows of a table in order. -/
def rows (disk : Disk) (database table : String) : Except Error (List String) := do
  return Text.filledLines (← disk.textOr (.tableFileMissing table) (Path.table database table))

/-- Makes the file of a table, or empties it. -/
def init (database table : String) : Action Disk Unit := do
  Action.read (Database.require · database)
  Disk.writeFile (Path.table database table) ""

/-- Adds a row at the end. -/
def append (database table row : String) : Action Disk Unit :=
  Disk.appendFile (.tableFileMissing table) (Path.table database table) (row ++ "\n")

/-- Reads the rows, and writes those that `f` makes of them; hands on what `f` returns besides. -/
def modify {α : Type} (database table : String)
    (f : List String → Except Error (List String × α)) : Action Disk α := do
  let before ← Action.read (rows · database table)
  let (after, result) ← Action.ofExcept (f before)
  Disk.writeFile (Path.table database table) (Text.ofLines after)
  return result

/-- Replaces all rows. -/
def replaceAll (database table : String) (rows : List String) : Action Disk Unit :=
  modify database table fun _ => .ok (rows, ())

/-- The rows with the first one of the given identifier replaced by what `f` makes of it; none if
there is no such row. -/
def changeFirst? (id : String) (f : String → List String) : List String → Option (List String)
  | [] => none
  | row :: rest =>
    if Row.id row == id then some (f row ++ rest) else (changeFirst? id f rest).map (row :: ·)

/-- Changes the first row of the given identifier. -/
def changeRow (database table id : String) (f : String → List String) : Action Disk Unit :=
  modify database table fun rows =>
    match changeFirst? id f rows with
    | some rows => .ok (rows, ())
    | none => .error (.unknownRow table id)

/-- Replaces the first row of the given identifier. -/
def replaceRow (database table id row : String) : Action Disk Unit :=
  changeRow database table id fun _ => [row]

/-- Removes the first row of the given identifier. -/
def removeRow (database table id : String) : Action Disk Unit :=
  changeRow database table id fun _ => []

end FlatFileDb.Table
