import FlatFileDb.Database

/-!
# Views

A view is the text of its query in a file of its own. Nothing of its result is stored.
-/

namespace FlatFileDb.View

/-- Whether there is a view of a name. -/
def isPresent (disk : Disk) (database name : String) : Bool :=
  disk.hasFile (Path.view database name)

/-- Writes a view, new or not. -/
def save (database name query : String) : Action Disk Unit := do
  Action.read (Database.require · database)
  Disk.writeFile (Path.view database name) query

/-- The query of a view. -/
def load (disk : Disk) (database name : String) : Except Error String :=
  disk.textOr (.unknownTable name) (Path.view database name)

end FlatFileDb.View
