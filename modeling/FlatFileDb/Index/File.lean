import FlatFileDb.Index.Data
import FlatFileDb.Json.Parser
import FlatFileDb.Json.Printer
import FlatFileDb.Table

/-!
# Index files

Every index of a column is a file beside the table file, named after the table, the column and the
kind. Which columns have an index is read off the names in the directory.
-/

namespace FlatFileDb.Index

/-- The file of an index. -/
def path (database table column : String) (kind : IndexKind) : Path :=
  Path.below (Path.database database) (table ++ "." ++ column ++ "." ++ kind.extension)

/-- Whether a column has an index. -/
def isPresent (disk : Disk) (database table column : String) (kind : IndexKind) : Bool :=
  disk.hasFile (path database table column kind)

/-- The column of a table whose index a file name belongs to. -/
def columnOf? (table : String) (kind : IndexKind) (file : String) : Option String := do
  let rest ← Text.afterStart? (table ++ ".").toList file.toList
  let column ← Text.beforeEnd? ("." ++ kind.extension).toList rest
  if column.isEmpty || column.contains '.' then none else some (String.ofList column)

/-- The columns of a table that have an index, sorted. -/
def columns (disk : Disk) (database table : String) (kind : IndexKind) : List String :=
  sortTexts
    ((disk.namesIn (Path.database database)).filterMap (columnOf? table kind))

/-- The contents of an index. -/
def load (disk : Disk) (database table column : String) (kind : IndexKind) :
    Except Error IndexData := do
  let text ← disk.textOr (.unknownIndex table column) (path database table column kind)
  match (Json.ofText? text).bind IndexData.ofJson? with
  | some data => return data
  | none => throw .unreadableFile

/-- Writes the contents of an index. -/
def save (database table column : String) (kind : IndexKind) (data : IndexData) :
    Action Disk Unit :=
  Disk.writeFile (path database table column kind) data.toJson.compact

/-- Builds an index anew from the rows of its table; returns how many keys it has. -/
def build (database table column : String) (position : Nat) (kind : IndexKind) :
    Action Disk Nat := do
  let rows ← Action.read (Table.rows · database table)
  let data := IndexData.build kind position rows
  save database table column kind data
  return data.entries.length

/-- The identifiers of the rows whose field is the given value. -/
def lookup (disk : Disk) (database table column value : String) : Except Error (List String) := do
  return (← load disk database table column .exact).idsAt value

/-- The identifiers of the rows whose field holds a word, in any case. -/
def search (disk : Disk) (database table column word : String) : Except Error (List String) := do
  let key := String.ofList (Text.lower (Text.trim word.toList))
  return (← load disk database table column .words).idsAt key

/-- The kinds of index in the order in which they are patched. -/
def kinds : List IndexKind := [.exact, .words]

/-- Changes one index. An index that vanished is passed over; `change` may leave it as it is. -/
def patchOne (database table column : String) (kind : IndexKind)
    (change : IndexData → Option IndexData) : Action Disk Unit := do
  match load (← Action.get) database table column kind with
  | .ok data =>
    match change data with
    | some data => save database table column kind data
    | none => pure ()
  | .error (.unknownIndex ..) => pure ()
  | .error e => throw e

/-- Changes the indexes of a table in the order of kinds and columns. Those for which there is no
`change` are not even read. -/
def patch (database table : String)
    (change : IndexKind → String → Option (IndexData → Option IndexData)) : Action Disk Unit :=
  kinds.forM fun kind => do
    (columns (← Action.get) database table kind).forM fun column =>
      match change kind column with
      | some change => patchOne database table column kind change
      | none => pure ()

/-- The field of a row in a named column. -/
def fieldOf? (names : List String) (row column : String) : Option String :=
  (names.findIdx? fun name => name == column).bind fun position => (Row.fields row)[position]?

/-- Adds a row to every index of its table that is on one of the named columns. -/
def addRow (database table : String) (names : List String) (row : String) : Action Disk Unit :=
  patch database table fun kind column =>
    (fieldOf? names row column).map fun field data => some (data.addRow kind (Row.id row) field)

/-- Takes a row out of every index of its table. -/
def removeRow (database table id : String) : Action Disk Unit :=
  patch database table fun _ _ => some fun data =>
    let rest := data.removeId id
    if rest.size == data.size then none else some rest

end FlatFileDb.Index
