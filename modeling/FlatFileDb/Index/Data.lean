import FlatFileDb.Grouping
import FlatFileDb.Index.Kind
import FlatFileDb.Json.Basic
import FlatFileDb.Keyed
import FlatFileDb.Row

/-!
# The contents of an index

An index maps a key to the identifiers of the rows filed under it, the keys in order of first
appearance. It is built from all rows at once, or patched row by row.
-/

namespace FlatFileDb

-- Sums start with the zero of the core library, whatever else is imported.
attribute [local instance (2000)] Zero.ofOfNat0

/-- The identifiers of rows by key. -/
abbrev IndexData := Keyed String (List String)

namespace IndexData

/-- Files an identifier under a key unless it is there. -/
def file (id : String) (data : IndexData) (key : String) : IndexData :=
  data.alter key fun ids =>
    let ids := ids.getD []
    if ids.contains id then ids else ids ++ [id]

/-- The identifiers under a key. -/
def idsAt (data : IndexData) (key : String) : List String :=
  (data.get? key).getD []

/-- Adds a row with the given field. -/
def addRow (kind : IndexKind) (id field : String) (data : IndexData) : IndexData :=
  (kind.keys field).foldl (file id) data

/-- Takes an identifier away everywhere, with the keys that are left without any. -/
def removeId (id : String) (data : IndexData) : IndexData :=
  ⟨(data.entries.map fun entry => (entry.1, entry.2.filter fun other => other != id)).filter
    fun entry => !entry.2.isEmpty⟩

/-- How many identifiers there are, each counted under each key. -/
def size (data : IndexData) : Nat :=
  (data.values.map List.length).sum

/-- The keys that a row is filed under by its field at a position, each with the identifier of the
row; none where the row has no such field. -/
def filings (kind : IndexKind) (position : Nat) (row : String) : List (String × String) :=
  match (Row.fields row)[position]? with
  | none => []
  | some field => (kind.keys field).map fun key => (key, Row.id row)

/-- The index of all rows by the field at a position. -/
def build (kind : IndexKind) (position : Nat) (rows : List String) : IndexData :=
  ⟨(groupBy Prod.fst (rows.flatMap (filings kind position))).map fun (key, filed) =>
    (key, filed.map Prod.snd)⟩

/-- The stored form of an index. -/
def toJson (data : IndexData) : Json :=
  .object (data.entries.map fun entry => (entry.1, .array (entry.2.map Json.string)))

/-- The index with the given entries. A key that comes again takes the last identifiers. -/
def ofEntries (entries : List (String × List String)) : IndexData :=
  if Text.areDistinct (entries.map Prod.fst) then ⟨entries⟩ else Keyed.ofList entries

/-- Reads an index. -/
def ofJson? : Json → Option IndexData
  | .object members => do
    return ofEntries (← members.mapM fun (key, ids) => do
      return (key, ← ids.list? Json.string?))
  | _ => none

theorem ofEntries_eq (entries : List (String × List String)) :
    ofEntries entries = Keyed.ofList entries := by
  rw [ofEntries]
  split
  next h => exact (Keyed.ofList_of_nodup entries (by simpa using h)).symm
  next => rfl

end IndexData

end FlatFileDb
