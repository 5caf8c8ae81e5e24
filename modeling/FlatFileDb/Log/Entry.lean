import FlatFileDb.Json.Basic
import FlatFileDb.Operation

/-!
# Log entries

What the log records of one change of a committed transaction, and its stored form. The image before
the change is kept for updates and deletions.
-/

namespace FlatFileDb.Log

/-- One recorded change. The number is given when the entry is written. -/
structure Entry where
  number : Nat
  transaction : String
  user : String
  timestamp : Nat
  operation : Operation
  database : String
  table : String
  /-- The identifier of the row that the change looks for, for an update the one before it. -/
  rowId : String
  /-- The row after the change, empty for a deletion. -/
  row : String
  before : Option String
  deriving DecidableEq, Repr

namespace Entry

/-- The stored form of an entry. -/
def toJson (entry : Entry) : Json :=
  .object [
    ("lsn", .natural entry.number),
    ("tx_id", .string entry.transaction),
    ("user", .string entry.user),
    ("timestamp_ms", .natural entry.timestamp),
    ("op", .string entry.operation.word),
    ("database", .string entry.database),
    ("table", .string entry.table),
    ("row_id", .string entry.rowId),
    ("data", .string entry.row),
    ("prev_data", match entry.before with
      | some row => .string row
      | none => .null)]

/-- Reads an entry; the image before the change may be missing. -/
def ofJson? (value : Json) : Option Entry := do
  let members ← value.record? ["lsn", "tx_id", "user", "timestamp_ms", "op", "database", "table",
    "row_id", "data", "prev_data"]
  return {
    number := ← (← members.lookup "lsn").natural?
    transaction := ← (← members.lookup "tx_id").string?
    user := ← (← members.lookup "user").string?
    timestamp := ← (← members.lookup "timestamp_ms").natural?
    operation := ← Operation.ofWord? (← (← members.lookup "op").word?)
    database := ← (← members.lookup "database").string?
    table := ← (← members.lookup "table").string?
    rowId := ← (← members.lookup "row_id").string?
    row := ← (← members.lookup "data").string?
    before := ← ((members.lookup "prev_data").getD .null).optional? Json.string? }

end Entry

end FlatFileDb.Log
