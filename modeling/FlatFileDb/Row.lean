/-!
# Rows and fields

A row is one line: its fields with a bar between each two. The first field identifies the row. A
field that is empty or reads `NULL` holds no value.
-/

namespace FlatFileDb

namespace Field

/-- The text that stands for a missing value. -/
def nullText : String := "NULL"

/-- Whether a field holds no value. -/
def isNull (field : String) : Bool :=
  field == "" || field == nullText

end Field

namespace Row

/-- The character between two fields. -/
def delimiter : Char := '|'

/-- The fields of a row. -/
def fields (row : String) : List String :=
  (row.toList.splitOn delimiter).map String.ofList

/-- The identifier of a row, its first field. -/
def id (row : String) : String :=
  String.ofList (row.toList.takeWhile fun c => c != delimiter)

/-- The row with the given fields. -/
def ofFields (fields : List String) : String :=
  (String.singleton delimiter).intercalate fields

/-- The fields cut or filled up with empty ones to the given width. -/
def resize (width : Nat) (fields : List String) : List String :=
  fields.take width ++ List.replicate (width - fields.length) ""

theorem toList_id (row : String) :
    (id row).toList = row.toList.takeWhile fun c => c != delimiter :=
  String.toList_ofList

theorem length_resize (width : Nat) (fields : List String) :
    (resize width fields).length = width := by
  simp only [resize, List.length_append, List.length_take, List.length_replicate]
  omega

end Row

end FlatFileDb
