import FlatFileDb.Error
import FlatFileDb.Text.Alphanumeric

/-!
# Names

Tables, views, columns and databases are named by ASCII letters, digits and underscores, at least
one of them.
-/

namespace FlatFileDb.Name

/-- Whether a text may name a table, a view, a column or a database. -/
def isValid (name : String) : Bool :=
  !name.toList.isEmpty && name.toList.all Text.isNameChar

/-- Refuses a text that names nothing. -/
def check (name : String) : Except Error Unit :=
  if isValid name then .ok () else .error (.badName name)

end FlatFileDb.Name
