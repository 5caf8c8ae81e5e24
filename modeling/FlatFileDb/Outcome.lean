/-!
# Outcomes

What a command answers: a header with rows, or a message.
-/

namespace FlatFileDb

/-- The result of a command: a header with rows, or a message. -/
structure Outcome where
  columns : List String
  rows : List (List String)
  message : Option String
  deriving DecidableEq, Repr

namespace Outcome

/-- A message alone. -/
def ofMessage (message : String) : Outcome :=
  { columns := [], rows := [], message := some message }

/-- A header with rows. -/
def ofRows (columns : List String) (rows : List (List String)) : Outcome :=
  { columns, rows, message := none }

end Outcome

end FlatFileDb
