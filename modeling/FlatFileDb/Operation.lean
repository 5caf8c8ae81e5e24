/-!
# Kinds of change

The three ways a statement changes the rows of a table. They name what a trigger waits for, and what
a log entry records.
-/

namespace FlatFileDb

/-- A way of changing the rows of a table. -/
inductive Operation where
  | insert
  | update
  | delete
  deriving DecidableEq, Repr

namespace Operation

/-- The word for the operation in files and messages. -/
def word : Operation → String
  | insert => "INSERT"
  | update => "UPDATE"
  | delete => "DELETE"

/-- The operation that a stored word names. -/
def ofWord? (word : String) : Option Operation :=
  [insert, update, delete].find? fun operation => operation.word == word

theorem ofWord?_word (operation : Operation) : ofWord? operation.word = some operation := by
  cases operation <;> decide

end Operation

end FlatFileDb
