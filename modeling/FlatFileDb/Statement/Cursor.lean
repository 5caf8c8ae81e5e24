import FlatFileDb.Number.Integer
import FlatFileDb.Schema.Name
import FlatFileDb.Statement.Keyword
import FlatFileDb.Statement.Token

/-!
# Reading along a statement

A cursor stands between the tokens of a statement: it knows the text, how many tokens were taken and
which are left. Every step returns what it read with the cursor behind it.
-/

namespace FlatFileDb.Statement

/-- A place between the tokens of a statement. -/
structure Cursor where
  source : List Char
  taken : Nat
  left : List String

namespace Cursor

/-- The place before the first token. -/
def start (source : List Char) : Cursor :=
  { source, taken := 0, left := tokens source }

/-- The place `n` tokens further on. -/
def advance (n : Nat) (cursor : Cursor) : Cursor :=
  { cursor with taken := cursor.taken + n, left := cursor.left.drop n }

/-- Whether the next token spells a keyword. -/
def sees (keyword : Keyword) (cursor : Cursor) : Bool :=
  match cursor.left with
  | [] => false
  | token :: _ => keyword.accepts token

/-- Passes over a keyword if it comes next. -/
def skip (keyword : Keyword) (cursor : Cursor) : Cursor :=
  if cursor.sees keyword then cursor.advance 1 else cursor

/-- The next token, which must be there. -/
def token (what : String) (cursor : Cursor) : Except Error (String × Cursor) :=
  match cursor.left with
  | [] => .error (.unexpectedEnd what)
  | token :: _ => .ok (token, cursor.advance 1)

/-- Passes over a keyword, which must come next. -/
def expect (keyword : Keyword) (cursor : Cursor) : Except Error Cursor :=
  match cursor.left with
  | [] => .error (.unexpectedEnd keyword.canonical)
  | token :: _ =>
    if keyword.accepts token then .ok (cursor.advance 1)
    else .error (.unexpectedToken keyword.canonical token)

/-- The name of a table, a view or a column. -/
def name (what : String) (cursor : Cursor) : Except Error (String × Cursor) := do
  let (token, cursor) ← cursor.token what
  if Name.isValid token then return (token, cursor) else throw (.unexpectedToken what token)

/-- A column, perhaps with its table; a word that starts a clause is none. -/
def field (what : String) (cursor : Cursor) : Except Error (String × Cursor) := do
  let (token, cursor) ← cursor.token what
  if Keyword.startsClause token then throw (.unexpectedToken what token)
  else return (token, cursor)

/-- A signed number. -/
def integer (clause : String) (cursor : Cursor) : Except Error (Int × Cursor) := do
  let (token, cursor) ← cursor.token s!"{clause} count"
  match Number.readInteger? token.toList with
  | some n => return (n, cursor)
  | none => throw (.countExpected clause token)

/-- Refuses a token where the statement should end. -/
def finish (cursor : Cursor) : Except Error Unit :=
  match cursor.left with
  | [] => .ok ()
  | token :: _ => .error (.unexpectedToken "end of statement" token)

/-- The text behind the tokens taken, as written. It starts with the first of the tokens left as
long as the tokens taken hold no comparison. -/
def rawRest (cursor : Cursor) : List Char :=
  Text.dropWords cursor.taken cursor.source

/-- The text behind the tokens taken, which must be there. -/
def someRawRest (what : String) (cursor : Cursor) : Except Error (List Char) :=
  let rest := cursor.rawRest
  if rest.isEmpty then .error (.unexpectedEnd what) else .ok rest

end Cursor

end FlatFileDb.Statement
