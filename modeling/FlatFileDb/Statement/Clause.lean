import FlatFileDb.Statement.Command
import FlatFileDb.Statement.Cursor

/-!
# Fields, assignments and condition chains

The parts of statements that are lists: what a query asks for, what an update assigns, and the
conditions that select rows. All of them are read from tokens already separated from the rest of the
statement.
-/

namespace FlatFileDb.Statement

/-- Tokens with a blank between each two. -/
def joinTokens (tokens : List String) : List Char :=
  (" ".intercalate tokens).toList

/-- The fields of a query, without the blanks inside them. -/
def fieldList (text : List Char) : Except Error (List String) :=
  (text.splitOn ',').mapM fun piece =>
    let field := piece.filter fun c => !Text.isBlank c
    if field.isEmpty then .error .emptyField else .ok (String.ofList field)

/-- One assignment `column=value`; quotes around the value are taken off. -/
def assignment (text : List Char) : Except Error (String × String) :=
  match text.splitOn '=' with
  | [column, value] =>
    let column := String.ofList (Text.trim column)
    if Name.isValid column then .ok (column, String.ofList (unquote (Text.trim value)))
    else .error (.badAssignedColumn column)
  | _ => .error (.malformedAssignment (String.ofList (Text.trim text)))

/-- Assignments with commas between them; a column assigned again takes the last value. -/
def assignments (text : List Char) : Except Error (Keyed String String) := do
  return Keyed.ofList (← (text.splitOn ',').mapM assignment)

/-! ### Conditions -/

/-- Whether a token ends with the given quote. -/
def closes (quote : Char) (token : String) : Bool :=
  token.toList.getLast? == some quote

/-- The tokens up to the first one that closes the quote, and those behind it. -/
def upToClosing (quote : Char) : List String → Option (List String × List String)
  | [] => none
  | token :: rest =>
    if closes quote token then some ([token], rest)
    else (upToClosing quote rest).map fun (quoted, rest) => (token :: quoted, rest)

/-- The quote that a token opens and does not close. -/
def openQuote? (token : String) : Option Char :=
  match token.toList with
  | [] => none
  | quote :: rest =>
    if (quote == '"' || quote.toNat == 0x27) && (rest.isEmpty || !closes quote token) then
      some quote
    else none

/-- The value of a condition without its quotes. A quoted value may take several tokens; it has one
blank between each two of them. -/
def literal : List String → Except Error (String × List String)
  | [] => .error (.unexpectedEnd "condition value")
  | token :: rest =>
    match openQuote? token with
    | none => .ok (unquoteText token, rest)
    | some quote =>
      match upToClosing quote rest with
      | none => .error .unclosedQuote
      | some (quoted, rest) =>
        .ok (String.ofList (unquote (joinTokens (token :: quoted))), rest)

/-- The operator that a token names. -/
def operator (token : String) : Except Error Operator :=
  if Keyword.contains.accepts token then .ok .contains
  else
    match Operator.ofSymbol? token with
    | some operator => .ok operator
    | none => .error (.unexpectedToken "comparison operator" token)

/-- One condition without its connector. -/
def comparison (clause : String) : List String → Except Error (Condition × List String)
  | [] => .error (.unexpectedEnd s!"{clause} condition")
  | [_] => .error (.unexpectedEnd "comparison operator")
  | field :: symbol :: rest => do
    let operator ← operator symbol
    let (value, rest) ← literal rest
    return ({ field, operator, value, connector := none }, rest)

/-- The connector that a token names. -/
def connector (token : String) : Except Error Connector :=
  if Keyword.both.accepts token then .ok .and
  else if Keyword.either.accepts token then .ok .or
  else .error (.unexpectedToken "AND or OR" token)

/-- A chain of conditions that takes all the tokens; `fuel` bounds the number of conditions. -/
def chain (clause : String) : Nat → List String → Except Error (List Condition)
  | 0, _ => .error (.unexpectedEnd s!"{clause} condition")
  | fuel + 1, tokens => do
    let (condition, rest) ← comparison clause tokens
    match rest with
    | [] => return [condition]
    | word :: rest =>
      let connector ← connector word
      if rest.isEmpty then throw (.unexpectedEnd s!"condition after '{word}'")
      let more ← chain clause fuel rest
      return { condition with connector := some connector } :: more

/-- The chain of conditions that the tokens of a clause make up. -/
def conditions (clause : String) (tokens : List String) : Except Error (List Condition) :=
  chain clause (tokens.length + 1) tokens

end FlatFileDb.Statement
