import FlatFileDb.Statement.Clause

/-!
# Reading statements

The first word of a statement selects what follows. A view holds a query and a trigger a statement,
both as text; they are read once here, so that what is stored can be read again later.
-/

namespace FlatFileDb.Statement

open Cursor

/-! ### Queries -/

/-- The kind of join that a word starts. -/
def joinKind? (word : String) : Option JoinKind :=
  if Keyword.inner.accepts word then some .inner
  else if Keyword.left.accepts word then some .left
  else if Keyword.right.accepts word then some .right
  else if Keyword.full.accepts word then some .full
  else if Keyword.join.accepts word then some .inner
  else none

/-- A join of the given kind, at the word that starts it. -/
def joinClause (kind : JoinKind) (cursor : Cursor) : Except Error (Join × Cursor) := do
  let cursor ←
    if cursor.sees .join then pure (cursor.advance 1) else (cursor.advance 1).expect .join
  let (table, cursor) ← cursor.name "join table"
  let cursor ← cursor.expect .onColumn
  let (left, cursor) ← cursor.field "join column"
  let (symbol, cursor) ← cursor.token "="
  if symbol != "=" then throw (.unexpectedToken "=" symbol)
  let (right, cursor) ← cursor.field "join column"
  return ({ kind, table, left, right }, cursor)

/-- The conditions up to the next word that starts a clause. -/
def conditionClause (clause : String) (cursor : Cursor) :
    Except Error (List Condition × Cursor) := do
  let tokens := cursor.left.takeWhile fun token => !Keyword.startsClause token
  return (← conditions clause tokens, cursor.advance tokens.length)

/-- The column and direction that order a result. -/
def orderClause (cursor : Cursor) : Except Error (OrderBy × Cursor) := do
  let (column, cursor) ← (cursor.skip .byWord).field "ORDER BY column"
  if cursor.sees .descending then return ({ column, descending := true }, cursor.advance 1)
  else return ({ column, descending := false }, cursor.skip .ascending)

/-- The clause that the next token starts, written into the query. -/
def clause (query : Query) (word : String) (cursor : Cursor) : Except Error (Query × Cursor) := do
  let next := cursor.advance 1
  if let some kind := joinKind? word then
    let (join, cursor) ← joinClause kind cursor
    return ({ query with joins := query.joins ++ [join] }, cursor)
  else if Keyword.filter.accepts word then
    let (conditions, cursor) ← conditionClause "WHERE" next
    return ({ query with conditions }, cursor)
  else if Keyword.group.accepts word then
    let (column, cursor) ← (next.skip .byWord).field "GROUP BY column"
    return ({ query with groupBy := some column }, cursor)
  else if Keyword.having.accepts word then
    let (having, cursor) ← conditionClause "HAVING" (next.skip .havingFiller)
    return ({ query with having }, cursor)
  else if Keyword.order.accepts word then
    let (order, cursor) ← orderClause next
    return ({ query with orderBy := some order }, cursor)
  else if Keyword.limit.accepts word then
    let (limit, cursor) ← next.integer "LIMIT"
    return ({ query with limit }, cursor)
  else if Keyword.offset.accepts word then
    let (offset, cursor) ← next.integer "OFFSET"
    return ({ query with offset }, cursor)
  else
    throw (.unexpectedToken "JOIN, WHERE, GROUP BY, HAVING, ORDER BY, LIMIT or OFFSET" word)

/-- The clauses behind the source of a query; `fuel` bounds their number. -/
def clauses : Nat → Query → Cursor → Except Error Query
  | 0, query, _ => .ok query
  | fuel + 1, query, cursor =>
    match cursor.left with
    | [] => .ok query
    | word :: _ => do
      let (query, cursor) ← clause query word cursor
      clauses fuel query cursor

/-- How many tokens stand before the word that names the source, if it comes before every clause. -/
def fieldCount? (tokens : List String) : Option Nat :=
  (tokens.takeWhile fun token => !Keyword.startsClause token).findIdx? Keyword.source.accepts

/-- A query behind its verb, or the list of databases. -/
def selection (cursor : Cursor) : Except Error Command := do
  if cursor.sees .databases then
    (cursor.advance 1).finish
    return .showDatabases
  match fieldCount? cursor.left with
  | some 0 => throw .noFields
  | some count =>
    let fields ← fieldList (joinTokens (cursor.left.take count))
    let (table, cursor) ← (cursor.advance (count + 1)).name "table name"
    return .select (← clauses cursor.left.length { Query.all table with fields } cursor)
  | none =>
    let (table, cursor) ← cursor.name "table name"
    return .select (← clauses cursor.left.length (Query.all table) cursor)

/-! ### Changes of rows -/

/-- A row to insert, as written. -/
def insertion (cursor : Cursor) : Except Error Command := do
  let (table, cursor) ← cursor.name "table name"
  return .insert table (String.ofList (← cursor.someRawRest "row data"))

/-- Assignments and the rows they go to. -/
def change (cursor : Cursor) : Except Error Command := do
  let (table, cursor) ← cursor.name "table name"
  let cursor ← cursor.expect .assignment
  let assigned := cursor.left.takeWhile fun token => !Keyword.filter.accepts token
  if assigned.isEmpty then throw (.unexpectedEnd "column assignments")
  let assignments ← assignments (joinTokens assigned)
  match (cursor.advance assigned.length).left with
  | [] => return .update table assignments []
  | _ :: tokens => return .update table assignments (← conditions "WHERE" tokens)

/-- The rows to delete. -/
def deletion (cursor : Cursor) : Except Error Command := do
  let cursor ← cursor.expect .source
  let (table, cursor) ← cursor.name "table name"
  if cursor.left.isEmpty then return .delete table []
  let cursor ← cursor.expect .filter
  return .delete table (← conditions "WHERE" cursor.left)

/-! ### Definitions and the rest -/

/-- A column of a table, to the end of the statement. -/
def tableColumn (cursor : Cursor) : Except Error (String × String × Cursor) := do
  let (table, cursor) ← cursor.name "table name"
  let cursor ← cursor.expect .onColumn
  let (column, cursor) ← cursor.name "column name"
  return (table, column, cursor)

/-- An index on a column. -/
def indexOn (kind : IndexKind) (cursor : Cursor) : Except Error Command := do
  let (table, column, cursor) ← tableColumn cursor
  cursor.finish
  return .createIndex kind table column

/-- A view; `read` reads the statement that it holds, which must be a query. -/
def viewDefinition (read : List Char → Except Error Command) (cursor : Cursor) :
    Except Error Command := do
  let (name, cursor) ← cursor.name "view name"
  let cursor ← cursor.expect .definedAs
  let query ← cursor.someRawRest "view query"
  match ← read query with
  | .select _ => return .createView name (String.ofList query)
  | other => throw (.viewOfCommand other.kind)

/-- A trigger; `read` reads the statement that it runs. -/
def triggerDefinition (read : List Char → Except Error Command) (cursor : Cursor) :
    Except Error Command := do
  let (name, cursor) ← cursor.name "trigger name"
  let cursor ← cursor.expect .event
  let (word, cursor) ← cursor.token "trigger event"
  let some event := Keyword.operation? word
    | throw (.unexpectedToken "INSERT, UPDATE or DELETE" word)
  let cursor ← cursor.expect .onTable
  let (table, cursor) ← cursor.name "table name"
  let cursor ← cursor.expect .action
  let action ← cursor.someRawRest "trigger action"
  let _ ← read action
  return .createTrigger { name, event, table, action := String.ofList action }

/-- A table with its columns as written. -/
def tableDefinition (cursor : Cursor) : Except Error Command := do
  let (table, cursor) ← (cursor.skip .table).name "table name"
  return .createTable table (String.ofList (← cursor.someRawRest "column definitions"))

/-- A view, a trigger, a word index or a table. -/
def creation (read : List Char → Except Error Command) (cursor : Cursor) : Except Error Command :=
  if cursor.sees .view then viewDefinition read (cursor.advance 1)
  else if cursor.sees .trigger then triggerDefinition read (cursor.advance 1)
  else if cursor.sees .fullText then indexOn .words (cursor.advance 1)
  else tableDefinition cursor

/-- A word to look for in a word index. -/
def wordSearch (cursor : Cursor) : Except Error Command := do
  let (table, column, cursor) ← tableColumn cursor
  let cursor ← cursor.expect .sought
  let word := Text.trim (unquote cursor.rawRest)
  if word.isEmpty then throw (.unexpectedEnd "search keyword")
  return .search table column (String.ofList word)

/-- The start or end of a transaction. -/
def transaction (control : TransactionControl) (cursor : Cursor) : Except Error Command := do
  cursor.finish
  return .transaction control

/-- A new role of the node. -/
def nodeRole (cursor : Cursor) : Except Error Command := do
  if cursor.sees .master then
    (cursor.advance 1).finish
    return .become .master
  if cursor.sees .replica then
    let cursor ← (cursor.advance 1).expect .following
    return .become (.replica (String.ofList (← cursor.someRawRest "master host")))
  match cursor.left with
  | [] => throw (.unexpectedEnd "MASTER or REPLICA")
  | token :: _ => throw (.unexpectedToken "MASTER or REPLICA" token)

/-! ### Statements -/

/-- The command behind a verb; `read` reads the statements that views and triggers hold. -/
def commandOf (read : List Char → Except Error Command) (verb : String) (cursor : Cursor) :
    Except Error Command :=
  if Keyword.create.accepts verb then creation read cursor
  else if Keyword.insert.accepts verb then insertion cursor
  else if Keyword.select.accepts verb then selection cursor
  else if Keyword.update.accepts verb then change cursor
  else if Keyword.delete.accepts verb then deletion cursor
  else if Keyword.index.accepts verb then indexOn .exact cursor
  else if Keyword.search.accepts verb then wordSearch cursor
  else if Keyword.begin.accepts verb then transaction .begin cursor
  else if Keyword.commit.accepts verb then transaction .commit cursor
  else if Keyword.rollback.accepts verb then transaction .rollback cursor
  else if Keyword.become.accepts verb then nodeRole cursor
  else .error (.unknownVerb verb)

/-- Reads a statement; `fuel` bounds how deep statements stand in one another. -/
def readWithin : Nat → List Char → Except Error Command
  | 0, _ => .error .emptyStatement
  | fuel + 1, text =>
    let cursor := Cursor.start (clean text)
    match cursor.left with
    | [] => .error .emptyStatement
    | verb :: _ => commandOf (readWithin fuel) verb (cursor.advance 1)

/-- The command that a statement spells. A statement inside another one is shorter, so its length
bounds the depth. -/
def parse (text : String) : Except Error Command :=
  readWithin (text.toList.length + 1) text.toList

end FlatFileDb.Statement
