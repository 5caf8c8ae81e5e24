import FlatFileDb.Condition
import FlatFileDb.Index.Kind
import FlatFileDb.Keyed
import FlatFileDb.Node
import FlatFileDb.Operation

/-!
# Commands

What a statement asks for, one constructor a kind of statement. Texts that are read later stand in
the command as written: column definitions, rows, and the statements of views and triggers.
-/

namespace FlatFileDb

/-- Which rows of the two sides a join keeps besides the matching ones. -/
inductive JoinKind where
  | inner
  | left
  | right
  | full
  deriving DecidableEq, Repr

/-- A further source of a query, joined where two columns agree. -/
structure Join where
  kind : JoinKind
  table : String
  left : String
  right : String
  deriving DecidableEq, Repr

/-- The column that orders a result. -/
structure OrderBy where
  column : String
  descending : Bool
  deriving DecidableEq, Repr

/-- A query. A limit that is not positive keeps every row. -/
structure Query where
  fields : List String
  table : String
  joins : List Join
  conditions : List Condition
  groupBy : Option String
  having : List Condition
  orderBy : Option OrderBy
  limit : Int
  offset : Int
  deriving DecidableEq, Repr

namespace Query

/-- Every column and row of a table. -/
def all (table : String) : Query where
  fields := ["*"]
  table := table
  joins := []
  conditions := []
  groupBy := none
  having := []
  orderBy := none
  limit := -1
  offset := 0

/-- Whether the query asks for every column. -/
def isWildcard (query : Query) : Bool :=
  query.fields == ["*"]

end Query

/-- How a transaction starts and ends. -/
inductive TransactionControl where
  | begin
  | commit
  | rollback
  deriving DecidableEq, Repr

/-- A trigger as a statement defines it. -/
structure TriggerDefinition where
  name : String
  event : Operation
  table : String
  /-- The statement to run. -/
  action : String
  deriving DecidableEq, Repr

/-- What a statement asks for. -/
inductive Command where
  | createTable (table definition : String)
  | insert (table row : String)
  | select (query : Query)
  | update (table : String) (assignments : Keyed String String) (conditions : List Condition)
  | delete (table : String) (conditions : List Condition)
  | transaction (control : TransactionControl)
  | createIndex (kind : IndexKind) (table column : String)
  | createView (name query : String)
  | createTrigger (definition : TriggerDefinition)
  | showDatabases
  | search (table column word : String)
  | become (role : NodeRole)
  deriving DecidableEq, Repr

namespace Command

/-- The name of a kind of command. -/
def kind : Command → String
  | createTable .. => "CREATE"
  | insert .. => "INSERT"
  | select .. => "SELECT"
  | update .. => "UPDATE"
  | delete .. => "DELETE"
  | transaction .. => "TRANSACTION"
  | createIndex .exact .. => "INDEX"
  | createIndex .words .. => "CREATE_FULLTEXT"
  | createView .. => "CREATE_VIEW"
  | createTrigger .. => "CREATE_TRIGGER"
  | showDatabases => "SHOW_DATABASES"
  | search .. => "FULLTEXT_SEARCH"
  | become .. => "REPLICATION"

/-- Whether the command changes what is stored. -/
def isMutation : Command → Bool
  | createTable .. | insert .. | update .. | delete .. | createIndex .. | createView ..
  | createTrigger .. | transaction .commit => true
  | _ => false

/-- Whether the command defines something and so needs an administrator. -/
def isDefinition : Command → Bool
  | createTable .. | createIndex .. | createView .. | createTrigger .. => true
  | _ => false

end Command

end FlatFileDb
