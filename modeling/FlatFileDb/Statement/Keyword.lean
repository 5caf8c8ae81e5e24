import FlatFileDb.Operation
import FlatFileDb.Text.Case

/-!
# Keywords

Every keyword has spellings in two languages and is read in any case. Which keyword a word is depends
on where it stands: one spelling may belong to several of them.
-/

namespace FlatFileDb.Statement

/-- The roles that a word may play in a statement. -/
inductive Keyword where
  | create | insert | select | update | delete | index | search | begin | commit | rollback | become
  | table | view | trigger | fullText
  | source | databases | assignment | filter | both | either | contains | definedAs | event | onTable
  | action | onColumn | sought
  | inner | left | right | full | join
  | group | byWord | having | havingFiller | order | ascending | descending | limit | offset
  | master | replica | following
  deriving DecidableEq, Repr

namespace Keyword

/-- The spellings of a keyword in capitals. The last one names it in messages. -/
def spellings : Keyword → List String
  | create => ["DAMEL", "BIKIN", "NYIEUN", "SCHEMA", "CREATE"]
  | insert => ["SIMPEN", "TENDEUN", "INSERT"]
  | select => ["TINGALI", "TENJO", "SELECT"]
  | update => ["OMEAN", "ROBIH", "UPDATE"]
  | delete => ["MICEUN", "PICEUN", "DELETE"]
  | index => ["TANDAIN", "TANDAAN", "TAWISAN", "INDEX"]
  | search => ["KOREHAN", "SEARCH"]
  | begin => ["MIMITIAN", "BEGIN"]
  | commit => ["JADIKEUN", "COMMIT"]
  | rollback => ["BATALKEUN", "ROLLBACK"]
  | become => ["JADI", "JANTEN", "BECOME"]
  | table => ["CREATE", "TABEL", "TABLE"]
  | view => ["KACA", "VIEW"]
  | trigger => ["JARAMBAH", "TRIGGER"]
  | fullText => ["INDEKS_TEKS", "FULLTEXT"]
  | source => ["TI", "FROM"]
  | databases => ["PANGKAL", "DATABASES"]
  | assignment => ["JADI", "JANTEN", "SET"]
  | filter => ["DIMANA", "WHERE"]
  | both => ["SARENG", "AND"]
  | either => ["ATAWA", "OR"]
  | contains => ["JIGA", "LIKE"]
  | definedAs => ["TINA", "AS"]
  | event => ["WAKTU", "WHEN"]
  | onTable => ["PADA", "ON"]
  | action => ["LAKUKAN", "DO"]
  | onColumn => ["DINA", "ON"]
  | sought => ["MILARI", "FOR"]
  | inner => ["HIJIKEUN", "INNER"]
  | left => ["KENCA", "LEFT"]
  | right => ["KATUHU", "RIGHT"]
  | full => ["PINUH", "FULL"]
  | join => ["GABUNG", "JOIN"]
  | group => ["KUMPULKEUN", "GROUP"]
  | byWord => ["DUMASAR", "BY"]
  | having => ["MUN", "HAVING"]
  | havingFiller => ["SYARATNA"]
  | order => ["RUNTUYKEUN", "ORDER"]
  | ascending => ["TI_HANDAP", "NAEK", "ASC"]
  | descending => ["TI_LUHUR", "TURUN", "DESC"]
  | limit => ["SAKADAR", "LIMIT"]
  | offset => ["LIWATAN", "OFFSET"]
  | master => ["INDUNG", "MASTER"]
  | replica => ["ANAK", "REPLICA"]
  | following => ["NGINTIL", "OF"]

/-- Whether a word spells the keyword. -/
def accepts (keyword : Keyword) (word : String) : Bool :=
  keyword.spellings.contains (Text.toUpper word)

/-- The spelling used in messages. -/
def canonical (keyword : Keyword) : String :=
  keyword.spellings.getLast?.getD ""

/-- The keywords that start a clause behind the source of a query. -/
def clauseStarts : List Keyword :=
  [filter, inner, left, right, full, join, group, having, order, limit, offset]

/-- Whether a word starts a clause. -/
def startsClause (word : String) : Bool :=
  clauseStarts.any fun keyword => keyword.accepts word

/-- The operation that a word names, in any spelling of its keyword. -/
def operation? (word : String) : Option Operation :=
  if insert.accepts word then some .insert
  else if update.accepts word then some .update
  else if delete.accepts word then some .delete
  else none

end Keyword

end FlatFileDb.Statement
