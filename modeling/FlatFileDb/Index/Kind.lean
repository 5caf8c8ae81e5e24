import FlatFileDb.Text.Alphanumeric
import FlatFileDb.Text.Case
import FlatFileDb.Text.Distinct

/-!
# Kinds of index

An exact index files a row under its whole field, a word index under each word of the field. Words
are runs of letters and numerals of more than two characters, in small letters, each counted once.
-/

namespace FlatFileDb

/-- What an index files its rows under. -/
inductive IndexKind where
  | exact
  | words
  deriving DecidableEq, Repr

namespace IndexKind

/-- The end of the names of index files. -/
def extension : IndexKind → String
  | exact => "idx"
  | words => "fts"

/-- The words of a text that a word index knows. -/
def wordsOf (text : String) : List String :=
  let pieces := (Text.lower text.toList).splitOnP fun c => !Text.isAlphanumeric c
  Text.firstOccurrences ((pieces.filter fun piece => 2 < piece.length).map String.ofList)

/-- The keys that a row with the given field is filed under. -/
def keys (kind : IndexKind) (field : String) : List String :=
  match kind with
  | exact => [field]
  | words => wordsOf field

end IndexKind

end FlatFileDb
