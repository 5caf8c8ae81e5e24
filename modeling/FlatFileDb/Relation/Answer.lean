import FlatFileDb.Relation.Projection
import FlatFileDb.Sort

/-!
# Ordering, paging and the answer of a query

The rows that a query shows are ordered by one shown column, rows that compare equal keeping their
order, and then a page is cut out of them.
-/

namespace FlatFileDb

namespace Relation

/-- The position of a shown column: the first with the name, else the first that ends in it. -/
def shownColumn? (columns : List String) (name : String) : Option Nat :=
  (columns.findIdx? fun c => c == name) <|> (columns.findIdx? (endsIn name))

/-- Whether one field comes before another one in an ascending or a descending order. -/
def comesBefore (descending : Bool) (a b : Loose) : Bool :=
  a.compare b == if descending then .gt else .lt

/-- The rows in the order asked for. -/
def order (table : String) (columns : List String) (rows : List (List String)) :
    Option OrderBy → Except Error (List (List String))
  | none => .ok rows
  | some key =>
    match shownColumn? columns key.column with
    | some index =>
      .ok (sortOn (fun row => Loose.ofText (fieldAt row index)) (comesBefore key.descending) rows)
    | none => .error (.unknownColumn key.column table)

/-- A page of rows. A limit that is not positive keeps everything, a negative offset skips nothing. -/
def paginate {α : Type} (limit offset : Int) (rows : List α) : List α :=
  let kept := rows.drop offset.toNat
  if 0 < limit then kept.take limit.toNat else kept

/-- What a query answers, given its joined sources. -/
def answer (relation : Relation) (query : Query) : Except Error Outcome := do
  let (columns, rows) ← (relation.select query.conditions).project query
  let rows ← order query.table columns rows query.orderBy
  return Outcome.ofRows columns (paginate query.limit query.offset rows)

end Relation

end FlatFileDb
