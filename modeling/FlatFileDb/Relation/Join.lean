import FlatFileDb.Relation.Basic
import FlatFileDb.Statement.Command

/-!
# Joins

Two relations are joined where a column of the left one and a column of the right one hold the same
value; a missing value matches nothing. The rows come in the order of the left side, the unmatched
rows of the right side at the end. Where a side has no match, its columns are null.
-/

namespace FlatFileDb.Relation

/-- Whether two keys match. -/
def keysMatch (left right : String) : Bool :=
  !Field.isNull left && !Field.isNull right && left == right

/-- A row of nulls. -/
def nullRow (width : Nat) : List String :=
  List.replicate width Field.nullText

/-- The positions of the joined columns. The two names may be written in either order. -/
def joinColumns (left right : Relation) (join : Join) : Except Error (Nat × Nat) :=
  match left.resolve? join.left, right.resolve? join.right with
  | some l, some r => .ok (l, r)
  | leftPosition, _ =>
    match left.resolve? join.right, right.resolve? join.left with
    | some l, some r => .ok (l, r)
    | _, _ =>
      match leftPosition with
      | none => .error (.unknownColumn join.left left.name)
      | some _ => .error (.unknownColumn join.right right.name)

/-- Whether the kind of join keeps rows of the left side that have no match. -/
def keepsLeft : JoinKind → Bool
  | .left | .full => true
  | _ => false

/-- Whether the kind of join keeps rows of the right side that have no match. -/
def keepsRight : JoinKind → Bool
  | .right | .full => true
  | _ => false

/-- The rows of a join on the given columns. -/
def joinRows (kind : JoinKind) (left right : Relation) (leftColumn rightColumn : Nat) :
    List (List String) :=
  let matching := fun l r => keysMatch (fieldAt l leftColumn) (fieldAt r rightColumn)
  let fromLeft := left.rows.flatMap fun l =>
    let partners := right.rows.filter (matching l)
    if partners.isEmpty && keepsLeft kind then [l ++ nullRow right.attributes.length]
    else partners.map (l ++ ·)
  let unmatched := right.rows.filter fun r => !left.rows.any fun l => matching l r
  if keepsRight kind then fromLeft ++ unmatched.map (nullRow left.attributes.length ++ ·)
  else fromLeft

/-- The join of two relations. Its header is fully qualified. -/
def join (left right : Relation) (clause : Join) : Except Error Relation := do
  let (leftColumn, rightColumn) ← joinColumns left right clause
  return {
    name := left.name
    attributes := (left.attributes ++ right.attributes).map fun a => { a with name := a.qualified }
    rows := joinRows clause.kind left right leftColumn rightColumn }

end FlatFileDb.Relation
