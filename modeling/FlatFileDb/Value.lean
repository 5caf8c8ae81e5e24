import FlatFileDb.Number.Shortest
import FlatFileDb.Row
import FlatFileDb.Schema.DataType

/-!
# Values and their order

Rows are texts. To be compared a field is taken as a value of its column's type: numbers and truth
values compare as such, everything else as text. Texts whose type is not known compare as numbers if
both are numbers, else as texts.
-/

namespace FlatFileDb

open Number

/-- A field taken as a value of its column's type. -/
inductive Value where
  | null
  | boolean (value : Bool)
  | integer (value : Int)
  | float (value : Binary64)
  /-- A text, also where a number or a truth value should stand but none does. -/
  | text (value : String)
  deriving DecidableEq, Repr

namespace Value

/-- The value of a field in a column of the given type. -/
def ofField (type : DataType) (field : String) : Value :=
  if Field.isNull field then null
  else
    match type with
    | .int => (readInteger? field.toList).elim (text field) integer
    | .float => (Binary64.ofString? field).elim (text field) float
    | .bool =>
      let small := Text.toLower field
      if small == "true" then boolean true
      else if small == "false" then boolean false
      else text field
    | _ => text field

/-- The order of two values of one kind; values of different kinds have none. -/
def compare? : Value → Value → Option Ordering
  | null, null => some .eq
  | boolean a, boolean b => some (compare a.toNat b.toNat)
  | integer a, integer b => some (compare a b)
  | float a, float b => a.compare? b
  | text a, text b => some (compare a b)
  | _, _ => none

/-- The text of a value. -/
def render : Value → String
  | null => Field.nullText
  | boolean b => if b then "true" else "false"
  | integer n => String.ofList (integerText n)
  | float x => x.toText
  | text s => s

end Value

/-- A text of unknown type, with the number that it spells if it spells one. -/
structure Loose where
  text : String
  number? : Option Binary64
  deriving DecidableEq, Repr

namespace Loose

/-- A text, read as a number if it is one. -/
def ofText (text : String) : Loose :=
  { text, number? := Binary64.ofString? text }

/-- By value if both are numbers, else as texts. Where a number has no place in the order, they count
as equal. -/
def compare (a b : Loose) : Ordering :=
  match a.number?, b.number? with
  | some x, some y => (x.compare? y).getD .eq
  | _, _ => Ord.compare a.text b.text

end Loose

/-- The order of two texts of unknown type. -/
def compareLoose (a b : String) : Ordering :=
  (Loose.ofText a).compare (Loose.ofText b)

end FlatFileDb
