import FlatFileDb.Number.Integer
import FlatFileDb.Outcome

/-!
# Results as a grid

A result is printed under its header, every column as wide as its widest text: the header centred, a
half blank too much going to the right, the rows flush left.
-/

namespace FlatFileDb.Shell

/-- Some blanks. -/
def blanks (count : Nat) : String :=
  String.ofList (List.replicate count ' ')

/-- The widths of the columns. What a row has beyond the header does not count. -/
def widths (columns : List String) (rows : List (List String)) : List Nat :=
  rows.foldl
    (fun widths row =>
      (widths.zip (row.map some ++ List.replicate widths.length none)).map fun (width, field) =>
        max width ((field.map String.length).getD 0))
    (columns.map String.length)

/-- A text in the middle of a column. -/
def centred (width : Nat) (text : String) : String :=
  let free := width - text.length
  blanks (free / 2) ++ text ++ blanks (free - free / 2)

/-- A text at the left of a column. -/
def flushLeft (width : Nat) (text : String) : String :=
  text ++ blanks (width - text.length)

/-- One line of cells. -/
def gridLine (place : Nat → String → String) (widths : List Nat) (texts : List String) : String :=
  let cells := (texts.zip widths).map fun (text, width) => " " ++ place width text ++ " "
  "|" ++ "|".intercalate cells ++ "|\n"

/-- The line between header and rows. -/
def gridRule (widths : List Nat) : String :=
  let dashes := widths.map fun width => String.ofList (List.replicate (width + 2) '-')
  "+" ++ "+".intercalate dashes ++ "+\n"

/-- A header with rows as a grid, and how many rows there are. -/
def grid (columns : List String) (rows : List (List String)) : String :=
  let widths := widths columns rows
  let rule := gridRule widths
  let count := String.ofList (Number.decimalDigits rows.length)
  rule ++ gridLine centred widths columns ++ rule
    ++ String.join (rows.map (gridLine flushLeft widths))
    ++ (if rows.isEmpty then "" else rule)
    ++ s!"{count} row(s) returned\n"

/-- What is printed of an outcome. -/
def printed (outcome : Outcome) : String :=
  (if outcome.columns.isEmpty then "" else grid outcome.columns outcome.rows)
    ++ (match outcome.message with
      | some message => message ++ "\n"
      | none => "")

end FlatFileDb.Shell
