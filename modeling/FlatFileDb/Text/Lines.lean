import FlatFileDb.Text.Blank

/-!
# Lines

A line ends in a line feed, before which one carriage return is left out; what stands behind the last
line feed is a line too unless it is empty. Blank lines count for nothing in the files kept here.
-/

namespace FlatFileDb.Text

/-- A terminated line without the carriage return at its end. -/
def dropReturn (line : String) : String :=
  if line.endsWith '\r' then String.ofList line.toList.dropLast else line

/-- The lines among the pieces between line feeds. -/
def terminated : List String → List String
  | [] => []
  | [last] => if last.isEmpty then [] else [last]
  | line :: rest => dropReturn line :: terminated rest

/-- The lines of a text. -/
def lines (text : String) : List String :=
  terminated ((text.toList.splitOn '\n').map String.ofList)

/-- The lines of a text that are not blank. -/
def filledLines (text : String) : List String :=
  (lines text).filter fun line => !line.toList.all isBlank

/-- The text of some lines, each with a line feed behind it. -/
def ofLines (lines : List String) : String :=
  String.join (lines.map fun line => line ++ "\n")

theorem toList_ofLines (lines : List String) :
    (ofLines lines).toList = lines.flatMap fun line => line.toList ++ ['\n'] := by
  simp [ofLines, List.flatMap_map]

end FlatFileDb.Text
