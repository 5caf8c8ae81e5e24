import FlatFileDb.Schema.Column
import FlatFileDb.Text.Alphanumeric
import FlatFileDb.Text.Bytes
import FlatFileDb.Text.Case

/-!
# Column definitions

The text that defines the columns of a table: items `name:TYPE(arguments):constraint…` with commas
between them. The list is cut at the commas outside of parentheses first, so that a comma among the
arguments of a type belongs to the type; then each item is read on its own, to its end.
-/

namespace FlatFileDb.Definition

/-! ### Cutting the list -/

/-- The parenthesis depth after a character. -/
def depthAfter (depth : Int) (c : Char) : Int :=
  if c == '(' then depth + 1 else if c == ')' then depth - 1 else depth

/-- Cuts at every comma at depth zero. -/
def cut (depth : Int) : List Char → List (List Char)
  | [] => [[]]
  | c :: rest =>
    if c == ',' && depth == 0 then [] :: cut depth rest
    else (cut (depthAfter depth c) rest).modifyHead (c :: ·)

/-- The items of a definition, trimmed. A blank item counts unless it is the last. -/
def items (s : List Char) : List (List Char) :=
  let pieces := (cut 0 s).map Text.trim
  if pieces.getLast? == some [] then pieces.dropLast else pieces

/-! ### Reading one item

Each reader takes the characters that are left and returns what it read with what is left after it.
-/

/-- A blank that may stand between the parts of an item. -/
def isGap (c : Char) : Bool :=
  c == ' ' || c == '\t' || c == '\r' || c == '\n'

/-- Leaves out blanks. -/
def skipGap (s : List Char) : List Char :=
  s.dropWhile isGap

/-- Leaves out blanks, at least one. -/
def skipSomeGap? : List Char → Option (List Char)
  | [] => none
  | c :: rest => if isGap c then some (skipGap rest) else none

/-- A character that must come next. -/
def symbol? (c : Char) : List Char → Option (List Char)
  | [] => none
  | d :: rest => if c == d then some rest else none

/-- Whether two texts have the same letters, in any case, as far as both of them go. -/
def agree (s t : List Char) : Bool :=
  (s.zip t).all fun (c, d) => Text.lowerChar c == Text.lowerChar d

/-- A word that must come next, in any case. What is read is as many bytes as the word takes, so that
a letter of several bytes that has a small form in the word stands for more than one letter of it. -/
def keyword? (word : String) (s : List Char) : Option (List Char) :=
  if agree s word.toList then Text.dropBytes? (Text.byteCount word.toList) s else none

/-- A name. -/
def name? (s : List Char) : Option (String × List Char) :=
  let taken := s.takeWhile Text.isNameChar
  if taken.isEmpty then none else some (String.ofList taken, s.dropWhile Text.isNameChar)

/-- The arguments of a type up to the first closing parenthesis, trimmed. -/
def arguments? (s : List Char) : Option (List String × List Char) := do
  let rest ← symbol? '(' s
  let inside := rest.takeWhile fun c => c != ')'
  let rest ← symbol? ')' (rest.dropWhile fun c => c != ')')
  return ((inside.splitOn ',').map fun a => String.ofList (Text.trim a), rest)

/-- A referenced column, `table.column`. -/
def reference? (s : List Char) : Option (Reference × List Char) := do
  let (table, rest) ← name? s
  let rest ← symbol? '.' rest
  let (column, rest) ← name? rest
  return (⟨table, column⟩, rest)

/-- Two words with blanks between them. -/
def twoWords? (first second : String) (s : List Char) : Option (List Char) := do
  keyword? second (← skipSomeGap? (← keyword? first s))

def primaryKey? (s : List Char) : Option (List Char) :=
  keyword? "PRIMARY_KEY" s <|> twoWords? "PRIMARY" "KEY" s <|> keyword? "PK" s

def notNull? (s : List Char) : Option (List Char) :=
  keyword? "NOT_NULL" s <|> twoWords? "NOT" "NULL" s

/-- A referenced column in parentheses. -/
def parenthesized? (s : List Char) : Option (Reference × List Char) := do
  let (target, rest) ← reference? (← symbol? '(' (← keyword? "FK" s))
  return (target, ← symbol? ')' rest)

def foreignKey? (s : List Char) : Option (Reference × List Char) :=
  parenthesized? s
    <|> (do reference? (← skipSomeGap? (← twoWords? "FOREIGN" "KEY" s)))
    <|> (do reference? (← skipSomeGap? (← keyword? "REF" s)))

/-- A constraint in one of its spellings; the first that fits counts. -/
def constraint? (s : List Char) : Option (Constraint × List Char) :=
  ((primaryKey? s).map fun rest => (.primaryKey, rest))
    <|> ((keyword? "UNIQUE" s).map fun rest => (.unique, rest))
    <|> ((notNull? s).map fun rest => (.notNull, rest))
    <|> ((foreignKey? s).map fun (target, rest) => (.references target, rest))

/-- As many constraints as there are, each behind a colon; `fuel` bounds their number. -/
def constraints : Nat → List Char → List Constraint × List Char
  | 0, s => ([], s)
  | fuel + 1, s =>
    match (do constraint? (skipGap (← symbol? ':' (skipGap s)))) with
    | some (constraint, rest) =>
      let (more, rest) := constraints fuel rest
      (constraint :: more, rest)
    | none => ([], s)

/-- The parts of an item: name, type name, arguments and constraints. -/
def parts? (s : List Char) :
    Option (String × String × List String × List Constraint) := do
  let (name, rest) ← name? (skipGap s)
  let (typeName, rest) ← name? (skipGap (← symbol? ':' (skipGap rest)))
  let (arguments, rest) := (arguments? rest).getD ([], rest)
  let (constraints, rest) := constraints rest.length rest
  if (skipGap rest).isEmpty then some (name, typeName, arguments, constraints) else none

/-! ### Columns -/

/-- The column that one item defines. -/
def column (item : String) : Except Error Column :=
  match parts? item.toList with
  | none => .error (.malformedColumn item)
  | some (name, typeName, arguments, constraints) => do
    let type ← DataType.ofParts typeName arguments
    return constraints.foldl Column.constrain (Column.plain name type)

/-- Reads items one by one behind the columns already read; no two may have the same name. -/
def columnsAfter (done : List Column) : List (List Char) → Except Error (List Column)
  | [] => .ok done
  | item :: rest => do
    let column ← column (String.ofList item)
    if done.any fun other => other.name == column.name then
      throw (.duplicateColumn column.name)
    columnsAfter (done ++ [column]) rest

/-- The columns that a definition lists. -/
def columns (text : String) : Except Error (List Column) :=
  match items text.toList with
  | [] => .error (.malformedColumn text)
  | items => columnsAfter [] items

end FlatFileDb.Definition
