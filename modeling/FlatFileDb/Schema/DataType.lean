import FlatFileDb.Error
import FlatFileDb.Number.Binary64
import FlatFileDb.Text.Blank
import FlatFileDb.Text.Case

/-!
# Column types

The types that a column may have, which texts each of them takes, and how a type is written and
read. Which texts a type takes is decided on the text alone; a missing value is a matter of the
column.
-/

namespace FlatFileDb

-- Powers and sums are those of the core library, whatever else is imported.
attribute [local instance (2000)] instPowNat Zero.ofOfNat0

/-- The type of a column. -/
inductive DataType where
  | int
  | float
  | string
  | text
  | bool
  | date
  /-- Texts of at most `length` characters. -/
  | char (length : Nat)
  /-- One of the listed texts. -/
  | enum (variants : List String)
  deriving DecidableEq, Repr

namespace DataType

/-- The written form of a type. -/
def render : DataType → String
  | int => "INT"
  | float => "FLOAT"
  | string => "STRING"
  | text => "TEXT"
  | bool => "BOOL"
  | date => "DATE"
  | char length => "CHAR(" ++ String.ofList (Number.decimalDigits length) ++ ")"
  | enum variants => "ENUM(" ++ ",".intercalate variants ++ ")"

/-- Whether values of the type are numbers. -/
def isNumeric : DataType → Bool
  | int | float => true
  | _ => false

/-! ### Reading a type -/

def isQuote (c : Char) : Bool :=
  c == '"' || c.toNat == 0x27

/-- A variant without the blanks and quotes around it. -/
def trimVariant (s : List Char) : List Char :=
  (((Text.trim s).dropWhile isQuote).reverse.dropWhile isQuote).reverse

/-- The type where no arguments are written. -/
def withoutArguments (name : String) (arguments : List String) (type : DataType) :
    Except Error DataType :=
  if arguments.isEmpty then .ok type else .error (.typeWithArguments name)

/-- The type of short texts with the length that is its only argument. -/
def charOf : List String → Except Error DataType
  | [length] =>
    match Number.readNatural? (2 ^ (64 : Nat)) (Text.trim length.toList) with
    | some n => .ok (char n)
    | none => .error (.badLength length)
  | _ => .error .lengthMissing

/-- The type of the texts that are its arguments. -/
def enumOf (arguments : List String) : Except Error DataType :=
  let variants := (arguments.map fun a => trimVariant a.toList).filter fun v => !v.isEmpty
  if variants.isEmpty then .error .variantsMissing else .ok (enum (variants.map String.ofList))

/-- The type with the given name, in any case, and arguments. -/
def ofParts (name : String) (arguments : List String) : Except Error DataType :=
  let upper := Text.toUpper name
  if upper == "INT" || upper == "INTEGER" then withoutArguments name arguments int
  else if upper == "FLOAT" || upper == "DOUBLE" then withoutArguments name arguments float
  else if upper == "STRING" || upper == "VARCHAR" then withoutArguments name arguments string
  else if upper == "TEXT" then withoutArguments name arguments text
  else if upper == "BOOL" || upper == "BOOLEAN" then withoutArguments name arguments bool
  else if upper == "DATE" then withoutArguments name arguments date
  else if upper == "CHAR" then charOf arguments
  else if upper == "ENUM" then enumOf arguments
  else .error (.unknownType upper)

/-! ### The texts of a type -/

/-- Whether a year has a 29th of February. -/
def isLeapYear (year : Nat) : Bool :=
  (year % 4 == 0 && year % 100 != 0) || year % 400 == 0

/-- How many days a month has; none if there is no such month. -/
def daysInMonth? (year month : Nat) : Option Nat :=
  if month = 2 then some (if isLeapYear year then 29 else 28)
  else if month = 4 ∨ month = 6 ∨ month = 9 ∨ month = 11 then some 30
  else if 1 ≤ month ∧ month ≤ 12 then some 31
  else none

/-- The year, month and day that a text spells in four, two and two bytes, if there is such a day.
Each part is read as a natural number of 32 bits. -/
def calendarDate? (s : List Char) : Option (Nat × Nat × Nat) :=
  match s.splitOn '-' with
  | [year, month, day] =>
    if (year.map Char.utf8Size).sum = 4 ∧ (month.map Char.utf8Size).sum = 2
        ∧ (day.map Char.utf8Size).sum = 2 then do
      let year ← Number.readNatural? (2 ^ (32 : Nat)) year
      let month ← Number.readNatural? (2 ^ (32 : Nat)) month
      let day ← Number.readNatural? (2 ^ (32 : Nat)) day
      let last ← daysInMonth? year month
      if 1 ≤ day ∧ day ≤ last then some (year, month, day) else none
    else none
  | _ => none

/-- Whether a text is a value of the type. -/
def accepts (type : DataType) (value : String) : Bool :=
  match type with
  | int => (Number.readInteger? value.toList).isSome
  | float => (Number.Binary64.read? value.toList).isSome
  | string | text => true
  | bool =>
    Text.equalsIgnoringAsciiCase value.toList "true".toList
      || Text.equalsIgnoringAsciiCase value.toList "false".toList
  | date => (calendarDate? value.toList).isSome
  | char length => value.toList.length ≤ length
  | enum variants => variants.contains value

end DataType

end FlatFileDb
