import FlatFileDb.Disk.Basic
import FlatFileDb.Json.Parser
import FlatFileDb.Json.Printer
import FlatFileDb.Text.Lines

/-!
# The log file

Entries stand in the log one a line. Reading passes over the lines that hold no entry. The entries
written are numbered from behind the highest number that was readable when the log was opened. Numbers
have 64 bits: behind the last one comes zero.
-/

namespace FlatFileDb

-- Powers are those of the core library, whatever else is imported.
attribute [local instance (2000)] instPowNat

/-- An open log. -/
structure Log where
  path : Path
  /-- The number of the next entry. -/
  next : Nat
  deriving DecidableEq, Repr

namespace Log

/-- The entry on a line. -/
def readEntry? (line : String) : Option Entry :=
  (Json.ofText? line).bind Entry.ofJson?

/-- The entries that a log text holds. -/
def entriesOf (text : String) : List Entry :=
  (Text.filledLines text).filterMap readEntry?

/-- The line of an entry. -/
def line (entry : Entry) : String :=
  entry.toJson.compact

/-- The number that comes `count` places behind another one. -/
def numberAfter (number count : Nat) : Nat :=
  (number + count) % 2 ^ (64 : Nat)

/-- The number behind the highest one. -/
def nextNumber (entries : List Entry) : Nat :=
  numberAfter (entries.foldl (fun highest entry => max highest entry.number) 0) 1

/-- Entries numbered one after the other. -/
def numbered (first : Nat) : List Entry → List Entry
  | [] => []
  | entry :: rest => { entry with number := first } :: numbered (numberAfter first 1) rest

/-- All readable entries of a log. -/
def entries (disk : Disk) (log : Log) : Except Error (List Entry) := do
  return entriesOf (← disk.textOr .fileFailure log.path)

/-- Opens a log, and makes its file where there is none. -/
def openAt (path : Path) : Action Disk Log := do
  Disk.makeDirectories path.holder
  let disk ← Action.get
  if disk.hasEntry path then
    let found ← Action.ofExcept (entries disk { path, next := 1 })
    return { path, next := nextNumber found }
  else
    Disk.writeFile path ""
    return { path, next := 1 }

/-- Writes numbered entries behind the log. -/
def write (log : Log) (entries : List Entry) : Action Disk Unit :=
  Disk.appendFile .fileFailure log.path (Text.ofLines (entries.map line))

end Log

end FlatFileDb
