import FlatFileDb.Shell.Session

/-!
# The program

What a run takes from its surroundings and what it leaves behind: variables of the environment, the
files of the data directory, and lines of input and output. The data directory is read once at the
start; after every line what changed is written back.
-/

namespace FlatFileDb.Main

open Shell

/-- The time in nanoseconds, as the file system notes it on a new file. -/
def clock : IO Nat := do
  let (_, file) ← IO.FS.createTempFile
  let time := (← file.metadata).modified
  IO.FS.removeFile file
  return time.sec.toNat * 1000000000 + time.nsec.toNat

/-- The entries below a directory. A file that holds no text is left out. -/
def load (place : String) : IO Disk := do
  IO.FS.createDirAll place
  let root ← IO.FS.realPath place
  let mut disk := Disk.empty
  for file in ← root.walkDir do
    let path := file.components.drop root.components.length
    if ← file.isDir then
      disk := disk.put path .directory
    else if let some text := String.fromUTF8? (← IO.FS.readBinFile file) then
      disk := disk.put path (.file text)
  return disk

/-- Writes the entries that are not as they were before. -/
def save (place : String) (before after : Disk) : IO Unit := do
  for ((_, path), entry) in after.entries.entries do
    unless before.at? path == some entry do
      let target := "/".intercalate (if path.head? == some Path.root then path else place :: path)
      match entry with
      | .directory => IO.FS.createDirAll target
      | .file text => IO.FS.writeFile target text

/-- Prints to both channels. -/
def emit (transcript : Transcript) : IO Unit := do
  IO.print transcript.out
  (← IO.getStdout).flush
  IO.eprint transcript.err

/-- Prints what a shell has said, and writes what it changed. -/
def settle (place : String) (before : Disk) (state : State) : IO State := do
  save place before state.engine.disk
  emit state.transcript
  return { state with transcript := .empty }

/-- Takes lines until the input ends or one of them says to quit. -/
partial def converse (place : String) (state : State) : IO Unit := do
  emit (Transcript.empty.print prompt)
  let line ← (← IO.getStdin).getLine
  if line.isEmpty then return
  match state.takeLine? line.toList with
  | none => return
  | some next => converse place (← settle place state.engine.disk next)

/-- Prints how a run ended, and writes what it changed. -/
def conclude (place : String) (before : Disk) (ending : Ending) : IO UInt32 := do
  save place before ending.disk
  emit ending.transcript
  return ending.code.toUInt32

end FlatFileDb.Main

open FlatFileDb FlatFileDb.Shell

/-- Runs the arguments as one statement, or the lines of the input. -/
def main (arguments : List String) : IO UInt32 := do
  let place := (← IO.getEnv "MAUNG_DATA_DIR").getD Settings.standard.dataDirectory
  let surroundings : Surroundings := {
    user := ← IO.getEnv "MAUNG_USER"
    role := ← IO.getEnv "MAUNG_ROLE"
    database := ← IO.getEnv "MAUNG_DB" }
  let settings := { Settings.standard with dataDirectory := place }
  let disk ← Main.load place
  match start settings surroundings (← Main.clock) disk with
  | .error ending => Main.conclude place disk ending
  | .ok state =>
    if arguments.isEmpty then
      Main.converse place (← Main.settle place disk (state.print banner))
      Main.emit (Transcript.empty.print farewell)
      return 0
    else Main.conclude place disk (runOnce state (" ".intercalate arguments))
