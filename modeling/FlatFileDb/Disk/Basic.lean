import FlatFileDb.Action
import FlatFileDb.Disk.Path
import FlatFileDb.Keyed
import FlatFileDb.Sort

/-!
# The disk

What lies in the data directory: files with their texts, and directories. A way is followed part by
part from the data directory, so that a missing part and a file in the way are told apart: only the
first means that nothing is there. A way may lead out of the data directory. The directories above it
are there; of what else they hold only that is known which was put there.
-/

namespace FlatFileDb

/-- What lies at a path. -/
inductive DiskEntry where
  | file (text : String)
  | directory
  deriving DecidableEq, Repr

/-- What lies at each place, by the depth of the place and the place itself, so that places at
different depths are told apart without a look at their parts. The data directory itself and those
that hold it are not listed. -/
structure Disk where
  entries : Keyed (Nat × Path) DiskEntry
  deriving DecidableEq, Repr

/-- Why nothing was found at a path. -/
inductive DiskFailure where
  /-- Nothing lies there. -/
  | missing
  /-- Something else lies there or in the way, or the name is impossible. -/
  | blocked
  deriving DecidableEq, Repr

namespace Disk

/-- The empty data directory. -/
def empty : Disk := ⟨.empty⟩

variable (disk : Disk)

/-- What lies at a place. -/
def at? (place : Path) : Option DiskEntry :=
  disk.entries.get? (place.length, place)

/-- The disk with an entry at a place, in the stead of what was there. -/
def put (place : Path) (entry : DiskEntry) : Disk :=
  ⟨disk.entries.insert (place.length, place) entry⟩

@[simp] theorem at?_empty (place : Path) : empty.at? place = none := rfl

@[simp] theorem at?_put (place other : Path) (entry : DiskEntry) :
    (disk.put place entry).at? other = if other == place then some entry else disk.at? other := by
  by_cases h : other = place <;> simp [at?, put, h]

/-- Follows the parts of a way from the directory `here`: the place where it ends, and what lies
there. -/
def follow (here : Path) : List String → Except DiskFailure (Path × DiskEntry)
  | [] => .ok (here, .directory)
  | part :: rest =>
    if Path.stays part then follow here rest
    else if part == Path.root then follow [part] rest
    else if part == Path.upwards then follow (Path.above here) rest
    else if Path.fits part then
      match disk.at? (here ++ [part]) with
      | none => .error .missing
      | some .directory => follow (here ++ [part]) rest
      | some (.file text) =>
        if rest.isEmpty then .ok (here ++ [part], .file text) else .error .blocked
    else .error .blocked

/-- Where a path leads, and what lies there. -/
def locate (path : Path) : Except DiskFailure (Path × DiskEntry) :=
  if path.isSound then disk.follow [] path else .error .blocked

/-- What lies at a path. -/
def entryAt (path : Path) : Except DiskFailure DiskEntry :=
  (disk.locate path).map Prod.snd

/-- Whether anything lies at a path. -/
def hasEntry (path : Path) : Bool :=
  match disk.entryAt path with
  | .ok _ => true
  | .error _ => false

/-- Whether a directory lies at a path. -/
def hasDirectory (path : Path) : Bool :=
  match disk.entryAt path with
  | .ok .directory => true
  | _ => false

/-- Whether a file lies at a path. -/
def hasFile (path : Path) : Bool :=
  match disk.entryAt path with
  | .ok (.file _) => true
  | _ => false

/-- The text of a file. -/
def textAt (path : Path) : Except DiskFailure String :=
  match disk.entryAt path with
  | .ok (.file text) => .ok text
  | .ok .directory => .error .blocked
  | .error failure => .error failure

/-- The text of a file; `missing` is the error when nothing lies there. -/
def textOr (missing : Error) (path : Path) : Except Error String :=
  match disk.textAt path with
  | .ok text => .ok text
  | .error .missing => .error missing
  | .error .blocked => .error .fileFailure

/-- The names in a directory, sorted. -/
def namesIn (path : Path) : List String :=
  match disk.locate path with
  | .ok (place, .directory) =>
    sortTexts <| disk.entries.keys.filterMap fun (depth, other) =>
      if depth == place.length + 1 && other.dropLast == place then other.getLast? else none
  | _ => []

/-- The paths of everything in the data directory, sorted; that of a directory ends in a slash. -/
def listing : List String :=
  sortTexts <| (disk.entries.entries.filter fun ((_, place), _) => !place.isOutside).map
    fun ((_, place), entry) => "/".intercalate place ++ match entry with
      | .directory => "/"
      | .file _ => ""

/-- Where a file for a path is to be written: its directory must be there, and no directory may lie
at the path itself. -/
def filePlace? (path : Path) : Option Path :=
  match path.getLast?, disk.locate path.dropLast with
  | some name, .ok (place, .directory) =>
    if path.isSound && Path.isName name && !disk.hasDirectory path then some (place ++ [name])
    else none
  | _, _ => none

/-- Writes a text to a file, new or not. -/
def writeFile (path : Path) (text : String) : Action Disk Unit := fun disk =>
  match disk.filePlace? path with
  | some place => (.ok (), disk.put place (.file text))
  | none => (.error .fileFailure, disk)

/-- Writes a text behind the text of a file; `missing` is the error when nothing lies there. -/
def appendFile (missing : Error) (path : Path) (text : String) : Action Disk Unit := do
  let before ← Action.read (·.textOr missing path)
  writeFile path (before ++ text)

/-- Whether the rest of a way only stays, and says so by a point. -/
def endsInPoint (rest : List String) : Bool :=
  rest.all Path.stays && rest.contains "."

/-- Makes the directories on the way from `here`, those that are not there yet. What is followed by
nothing but a point is not made: it must be there. -/
def makeDirectoriesFrom (here : Path) : List String → Action Disk Unit
  | [] => pure ()
  | part :: rest => fun disk =>
    if Path.stays part then makeDirectoriesFrom here rest disk
    else if part == Path.root then makeDirectoriesFrom [part] rest disk
    else if part == Path.upwards then makeDirectoriesFrom (Path.above here) rest disk
    else
      match disk.at? (here ++ [part]) with
      | some .directory => makeDirectoriesFrom (here ++ [part]) rest disk
      | some (.file _) => (.error .fileFailure, disk)
      | none =>
        if Path.fits part && !endsInPoint rest then
          makeDirectoriesFrom (here ++ [part]) rest (disk.put (here ++ [part]) .directory)
        else (.error .fileFailure, disk)

/-- Makes a directory with all directories above it. -/
def makeDirectories (path : Path) : Action Disk Unit :=
  if path.isSound then makeDirectoriesFrom [] path else throw .fileFailure

end Disk

end FlatFileDb
