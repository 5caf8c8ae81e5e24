import FlatFileDb.Engine.Execute
import FlatFileDb.Shell.Grid
import FlatFileDb.Shell.Texts
import FlatFileDb.Shell.Typing

/-!
# The shell

A run of the program is a function: from what surrounds it, its arguments, the lines it is given and
the data directory to what it prints, its exit code and the data directory after it. With arguments
it runs them as one statement; without, it reads lines until the input ends or it is told to quit.
Commands of the shell itself start with a point.
-/

namespace FlatFileDb.Shell

/-- What surrounds a run: user, role and database where they are given. -/
structure Surroundings where
  user : Option String
  role : Option String
  database : Option String

/-- What was printed so far, to either channel. -/
structure Transcript where
  out : String
  err : String

namespace Transcript

/-- Nothing. -/
def empty : Transcript := { out := "", err := "" }

/-- Something more on the first channel. -/
def print (transcript : Transcript) (text : String) : Transcript :=
  { transcript with out := transcript.out ++ text }

/-- One more line of complaint. -/
def complain (transcript : Transcript) (line : String) : Transcript :=
  { transcript with err := transcript.err ++ line ++ "\n" }

end Transcript

/-- A shell between two lines. -/
structure State where
  engine : Engine
  session : Session
  transcript : Transcript

namespace State

/-- The shell after printing something. -/
def print (state : State) (text : String) : State :=
  { state with transcript := state.transcript.print text }

/-- The shell after printing a complaint. -/
def complain (state : State) (line : String) : State :=
  { state with transcript := state.transcript.complain line }

/-- The shell after a statement. -/
def runStatement (state : State) (text : String) : State :=
  match Engine.run state.session text state.engine with
  | (.ok outcome, engine) => { state with engine }.print (printed outcome)
  | (.error e, engine) => { state with engine }.complain e.message

/-- Makes a database. -/
def createDatabase (state : State) (name : String) : State :=
  match Engine.onDisk (Database.create name) state.engine with
  | (.ok (), engine) => { state with engine }.print s!"Database '{name}' created\n"
  | (.error e, engine) => { state with engine }.complain e.message

/-- Selects a database that is there. -/
def useDatabase (state : State) (name : String) : State :=
  if Database.isPresent state.engine.disk name then
    match state.session.useDatabase name with
    | .ok session => { state with session }.print s!"Using database '{name}'\n"
    | .error e => state.complain e.message
  else state.complain s!"Database '{name}' not found"

/-- Shows who is asking. -/
def whoAmI (state : State) : State :=
  match state.session.identity with
  | .ok who =>
    let role := who.role.name
    let user := who.user
    let database := who.database.getD "<no database>"
    state.print s!"{user} ({role}) on {database}\n"
  | .error e => state.complain e.message

/-- Runs a command of the shell; none when it says to quit. -/
def command? (state : State) : List String → Option State
  | [] => some state
  | ".help" :: _ => some (state.print help)
  | ".quit" :: _ => none
  | ".exit" :: _ => none
  | [".createdb"] => some (state.complain "Usage: .createdb <name>")
  | ".createdb" :: name :: _ => some (state.createDatabase name)
  | [".use"] => some (state.complain "Usage: .use <name>")
  | ".use" :: name :: _ => some (state.useDatabase name)
  | ".whoami" :: _ => some state.whoAmI
  | other :: _ => some <|
    (state.complain s!"Unknown command: {other}").complain
      "Type '.help' for available commands."

/-- Takes one line; none when it says to quit. -/
def takeLine? (state : State) (line : List Char) : Option State :=
  match Text.trim (takeBack line) with
  | [] => some state
  | '.' :: rest => state.command? ((Text.words ('.' :: rest)).map String.ofList)
  | text => some (state.runStatement (String.ofList text))

/-- Takes the lines that are given, with a prompt before each and before the end. -/
def takeLines (state : State) : List (List Char) → State
  | [] => state.print prompt
  | line :: rest =>
    let prompted := state.print prompt
    match prompted.takeLine? line with
    | some next => takeLines next rest
    | none => prompted

end State

/-- How a run ended. -/
structure Ending where
  code : Nat
  transcript : Transcript
  disk : Disk

/-- A failure that ends a run: what was attempted, and the cause, indented. -/
def failure (attempt : String) (cause : Error) (disk : Disk) : Ending :=
  let lines := (cause.message.toList.splitOn '\n').map fun line => "    " ++ String.ofList line
  let detail := "\n".intercalate lines
  { code := 1
    transcript := Transcript.empty.complain s!"Error: {attempt}\n\nCaused by:\n{detail}"
    disk }

/-- The identity that the surroundings give. -/
def identityOf (surroundings : Surroundings) : Except Error Identity := do
  let role ← Role.ofWord (surroundings.role.getD "supermaung")
  return {
    user := surroundings.user.getD "maung"
    role
    database := surroundings.database.filter fun name => !name.isEmpty }

/-- A shell over a data directory that has said nothing yet; or the ending where there can be none. -/
def start (settings : Settings) (surroundings : Surroundings) (clock : Nat) (disk : Disk) :
    Except Ending State :=
  match identityOf surroundings with
  | .error e => .error (failure "invalid MAUNG_ROLE" e disk)
  | .ok who =>
    match Engine.openOn settings clock disk with
    | .error e => .error (failure "failed to open data directory" e disk)
    | .ok engine => .ok { engine, session := some who, transcript := .empty }

/-- Runs a single statement. -/
def runOnce (state : State) (statement : String) : Ending :=
  match Engine.run state.session statement state.engine with
  | (.ok outcome, engine) =>
    { code := 0, transcript := state.transcript.print (printed outcome), disk := engine.disk }
  | (.error e, engine) => failure "statement failed" e engine.disk

/-- Runs the lines of an input. -/
def runLines (state : State) (input : String) : Ending :=
  let final := ((state.print banner).takeLines ((Text.lines input).map String.toList)).print farewell
  { code := 0, transcript := final.transcript, disk := final.engine.disk }

/-- A whole run of the program. -/
def run (settings : Settings) (surroundings : Surroundings) (arguments : List String)
    (input : String) (clock : Nat) (disk : Disk) : Ending :=
  match start settings surroundings clock disk with
  | .error ending => ending
  | .ok state =>
    if arguments.isEmpty then runLines state input
    else runOnce state (" ".intercalate arguments)

end FlatFileDb.Shell
