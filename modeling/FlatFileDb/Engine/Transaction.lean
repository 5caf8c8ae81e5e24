import FlatFileDb.Engine.State

/-!
# Transactions

The changes of a transaction wait in memory. A commit writes all of them to the log first and then
applies them to the tables in order, up to the first that cannot be applied.
-/

namespace FlatFileDb

namespace Log.Entry

/-- Makes the change that an entry records. -/
def perform (entry : Entry) : Action Disk Unit :=
  match entry.operation with
  | .insert => Table.append entry.database entry.table entry.row
  | .update => Table.replaceRow entry.database entry.table entry.rowId entry.row
  | .delete => Table.removeRow entry.database entry.table entry.rowId

/-- Makes the changes of entries in order up to the first that fails: the entries whose change was
made, and the failure if there was one. -/
def performAll : List Entry → Disk → (List Entry × Option Error) × Disk
  | [], disk => (([], none), disk)
  | entry :: rest, disk =>
    match entry.perform disk with
    | (.ok (), disk) =>
      let ((done, failure), disk) := performAll rest disk
      ((entry :: done, failure), disk)
    | (.error e, disk) => (([], some e), disk)

end Log.Entry

namespace Engine

/-- Whether a user has a transaction in progress. -/
def inTransaction (engine : Engine) (user : String) : Bool :=
  engine.transactions.contains user

/-- How many changes wait in the transaction of a user. -/
def pending (engine : Engine) (user : String) : Nat :=
  ((engine.transactions.get? user).map fun transaction => transaction.latest.length).getD 0

/-- The transaction of a user, which must be in progress. -/
def transactionOf (user : String) : Action Engine Transaction :=
  Action.read fun engine =>
    match engine.transactions.get? user with
    | some transaction => .ok transaction
    | none => .error (.noTransaction user)

/-- Forgets the transaction of a user. -/
def endTransaction (user : String) : Action Engine Unit :=
  Action.modify fun engine => { engine with transactions := engine.transactions.erase user }

/-- Begins a transaction; returns its identifier. -/
def begin (user : String) : Action Engine String := do
  let engine ← Action.get
  if engine.inTransaction user then throw (.transactionActive user)
  let time := String.ofList (Number.decimalDigits engine.clock)
  let id := "tx_" ++ time ++ "_" ++ user
  Action.modify fun engine =>
    { engine with
      clock := engine.clock + 1
      transactions := engine.transactions.insert user { id, latest := [] } }
  return id

/-- Adds a change to the transaction of a user. -/
def buffer (user : String) (operation : Operation) (database table rowId row : String)
    (before : Option String) : Action Engine Unit := do
  let transaction ← transactionOf user
  let entry : Log.Entry := {
    number := 0
    transaction := transaction.id
    user, operation, database, table, rowId, row, before
    timestamp := ← now }
  Action.modify fun engine =>
    { engine with
      transactions := engine.transactions.insert user
        { transaction with latest := entry :: transaction.latest } }

/-- Writes changes to the log; returns them numbered. -/
def logChanges (changes : List Log.Entry) : Action Engine (List Log.Entry) := do
  let log := (← Action.get).log
  let entries := Log.numbered log.next changes
  onDisk (log.write entries)
  Action.modify fun engine =>
    { engine with log := { log with next := Log.numberAfter log.next entries.length } }
  return entries

/-- Makes logged changes. -/
def applyChanges (id : String) (entries : List Log.Entry) : Action Engine (List Log.Entry) :=
  fun engine =>
    match Log.Entry.performAll entries engine.disk with
    | ((done, none), disk) => (.ok done, { engine with disk })
    | ((done, some cause), disk) => (.error (.partlyApplied id cause done), { engine with disk })

/-- Commits the transaction of a user; returns its identifier and the entries applied. -/
def commit (user : String) : Action Engine (String × List Log.Entry) := do
  let transaction ← transactionOf user
  if transaction.latest.isEmpty then
    endTransaction user
    return (transaction.id, [])
  let entries ← logChanges transaction.changes
  endTransaction user
  return (transaction.id, ← applyChanges transaction.id entries)

/-- Drops the transaction of a user; returns its identifier and how many changes are lost. -/
def rollback (user : String) : Action Engine (String × Nat) := do
  let transaction ← transactionOf user
  endTransaction user
  return (transaction.id, transaction.latest.length)

end Engine

end FlatFileDb
