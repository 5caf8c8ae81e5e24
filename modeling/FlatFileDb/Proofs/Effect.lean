import FlatFileDb.Proofs.Disk
import FlatFileDb.Proofs.Quiet

/-!
# What a command can do

`Own` lists, command by command, what a command changes before indexes are patched and triggers
fired, with everything that was checked on the way; what is then due on the indexes is its `Upkeep`.
`effect_cases` says that nothing else can happen. Invariants are shown along `Own`, and no later proof
opens the operations themselves.
-/

namespace FlatFileDb.Engine

/-- The patching of indexes that is due after a change. -/
inductive Upkeep where
  | none
  | rows (database : String) (schema : TableSchema) (removed added : List String)
  | applied (entries : List Log.Entry)

/-- Dispatches the patching that is due. -/
def Upkeep.step : Upkeep → Action Engine Unit
  | none => pure ()
  | rows database schema removed added => patchIndexes database schema removed added
  | applied entries => patchCommitted entries

/-- The entry that a change of a transaction waits as. -/
def pendingEntry (transaction : Transaction) (user : String) (time : Nat) (operation : Operation)
    (database table rowId row : String) (before : Option String) : Log.Entry where
  number := 0
  transaction := transaction.id
  user := user
  timestamp := time
  operation := operation
  database := database
  table := table
  rowId := rowId
  row := row
  before := before

/-- The engine after more changes wait in the transaction of a user. -/
def waiting (engine : Engine) (user : String) (transaction : Transaction)
    (entries : List Log.Entry) : Engine :=
  { engine with
    transactions := engine.transactions.insert user
      { transaction with latest := entries.reverse ++ transaction.latest } }

/-- The engine after a commit of changes that left the disk as given. -/
def committed (engine : Engine) (user : String) (changes : List Log.Entry) (disk : Disk) : Engine :=
  { engine with
    disk
    log := { engine.log with
      next := Log.numberAfter engine.log.next (Log.numbered engine.log.next changes).length }
    transactions := engine.transactions.erase user }

/-- Assignments that passed their checks, one for each pair of a column and a value. -/
def PassesAs (schema : TableSchema) (assigned : List (String × String))
    (assignments : List Assignment) : Prop :=
  List.Forall₂ (fun pair a => schema.columnIndex? pair.1 = some a.position ∧
    schema.columns[a.position]? = some a.column ∧ a.value = pair.2 ∧
    a.column.checkField a.value = .ok ()) assigned assignments

/-- What a command changes, before indexes are patched and triggers fired. -/
inductive Own (who : Identity) : Command → Engine → Engine → Upkeep → Prop where
  /-- A query, a failed check, or a change that could not be made. -/
  | quiet {command : Command} {e e' : Engine} (h : Quiet e e') : Own who command e e' .none
  | become {e : Engine} (role : NodeRole) : Own who (.become role) e { e with role } .none
  | begin {e : Engine} (id : String) (hfree : e.inTransaction who.user = false) :
    Own who (.transaction .begin) e
      { e with
        clock := e.clock + 1
        transactions := e.transactions.insert who.user { id, latest := [] } } .none
  | rollback {e : Engine} : Own who (.transaction .rollback) e
      { e with transactions := e.transactions.erase who.user } .none
  | commitNothing {e : Engine} : Own who (.transaction .commit) e
      { e with transactions := e.transactions.erase who.user } .none
  | commit {e : Engine} {transaction : Transaction} {logged disk : Disk} {done : List Log.Entry}
    {failure : Option Error} (hrole : authorize who (.transaction .commit) e.role = .ok ())
    (hactive : e.transactions.get? who.user = some transaction)
    (hchanges : transaction.latest ≠ [])
    (hlog : e.log.write (Log.numbered e.log.next transaction.changes) e.disk = (.ok (), logged))
    (happly : Log.Entry.performAll (Log.numbered e.log.next transaction.changes) logged
      = ((done, failure), disk)) :
    Own who (.transaction .commit) e (e.committed who.user transaction.changes disk) (.applied done)
  | insert {database table row : String} {e e₁ : Engine} {schema : TableSchema} {disk : Disk}
    (hdatabase : who.requireDatabase = .ok database) (hquiet : Quiet e e₁)
    (hfree : e.inTransaction who.user = false)
    (hschema : e.knownSchema database table = .ok schema)
    (hrow : (schema.checkRow (storedValues database) row e).1 = .ok ())
    (hwrite : Table.append database table row e.disk = (.ok (), disk)) :
    Own who (.insert table row) e { e₁ with disk } (.rows database schema [] [row])
  | insertLater {database table row : String} {e e₁ : Engine} {schema : TableSchema}
    {transaction : Transaction}
    (hdatabase : who.requireDatabase = .ok database) (hquiet : Quiet e e₁)
    (hactive : e.transactions.get? who.user = some transaction)
    (hschema : e.knownSchema database table = .ok schema)
    (hrow : (schema.checkRow (storedValues database) row e).1 = .ok ()) :
    Own who (.insert table row) e
      (e₁.waiting who.user transaction
        [pendingEntry transaction who.user (e.clock / 1000000) .insert database table (Row.id row)
          row none]) .none
  | update {database table : String} {assigned : Keyed String String} {conditions : List Condition}
    {e e₁ : Engine} {schema : TableSchema} {assignments : List Assignment}
    {rows after : List String} {changed : List (String × String)} {disk : Disk}
    (hdatabase : who.requireDatabase = .ok database) (hquiet : Quiet e e₁)
    (hfree : e.inTransaction who.user = false)
    (hschema : e.knownSchema database table = .ok schema)
    (hassigned : PassesAs schema assigned.entries assignments)
    (hrows : Table.rows e.disk database table = .ok rows)
    (hchange : schema.update assignments conditions rows = .ok (after, changed))
    (hwrite : Disk.writeFile (Path.table database table) (Text.ofLines after) e.disk
      = (.ok (), disk)) :
    Own who (.update table assigned conditions) e { e₁ with disk }
      (if changed.isEmpty then .none
        else .rows database schema (changed.map Prod.fst) (changed.map Prod.snd))
  | updateLater {database table : String} {assigned : Keyed String String}
    {conditions : List Condition} {e e₁ : Engine} {schema : TableSchema}
    {assignments : List Assignment} {rows after : List String} {changed : List (String × String)}
    {transaction : Transaction}
    (hdatabase : who.requireDatabase = .ok database) (hquiet : Quiet e e₁)
    (hactive : e.transactions.get? who.user = some transaction)
    (hschema : e.knownSchema database table = .ok schema)
    (hassigned : PassesAs schema assigned.entries assignments)
    (hrows : Table.rows e.disk database table = .ok rows)
    (hchange : schema.update assignments conditions rows = .ok (after, changed)) :
    Own who (.update table assigned conditions) e
      (e₁.waiting who.user transaction (changed.map fun (before, after) =>
        pendingEntry transaction who.user (e.clock / 1000000) .update database table
          (Row.id before) after (some before))) .none
  | delete {database table : String} {conditions : List Condition} {e e₁ : Engine}
    {schema : TableSchema} {rows : List String} {disk : Disk}
    (hdatabase : who.requireDatabase = .ok database) (hquiet : Quiet e e₁)
    (hfree : e.inTransaction who.user = false)
    (hschema : e.knownSchema database table = .ok schema)
    (hrows : Table.rows e.disk database table = .ok rows)
    (hwrite : Disk.writeFile (Path.table database table)
      (Text.ofLines (schema.delete conditions rows).1) e.disk = (.ok (), disk)) :
    Own who (.delete table conditions) e { e₁ with disk }
      (if (schema.delete conditions rows).2.isEmpty then .none
        else .rows database schema (schema.delete conditions rows).2 [])
  | deleteLater {database table : String} {conditions : List Condition} {e e₁ : Engine}
    {schema : TableSchema} {rows : List String} {transaction : Transaction}
    (hdatabase : who.requireDatabase = .ok database) (hquiet : Quiet e e₁)
    (hactive : e.transactions.get? who.user = some transaction)
    (hschema : e.knownSchema database table = .ok schema)
    (hrows : Table.rows e.disk database table = .ok rows) :
    Own who (.delete table conditions) e
      (e₁.waiting who.user transaction ((schema.delete conditions rows).2.map fun row =>
        pendingEntry transaction who.user (e.clock / 1000000) .delete database table (Row.id row)
          "" (some row))) .none
  /-- The directory for schemas was made, if that, but no schema was written into it. -/
  | createNothing {database table definition : String} {e : Engine}
    (hdatabase : Database.require e.disk database = .ok ()) :
    Own who (.createTable table definition) e
      { e with disk := (Disk.makeDirectories (Path.schemas database) e.disk).2 } .none
  | createTable {database table definition : String} {e : Engine} {columns : List Column}
    {made written : Disk}
    (hrole : who.requireDatabase = .ok database)
    (hcolumns : Definition.columns definition = .ok columns)
    (hnames : ∀ column ∈ columns, Name.isValid column.name = true)
    (hdatabase : Database.require e.disk database = .ok ())
    (hnew : hasSchema e.disk database table = false)
    (hmake : Disk.makeDirectories (Path.schemas database) e.disk = (.ok (), made))
    (hwrite : Disk.writeFile (Path.schema database table)
      ((⟨database, table, columns, Permissions.standard⟩ : TableSchema).toJson.indented 0) made
        = (.ok (), written))
    (hview : View.isPresent e.disk database table = false) :
    Own who (.createTable table definition) e
      { e with
        disk := (Table.init database table written).2
        schemas := e.schemas.insert (database, table)
          ⟨database, table, columns, Permissions.standard⟩ } .none
  | createIndex {database table column : String} {kind : IndexKind} {e e₁ : Engine}
    {schema : TableSchema} {position : Nat}
    (hdatabase : who.requireDatabase = .ok database) (hquiet : Quiet e e₁)
    (hschema : e.knownSchema database table = .ok schema)
    (hposition : schema.columnIndex? column = some position) :
    Own who (.createIndex kind table column) e
      { e₁ with disk := (Index.build database table column position kind e.disk).2 } .none
  | createView {database name query : String} {e : Engine}
    (hdatabase : who.requireDatabase = .ok database) :
    Own who (.createView name query) e
      { e with disk := (View.save database name query e.disk).2 } .none
  | createTrigger {database : String} {definition : TriggerDefinition} {e e₁ : Engine}
    (created : Nat) (hdatabase : who.requireDatabase = .ok database) (hquiet : Quiet e e₁) :
    Own who (.createTrigger definition) e
      { e₁ with disk := (Trigger.save database { definition, created } e.disk).2 } .none

/-- Taken from a state before which nothing but reading was done, a step does what `Own` lists and
then what is due on the indexes. -/
def DoesOwn {α : Type} (who : Identity) (command : Command) (e : Engine) (step : Action Engine α)
    (e₁ : Engine) : Prop :=
  ∃ e₂ upkeep, Own who command e e₂ upkeep ∧ (step e₁).2 = (Upkeep.step upkeep e₂).2

variable {α β : Type} {who : Identity} {command : Command} {e e₁ : Engine}

theorem doesOwn_of_quiet {step : Action Engine α} (hbefore : Quiet e e₁)
    (hstep : Quiet e₁ (step e₁).2) : DoesOwn who command e step e₁ :=
  ⟨_, .none, .quiet (IsTrans.trans _ _ _ hbefore hstep), rfl⟩

theorem doesOwn_error {step : Action Engine α} {failure : Error} (hbefore : Quiet e e₁)
    (hstep : step e₁ = (.error failure, e₁)) : DoesOwn who command e step e₁ :=
  doesOwn_of_quiet hbefore (by rw [hstep]; exact refl e₁)

theorem DoesOwn.map {step : Action Engine α} (f : α → β) (h : DoesOwn who command e step e₁) :
    DoesOwn who command e (f <$> step) e₁ := by
  unfold DoesOwn
  rw [Action.map_apply]
  exact h

/-- Observing comes first and leaves no trace; what it saw was there from the start. -/
theorem DoesOwn.bind {step : Action Engine α} {next : α → Action Engine β} (h : Observes step)
    (hbefore : Quiet e e₁)
    (hnext : ∀ a e₂, Quiet e e₂ → (step e).1 = .ok a → DoesOwn who command e (next a) e₂) :
    DoesOwn who command e (step >>= next) e₁ := by
  rcases h.run_bind next e₁ with ⟨failure, e₂, hquiet, hrun⟩ | ⟨a, e₂, hquiet, ha, hrun⟩
  · exact doesOwn_of_quiet hbefore (by rw [hrun]; exact hquiet)
  · have hresult : (step e).1 = .ok a := (h.stable e e₁ hbefore.sameView).symm.trans ha
    obtain ⟨e₃, upkeep, hown, hafter⟩ :=
      hnext a e₂ (IsTrans.trans _ _ _ hbefore hquiet) hresult
    exact ⟨e₃, upkeep, hown, by rw [hrun, hafter]⟩

theorem Quiet.inTransaction (h : Quiet e e₁) (user : String) :
    e₁.inTransaction user = e.inTransaction user := by
  rw [Engine.inTransaction, h.transactions]
  rfl

/-- Whether a user has a transaction in progress decides between waiting and making the change. -/
theorem DoesOwn.bindBuffering {later now : Action Engine β} (hbefore : Quiet e e₁)
    (hlater : ∀ transaction, e.transactions.get? who.user = some transaction →
      DoesOwn who command e later e₁)
    (hnow : e.inTransaction who.user = false → DoesOwn who command e now e₁) :
    DoesOwn who command e (isBuffering who >>= fun buffering => if buffering then later else now)
      e₁ := by
  have hrun : (isBuffering who >>= fun buffering => if buffering then later else now) e₁
      = (if e.inTransaction who.user then later else now) e₁ := by
    rw [← hbefore.inTransaction]
    rfl
  unfold DoesOwn
  rw [hrun]
  cases hbuffering : e.inTransaction who.user with
  | true =>
    have hactive := hbuffering
    rw [Engine.inTransaction, Keyed.contains, Option.isSome_iff_exists] at hactive
    obtain ⟨transaction, hactive⟩ := hactive
    exact hlater transaction hactive
  | false => exact hnow hbuffering

/-- A step on the disk fails, or it comes to a result. -/
theorem onDisk_bind (step : Action Disk α) (next : α → Action Engine β) (e : Engine) :
    (∃ failure disk, step e.disk = (.error failure, disk) ∧
        (onDisk step >>= next) e = (.error failure, { e with disk })) ∨
      ∃ a disk, step e.disk = (.ok a, disk) ∧
        (onDisk step >>= next) e = next a { e with disk } := by
  cases hstep : step e.disk with
  | mk result disk =>
    have happly : onDisk step e = (result, { e with disk }) := by
      rw [onDisk, Action.onPart_apply, hstep]
    cases result with
    | error failure => exact .inl ⟨failure, disk, rfl, Action.bind_of_error happly⟩
    | ok a => exact .inr ⟨a, disk, rfl, Action.bind_of_ok happly⟩

theorem onDisk_bind_pure_snd (step : Action Disk α) (f : α → β) (e : Engine) :
    ((onDisk step >>= fun a => pure (f a)) e).2 = { e with disk := (step e.disk).2 } := by
  change ((f <$> onDisk step) e).2 = _
  rw [Action.map_apply]
  rfl

theorem look_bind (f : Disk → α) (next : α → Action Engine β) (e : Engine) :
    (look f >>= next) e = next (f e.disk) e := rfl

theorem quiet_of_disk_eq {disk : Disk} (h : disk = e.disk) : Quiet e { e with disk } := by
  subst h
  exact refl e

/-! ### Writing one file -/

theorem writeFile_error {path : Path} {text : String} {disk disk' : Disk} {failure : Error}
    (h : Disk.writeFile path text disk = (.error failure, disk')) : disk' = disk := by
  rcases Disk.writeFile_cases path text disk with hwrite | ⟨place, -, hwrite⟩
  · rw [hwrite] at h
    exact (Prod.mk.inj h).2.symm
  · rw [hwrite] at h
    exact absurd (Prod.mk.inj h).1 (by simp)

theorem writeFile_failure {path : Path} {text : String} {disk disk' : Disk} {failure : Error}
    (h : Disk.writeFile path text disk = (.error failure, disk')) : failure = .fileFailure := by
  rcases Disk.writeFile_cases path text disk with hwrite | ⟨place, -, hwrite⟩
  · rw [hwrite] at h
    exact (Except.error.inj (Prod.mk.inj h).1).symm
  · rw [hwrite] at h
    exact absurd (Prod.mk.inj h).1 (by simp)

theorem appendFile_cases (missing : Error) (path : Path) (text : String) (disk : Disk) :
    (∃ failure, (failure = missing ∨ failure = .fileFailure) ∧
        Disk.appendFile missing path text disk = (.error failure, disk)) ∨
      ∃ before place, disk.textAt path = .ok before ∧ disk.filePlace? path = some place ∧
        Disk.appendFile missing path text disk
          = (.ok (), disk.put place (.file (before ++ text))) := by
  unfold Disk.appendFile
  cases hbefore : disk.textAt path with
  | error failure =>
    cases failure with
    | missing =>
      exact .inl ⟨_, .inl rfl, Action.bind_of_error (by rw [Action.read_apply, Disk.textOr, hbefore])⟩
    | blocked =>
      exact .inl ⟨_, .inr rfl, Action.bind_of_error (by rw [Action.read_apply, Disk.textOr, hbefore])⟩
  | ok before =>
    have hread : Action.read (·.textOr missing path) disk = (.ok before, disk) := by
      rw [Action.read_apply, Disk.textOr_eq_ok.2 hbefore]
    rw [Action.bind_of_ok hread]
    rcases Disk.writeFile_cases path (before ++ text) disk with hwrite | ⟨place, hplace, hwrite⟩
    · exact .inl ⟨_, .inr rfl, hwrite⟩
    · exact .inr ⟨before, place, rfl, hplace, hwrite⟩

theorem appendFile_error {missing : Error} {path : Path} {text : String} {disk disk' : Disk}
    {failure : Error} (h : Disk.appendFile missing path text disk = (.error failure, disk')) :
    disk' = disk := by
  rcases appendFile_cases missing path text disk with ⟨other, -, hwrite⟩ | ⟨before, place, -, -, hwrite⟩
  · rw [hwrite] at h
    exact (Prod.mk.inj h).2.symm
  · rw [hwrite] at h
    exact absurd (Prod.mk.inj h).1 (by simp)

/-- A change of a table reads its rows, takes the new ones and writes them. -/
theorem modify_cases {database table : String} {f : List String → Except Error (List String × α)}
    {disk disk' : Disk} {result : Except Error α}
    (h : Table.modify database table f disk = (result, disk')) :
    ((∃ failure, result = .error failure) ∧ disk' = disk) ∨
      ∃ rows after a, Table.rows disk database table = .ok rows ∧ f rows = .ok (after, a) ∧
        result = .ok a ∧
        Disk.writeFile (Path.table database table) (Text.ofLines after) disk = (.ok (), disk') := by
  unfold Table.modify at h
  rcases Action.bind_cases h with ⟨failure, hrows, rfl⟩ | ⟨rows, disk₁, hrows, h⟩
  · exact .inl ⟨⟨failure, rfl⟩, (Prod.mk.inj hrows).2.symm⟩
  have hread : Table.rows disk database table = .ok rows := congrArg Prod.fst hrows
  obtain rfl : disk = disk₁ := congrArg Prod.snd hrows
  rcases Action.bind_cases h with ⟨failure, hchange, rfl⟩ | ⟨⟨after, a⟩, disk₂, hchange, h⟩
  · exact .inl ⟨⟨failure, rfl⟩, (Prod.mk.inj hchange).2.symm⟩
  have hresult : f rows = .ok (after, a) := congrArg Prod.fst hchange
  obtain rfl : disk = disk₂ := congrArg Prod.snd hchange
  rcases Action.bind_cases h with ⟨failure, hwrite, rfl⟩ | ⟨⟨⟩, disk₃, hwrite, h⟩
  · exact .inl ⟨⟨failure, rfl⟩, writeFile_error hwrite⟩
  obtain rfl : result = .ok a := (congrArg Prod.fst h).symm
  obtain rfl : disk₃ = disk' := congrArg Prod.snd h
  exact .inr ⟨rows, after, a, hread, hresult, rfl, hwrite⟩

/-! ### Changes of rows -/

theorem buffer_apply {user : String} {transaction : Transaction}
    (h : e.transactions.get? user = some transaction) (operation : Operation)
    (database table rowId row : String) (before : Option String) :
    buffer user operation database table rowId row before e
      = (.ok (), e.waiting user transaction [pendingEntry transaction user (e.clock / 1000000)
          operation database table rowId row before]) := by
  have hactive : transactionOf user e = (.ok transaction, e) := by
    rw [transactionOf, Action.read_apply, h]
  rw [buffer, Action.bind_of_ok hactive]
  rfl

theorem bind_pure_snd (step : Action Engine α) (b : β) (e : Engine) :
    ((step >>= fun _ => pure b) e).2 = (step e).2 := by
  change (((fun _ => b) <$> step) e).2 = _
  rw [Action.map_apply]

theorem doesOwn_insert {database : String} (table row : String)
    (hdatabase : who.requireDatabase = .ok database) (e : Engine) :
    DoesOwn who (.insert table row) e (insert who database table row) e := by
  refine .bind (observes_writableSchema who database table) (refl e) fun schema e₁ hquiet hschema => ?_
  have hknown := writableSchema_eq_ok hschema
  refine .bind (observes_checkRow schema database row) hquiet fun _ e₂ hquiet hrow => ?_
  refine .bindBuffering hquiet (fun transaction hactive => ?_) fun hfree => ?_
  · refine ⟨_, .none, .insertLater hdatabase hquiet hactive hknown hrow, ?_⟩
    rw [Action.bind_of_ok (buffer_apply (by rw [hquiet.transactions]; exact hactive) ..),
      hquiet.clock]
    rfl
  · rcases onDisk_bind (Table.append database table row) _ e₂ with
      ⟨failure, disk, hwrite, hrun⟩ | ⟨⟨⟩, disk, hwrite, hrun⟩
    · refine doesOwn_of_quiet hquiet ?_
      rw [hrun]
      exact quiet_of_disk_eq (appendFile_error hwrite)
    · rw [hquiet.disk] at hwrite
      refine ⟨_, _, .insert hdatabase hquiet hfree hknown hrow hwrite, ?_⟩
      rw [hrun]
      exact bind_pure_snd _ _ _

theorem passesAs_of_mapM {schema : TableSchema} {database table : String}
    {assigned : List (String × String)} {assignments : List Assignment}
    (h : (assigned.mapM (checkAssignment schema database table) e).1 = .ok assignments) :
    PassesAs schema assigned assignments :=
  (Observes.of_mapM (observes_checkAssignment schema database table) h).imp fun _ _ hpair =>
    checkAssignment_eq_ok hpair

theorem waiting_nil {user : String} {transaction : Transaction}
    (h : e.transactions.get? user = some transaction) : e.waiting user transaction [] = e := by
  have hsame : e.transactions.insert user { transaction with latest := [] ++ transaction.latest }
      = e.transactions := Keyed.insert_of_get? h
  rw [waiting, List.reverse_nil, hsame]

theorem waiting_cons (e : Engine) (user : String) (transaction : Transaction) (entry : Log.Entry)
    (entries : List Log.Entry) :
    (e.waiting user transaction [entry]).waiting user
        { transaction with latest := entry :: transaction.latest } entries
      = e.waiting user transaction (entry :: entries) := by
  simp [waiting, Keyed.insert_insert]

/-- Changes buffered one after the other wait in the order in which they came. -/
theorem forM_buffer {user : String} (entryOf : String → Nat → α → Log.Entry)
    (step : α → Action Engine Unit)
    (hstep : ∀ a e transaction, e.transactions.get? user = some transaction →
      step a e = (.ok (), e.waiting user transaction
        [entryOf transaction.id (e.clock / 1000000) a]))
    (list : List α) (e : Engine) {transaction : Transaction}
    (h : e.transactions.get? user = some transaction) :
    list.forM step e = (.ok (), e.waiting user transaction
      (list.map (entryOf transaction.id (e.clock / 1000000)))) := by
  induction list generalizing e transaction with
  | nil =>
    rw [List.map_nil, waiting_nil h]
    rfl
  | cons a list ih =>
    have hnext := hstep a e transaction h
    have hactive : (e.waiting user transaction
        [entryOf transaction.id (e.clock / 1000000) a]).transactions.get? user
          = some { transaction with
              latest := entryOf transaction.id (e.clock / 1000000) a :: transaction.latest } := by
      simp [waiting]
    rw [List.forM_eq_forM, List.forM_cons, Action.bind_of_ok hnext, ← List.forM_eq_forM,
      ih _ hactive, List.map_cons]
    exact congrArg (Prod.mk _) (waiting_cons e user transaction _ _)

theorem doesOwn_update {database : String} (table : String) (assigned : Keyed String String)
    (conditions : List Condition) (hdatabase : who.requireDatabase = .ok database) (e : Engine) :
    DoesOwn who (.update table assigned conditions) e
      (update who database table assigned conditions) e := by
  refine .bind (observes_writableSchema who database table) (refl e) fun schema e₁ hquiet hschema => ?_
  have hknown := writableSchema_eq_ok hschema
  refine .bind (Observes.mapM fun pair => observes_checkAssignment schema database table pair) hquiet
    fun assignments e₂ hquiet hassigned => ?_
  have hpasses := passesAs_of_mapM hassigned
  refine .bindBuffering hquiet (fun transaction hactive => ?_) fun hfree => ?_
  · refine .bind (Observes.readDisk _) hquiet fun rows e₃ hquiet hrows => ?_
    refine .bind (Observes.ofExcept _) hquiet fun (after, changed) e₄ hquiet hchange => ?_
    refine ⟨_, .none, .updateLater hdatabase hquiet hactive hknown hpasses hrows hchange, ?_⟩
    have hbuffered := forM_buffer
      (fun id time (pair : String × String) => pendingEntry ⟨id, []⟩ who.user time .update database
        table (Row.id pair.1) pair.2 (some pair.1))
      (fun pair => buffer who.user .update database table (Row.id pair.1) pair.2 (some pair.1))
      (fun pair e transaction h => buffer_apply h ..) changed e₄
      (by rw [hquiet.transactions]; exact hactive)
    rw [hquiet.clock] at hbuffered
    exact congrArg Prod.snd (Action.bind_of_ok hbuffered)
  · rcases onDisk_bind (Table.modify database table (schema.update assignments conditions)) _ e₂
      with ⟨failure, disk, hmodify, hrun⟩ | ⟨changed, disk, hmodify, hrun⟩
    · refine doesOwn_of_quiet hquiet ?_
      rw [hrun]
      rcases modify_cases hmodify with ⟨-, hdisk⟩ | ⟨rows, after, a, -, -, hresult, -⟩
      · exact quiet_of_disk_eq hdisk
      · exact absurd hresult (by simp)
    · rw [hquiet.disk] at hmodify
      rcases modify_cases hmodify with ⟨⟨failure, hfailure⟩, -⟩ | ⟨rows, after, a, hrows, hchange,
        hresult, hwrite⟩
      · exact absurd hfailure (by simp)
      · obtain rfl := Except.ok.inj hresult
        refine ⟨_, _, .update hdatabase hquiet hfree hknown hpasses hrows hchange hwrite, ?_⟩
        rw [hrun]
        cases changed with
        | nil => rfl
        | cons first rest => exact bind_pure_snd _ _ _

theorem doesOwn_delete {database : String} (table : String) (conditions : List Condition)
    (hdatabase : who.requireDatabase = .ok database) (e : Engine) :
    DoesOwn who (.delete table conditions) e (delete who database table conditions) e := by
  refine .bind (observes_writableSchema who database table) (refl e) fun schema e₁ hquiet hschema => ?_
  have hknown := writableSchema_eq_ok hschema
  refine .bindBuffering hquiet (fun transaction hactive => ?_) fun hfree => ?_
  · refine .bind (Observes.readDisk _) hquiet fun rows e₂ hquiet hrows => ?_
    refine ⟨_, .none, .deleteLater hdatabase hquiet hactive hknown hrows, ?_⟩
    have hbuffered := forM_buffer
      (fun id time row => pendingEntry ⟨id, []⟩ who.user time .delete database table (Row.id row) ""
        (some row))
      (fun row => buffer who.user .delete database table (Row.id row) "" (some row))
      (fun row e transaction h => buffer_apply h ..) (schema.delete conditions rows).2 e₂
      (by rw [hquiet.transactions]; exact hactive)
    rw [hquiet.clock] at hbuffered
    exact congrArg Prod.snd (Action.bind_of_ok hbuffered)
  · rcases onDisk_bind
      (Table.modify database table fun rows => .ok (schema.delete conditions rows)) _ e₁
      with ⟨failure, disk, hmodify, hrun⟩ | ⟨removed, disk, hmodify, hrun⟩
    · refine doesOwn_of_quiet hquiet ?_
      rw [hrun]
      rcases modify_cases hmodify with ⟨-, hdisk⟩ | ⟨rows, after, a, -, -, hresult, -⟩
      · exact quiet_of_disk_eq hdisk
      · exact absurd hresult (by simp)
    · rw [hquiet.disk] at hmodify
      rcases modify_cases hmodify with ⟨⟨failure, hfailure⟩, -⟩ | ⟨rows, after, a, hrows, hchange,
        hresult, hwrite⟩
      · exact absurd hfailure (by simp)
      · obtain rfl := Except.ok.inj hresult
        have hsplit := Except.ok.inj hchange
        obtain rfl : (schema.delete conditions rows).1 = after := congrArg Prod.fst hsplit
        obtain rfl : (schema.delete conditions rows).2 = removed := congrArg Prod.snd hsplit
        refine ⟨_, _, .delete hdatabase hquiet hfree hknown hrows hwrite, ?_⟩
        rw [hrun]
        cases (schema.delete conditions rows).2 with
        | nil => rfl
        | cons first rest => exact bind_pure_snd _ _ _

/-! ### Transactions -/

theorem transactionOf_apply (user : String) (e : Engine) :
    (e.transactions.get? user = none ∧
        transactionOf user e = (.error (.noTransaction user), e)) ∨
      ∃ transaction, e.transactions.get? user = some transaction ∧
        transactionOf user e = (.ok transaction, e) := by
  cases hactive : e.transactions.get? user with
  | none =>
    refine .inl ⟨rfl, ?_⟩
    rw [transactionOf, Action.read_apply, hactive]
  | some transaction =>
    refine .inr ⟨transaction, rfl, ?_⟩
    rw [transactionOf, Action.read_apply, hactive]

theorem doesOwn_begin (e : Engine) :
    DoesOwn who (.transaction .begin) e (executeBegin who) e := by
  refine @DoesOwn.map _ _ _ _ _ _ (begin who.user) _ ?_
  cases hfree : e.inTransaction who.user with
  | true =>
    refine @doesOwn_error _ _ _ _ _ _ (.transactionActive who.user) (refl e) ?_
    rw [begin, Action.get_bind, if_pos hfree]
    rfl
  | false =>
    refine ⟨_, .none,
      .begin ("tx_" ++ String.ofList (Number.decimalDigits e.clock) ++ "_" ++ who.user) hfree, ?_⟩
    rw [begin, Action.get_bind, if_neg (by simp [hfree])]
    rfl

theorem doesOwn_rollback (e : Engine) :
    DoesOwn who (.transaction .rollback) e (executeRollback who) e := by
  refine @DoesOwn.map _ _ _ _ _ _ (rollback who.user) _ ?_
  rcases transactionOf_apply who.user e with ⟨-, hrun⟩ | ⟨transaction, -, hrun⟩
  · exact doesOwn_error (refl e) (Action.bind_of_error hrun)
  · refine ⟨_, .none, .rollback, ?_⟩
    rw [rollback, Action.bind_of_ok hrun]
    rfl

/-- What a commit comes to. -/
inductive CommitsAs (user : String) (e : Engine) : Except Error (String × List Log.Entry) × Engine →
    Prop where
  | noTransaction (hfree : e.transactions.get? user = none) :
    CommitsAs user e (.error (.noTransaction user), e)
  | nothing {transaction : Transaction} (hactive : e.transactions.get? user = some transaction)
    (hempty : transaction.latest = []) : CommitsAs user e
      (.ok (transaction.id, []), { e with transactions := e.transactions.erase user })
  | logFailure {transaction : Transaction} (hactive : e.transactions.get? user = some transaction)
    (hchanges : transaction.latest ≠ [])
    (hlog : (e.log.write (Log.numbered e.log.next transaction.changes) e.disk).1 ≠ .ok ()) :
    CommitsAs user e (.error .fileFailure, e)
  | applied {transaction : Transaction} {logged disk : Disk} {done : List Log.Entry}
    {failure : Option Error} (hactive : e.transactions.get? user = some transaction)
    (hchanges : transaction.latest ≠ [])
    (hlog : e.log.write (Log.numbered e.log.next transaction.changes) e.disk = (.ok (), logged))
    (happly : Log.Entry.performAll (Log.numbered e.log.next transaction.changes) logged
      = ((done, failure), disk)) :
    CommitsAs user e
      (match failure with
        | none => .ok (transaction.id, done)
        | some cause => .error (.partlyApplied transaction.id cause done),
        e.committed user transaction.changes disk)

theorem logChanges_apply (changes : List Log.Entry) (e : Engine) :
    ((e.log.write (Log.numbered e.log.next changes) e.disk).1 ≠ .ok () ∧
        logChanges changes e = (.error .fileFailure, e)) ∨
      ∃ logged, e.log.write (Log.numbered e.log.next changes) e.disk = (.ok (), logged) ∧
        logChanges changes e = (.ok (Log.numbered e.log.next changes),
          { e with
            disk := logged
            log := { e.log with
              next := Log.numberAfter e.log.next (Log.numbered e.log.next changes).length } }) := by
  unfold logChanges
  rw [Action.get_bind]
  rcases onDisk_bind (e.log.write (Log.numbered e.log.next changes)) _ e with
    ⟨failure, disk, hwrite, hrun⟩ | ⟨⟨⟩, disk, hwrite, hrun⟩
  · refine .inl ⟨by rw [hwrite]; simp, ?_⟩
    rw [hrun]
    have hdisk : disk = e.disk := appendFile_error hwrite
    have hfailure : failure = .fileFailure := by
      rcases appendFile_cases .fileFailure e.log.path
        (Text.ofLines ((Log.numbered e.log.next changes).map Log.line)) e.disk with
        ⟨other, hother, hwrite'⟩ | ⟨before, place, -, -, hwrite'⟩
      · have hsame := hwrite.symm.trans hwrite'
        rw [Prod.mk.injEq, Except.error.injEq] at hsame
        rw [hsame.1]
        exact hother.elim id id
      · have hsame := hwrite.symm.trans hwrite'
        exact absurd (congrArg Prod.fst hsame) (by simp)
    rw [hdisk, hfailure]
  · refine .inr ⟨disk, hwrite, ?_⟩
    rw [hrun]
    rfl

theorem commit_cases (user : String) (e : Engine) : CommitsAs user e (commit user e) := by
  unfold commit
  rcases transactionOf_apply user e with ⟨hfree, hrun⟩ | ⟨transaction, hactive, hrun⟩
  · rw [Action.bind_of_error hrun]
    exact .noTransaction hfree
  rw [Action.bind_of_ok hrun]
  by_cases hempty : transaction.latest.isEmpty = true
  · rw [if_pos hempty]
    exact .nothing hactive (List.isEmpty_iff.1 hempty)
  rw [if_neg hempty]
  have hchanges : transaction.latest ≠ [] := fun h => hempty (List.isEmpty_iff.2 h)
  rcases logChanges_apply transaction.changes e with ⟨hlog, hrun⟩ | ⟨logged, hlog, hrun⟩
  · rw [Action.bind_of_error hrun]
    exact .logFailure hactive hchanges hlog
  rw [Action.bind_of_ok hrun]
  cases happly : Log.Entry.performAll (Log.numbered e.log.next transaction.changes) logged with
  | mk result disk =>
    obtain ⟨done, failure⟩ := result
    have hcommits := CommitsAs.applied hactive hchanges hlog happly
    have hended (engine : Engine) : endTransaction user engine
      = (.ok (), { engine with transactions := engine.transactions.erase user }) := rfl
    rw [Action.bind_of_ok (hended _)]
    cases failure with
    | none =>
      refine (Action.bind_of_ok ?_).symm ▸ hcommits
      simp only [applyChanges, happly]
      rfl
    | some cause =>
      refine (Action.bind_of_error ?_).symm ▸ hcommits
      simp only [applyChanges, happly]
      rfl

/-- Whether a job fails is nobody's concern. -/
theorem dispatch_ok (job : Job) (step : Action Engine Unit) (e : Engine) :
    dispatch job step e = (.ok (), (dispatch job step e).2) := by
  unfold dispatch
  rw [Action.get_bind]
  split <;> rfl

theorem patchCommitted_ok (entries : List Log.Entry) (e : Engine) :
    patchCommitted entries e = (.ok (), (patchCommitted entries e).2) := by
  unfold patchCommitted
  split
  · rfl
  · exact dispatch_ok _ _ e

/-- The changes that a commit made, whether it failed or not. -/
def changesMade : Except Error (String × List Log.Entry) → List Log.Entry
  | .ok (_, done) => done
  | .error (.partlyApplied _ _ done) => done
  | .error _ => []

theorem executeCommit_apply {e e' : Engine} {result : Except Error (String × List Log.Entry)}
    (h : commit who.user e = (result, e')) :
    (executeCommit who e).2 = (patchCommitted (changesMade result) e').2 := by
  cases result with
  | ok committed =>
    obtain ⟨id, done⟩ := committed
    unfold executeCommit
    rw [Action.tryCatch_of_ok]
    · rw [Action.bind_of_ok h]
      exact Action.bind_of_ok (patchCommitted_ok done e')
  | error failure =>
    have hfailed {next : String × List Log.Entry → Action Engine Outcome} :
      (commit who.user >>= next) e = (.error failure, e') := Action.bind_of_error h
    unfold executeCommit
    rw [Action.tryCatch_of_error hfailed]
    cases failure with
    | partlyApplied id cause done =>
      exact congrArg Prod.snd (Action.bind_of_ok (patchCommitted_ok done e'))
    | _ => rfl

theorem doesOwn_commit (hrole : authorize who (.transaction .commit) e.role = .ok ()) :
    DoesOwn who (.transaction .commit) e (executeCommit who) e := by
  have happly : ∀ result, CommitsAs who.user e result → commit who.user e = result →
      DoesOwn who (.transaction .commit) e (executeCommit who) e := by
    intro result hcommits hrun
    cases hcommits with
    | noTransaction hfree => exact ⟨e, .none, .quiet (refl e), executeCommit_apply hrun⟩
    | nothing hactive hempty => exact ⟨_, .none, .commitNothing, executeCommit_apply hrun⟩
    | logFailure hactive hchanges hlog =>
      exact ⟨e, .none, .quiet (refl e), executeCommit_apply hrun⟩
    | @applied transaction logged disk done failure hactive hchanges hlog happly =>
      refine ⟨_, .applied done, .commit hrole hactive hchanges hlog happly, ?_⟩
      rw [executeCommit_apply hrun]
      cases failure <;> rfl
  exact happly _ (commit_cases who.user e) rfl

/-! ### Definitions -/

theorem doesOwn_createIndex {database : String} (kind : IndexKind) (table column : String)
    (hdatabase : who.requireDatabase = .ok database) (e : Engine) :
    DoesOwn who (.createIndex kind table column) e (createIndex kind database table column) e := by
  refine .bind (observes_schema database table) (refl e) fun schema e₁ hquiet hschema => ?_
  rw [schema_result] at hschema
  refine .bind (Observes.ofExcept _) hquiet fun position e₂ hquiet hposition => ?_
  have hindex := requireColumn_eq_ok.1 hposition
  refine ⟨_, .none, .createIndex hdatabase hquiet hschema hindex, ?_⟩
  rw [onDisk_bind_pure_snd, hquiet.disk]
  rfl

theorem doesOwn_createView {database : String} (name query : String)
    (hdatabase : who.requireDatabase = .ok database) (e : Engine) :
    DoesOwn who (.createView name query) e (createView database name query) e := by
  unfold createView
  rw [DoesOwn, look_bind]
  by_cases hthere : hasSchema e.disk database name = true
  · rw [if_pos hthere]
    exact doesOwn_error (refl e) rfl
  · rw [if_neg hthere]
    exact ⟨_, .none, .createView hdatabase, onDisk_bind_pure_snd _ _ e⟩

theorem doesOwn_createTrigger {database : String} (definition : TriggerDefinition)
    (hdatabase : who.requireDatabase = .ok database) (e : Engine) :
    DoesOwn who (.createTrigger definition) e (createTrigger database definition) e := by
  refine .bind (observes_schema database definition.table) (refl e) fun schema e₁ hquiet _ => ?_
  refine ⟨_, .none, .createTrigger (e₁.clock / 1000000) hdatabase hquiet, ?_⟩
  have hnow : now e₁ = (.ok (e₁.clock / 1000000), e₁) := rfl
  rw [Action.bind_of_ok hnow, onDisk_bind_pure_snd, hquiet.disk]
  rfl

/-- A schema is written once everything was checked; until then at most its directory is made. -/
theorem createSchema_cases (database table : String) (columns : List Column)
    (permissions : Permissions) (e : Engine) :
    (∃ failure e', createSchema database table columns permissions e = (.error failure, e') ∧
        (e' = e ∨ failure = .fileFailure ∧ Database.require e.disk database = .ok () ∧
          e' = { e with disk := (Disk.makeDirectories (Path.schemas database) e.disk).2 })) ∨
      ∃ made written, (∀ column ∈ columns, Name.isValid column.name = true) ∧
        Database.require e.disk database = .ok () ∧ hasSchema e.disk database table = false ∧
        Disk.makeDirectories (Path.schemas database) e.disk = (.ok (), made) ∧
        Disk.writeFile (Path.schema database table)
          ((⟨database, table, columns, permissions⟩ : TableSchema).toJson.indented 0) made
            = (.ok (), written) ∧
        createSchema database table columns permissions e
          = (.ok ⟨database, table, columns, permissions⟩,
            { e with
              disk := written
              schemas := e.schemas.insert (database, table)
                ⟨database, table, columns, permissions⟩ }) := by
  unfold createSchema
  rw [Action.ofExcept_bind]
  cases hname : Name.check table with
  | error failure => exact .inl ⟨failure, e, rfl, .inl rfl⟩
  | ok _ =>
  dsimp only
  rw [Action.ofExcept_bind]
  cases hcolumns : columns.forM fun column => Name.check column.name with
  | error failure => exact .inl ⟨failure, e, rfl, .inl rfl⟩
  | ok _ =>
  dsimp only
  rw [readDisk, Action.read_bind]
  cases hdatabase : Database.require e.disk database with
  | error failure => exact .inl ⟨failure, e, rfl, .inl rfl⟩
  | ok _ =>
  dsimp only
  rw [look_bind]
  cases hnew : hasSchema e.disk database table with
  | true => exact .inl ⟨.tableExists table, e, rfl, .inl rfl⟩
  | false =>
  rw [if_neg (by simp)]
  rcases onDisk_bind (Disk.makeDirectories (Path.schemas database)) _ e with
    ⟨failure, made, hmake, hrun⟩ | ⟨⟨⟩, made, hmake, hrun⟩
  · exact .inl ⟨failure, _, hrun, .inr ⟨Disk.makeDirectories_failure hmake, rfl, by rw [hmake]⟩⟩
  rw [hrun]
  rcases onDisk_bind (Disk.writeFile (Path.schema database table) _) _ { e with disk := made } with
    ⟨failure, written, hwrite, hrun⟩ | ⟨⟨⟩, written, hwrite, hrun⟩
  · exact .inl ⟨failure, _, hrun,
      .inr ⟨writeFile_failure hwrite, rfl, by rw [writeFile_error hwrite, hmake]⟩⟩
  refine .inr ⟨made, written, ?_, rfl, rfl, hmake, hwrite, hrun⟩
  intro column hcolumn
  have hvalid := Action.forM_eq_ok hcolumns column hcolumn
  unfold Name.check at hvalid
  split at hvalid
  · rename_i h
    exact h
  · exact absurd hvalid (by simp)

theorem doesOwn_createTable {database : String} (table definition : String)
    (hdatabase : who.requireDatabase = .ok database) (e : Engine) :
    DoesOwn who (.createTable table definition) e (createTable database table definition) e := by
  unfold createTable
  rw [DoesOwn, look_bind]
  by_cases hview : View.isPresent e.disk database table = true
  · rw [if_pos hview]
    exact doesOwn_error (refl e) rfl
  rw [if_neg hview]
  dsimp only
  rw [Action.ofExcept_bind]
  cases hcolumns : Definition.columns definition with
  | error failure => exact doesOwn_error (refl e) rfl
  | ok columns =>
  dsimp only
  rcases createSchema_cases database table columns Permissions.standard e with
    ⟨failure, e', hrun, rfl | ⟨-, hthere, rfl⟩⟩ | ⟨made, written, hnames, hthere, hnew, hmake, hwrite, hrun⟩
  · exact doesOwn_error (refl e') (Action.bind_of_error hrun)
  · rw [Action.bind_of_error hrun]
    exact ⟨_, .none, .createNothing hthere, rfl⟩
  · rw [Action.bind_of_ok hrun, onDisk_bind_pure_snd]
    exact ⟨_, .none, .createTable hdatabase hcolumns hnames hthere hnew hmake hwrite
      (by simpa using hview), rfl⟩

/-! ### All commands -/

/-- A command does what `Own` lists, and then what is due on the indexes. -/
theorem effect_cases {executing : Executing}
    (hselect : ∀ who query, Observes (executing who (.select query))) (who : Identity)
    (command : Command) (e : Engine) :
    DoesOwn who command e (effect executing who command) e := by
  unfold effect
  rw [DoesOwn, Action.read_bind]
  cases hrole : authorize who command e.role with
  | error failure => exact doesOwn_error (refl e) rfl
  | ok _ =>
  have inDatabase {step : String → Action Engine Effect}
      (h : ∀ database, who.requireDatabase = .ok database →
        DoesOwn who command e (step database) e) :
      DoesOwn who command e (Action.ofExcept who.requireDatabase >>= step) e := by
    rw [DoesOwn, Action.ofExcept_bind]
    cases hdatabase : who.requireDatabase with
    | error failure => exact doesOwn_error (refl e) rfl
    | ok database => exact h database hdatabase
  cases command with
  | insert table row => exact inDatabase fun _ h => doesOwn_insert table row h e
  | update table assigned conditions =>
    exact inDatabase fun _ h => doesOwn_update table assigned conditions h e
  | delete table conditions => exact inDatabase fun _ h => doesOwn_delete table conditions h e
  | createTable table definition =>
    exact inDatabase fun _ h => .map _ (doesOwn_createTable table definition h e)
  | select query =>
    exact inDatabase fun database _ => .map _ (doesOwn_of_quiet (refl e)
      ((observes_select hselect who database query).quiet e))
  | transaction control =>
    cases control with
    | begin => exact inDatabase fun _ _ => .map _ (doesOwn_begin e)
    | commit => exact inDatabase fun _ _ => .map _ (doesOwn_commit hrole)
    | rollback => exact inDatabase fun _ _ => .map _ (doesOwn_rollback e)
  | createIndex kind table column =>
    exact inDatabase fun _ h => .map _ (doesOwn_createIndex kind table column h e)
  | createView name query => exact inDatabase fun _ h => .map _ (doesOwn_createView name query h e)
  | createTrigger definition =>
    exact inDatabase fun _ h => .map _ (doesOwn_createTrigger definition h e)
  | search table column word =>
    exact inDatabase fun database _ => .map _ (doesOwn_of_quiet (refl e)
      ((observes_search who database table column word).quiet e))
  | showDatabases => exact DoesOwn.map _ (doesOwn_of_quiet (refl e) (refl e))
  | become role =>
    have hbecome : DoesOwn who (.become role) e (become role) e :=
      ⟨_, .none, .become role, by cases role <;> rfl⟩
    exact hbecome.map _

/-- What a definition did where it was executed with success. -/
theorem effect_of_executed {who : Identity} {command : Command} {database : String}
    {step : String → Action Engine Outcome} {e : Engine} {outcome : Outcome}
    (heffect : ∀ executing, effect executing who command = (do
      Action.read fun engine => authorize who command engine.role
      let database ← Action.ofExcept who.requireDatabase
      Effect.ofOutcome <$> step database))
    (hdatabase : who.requireDatabase = .ok database)
    (h : (executeWithin 1 who command e).1 = .ok outcome) :
    ∃ made after, step database e = (.ok made, after) ∧
      ∀ executing, (effect executing who command e).2 = after := by
  rcases hdone : effect (executeWithin 0) who command e with ⟨failure | done, after⟩
  · rw [executeWithin, perform, Action.bind_of_error hdone] at h
    exact absurd h (by simp)
  rw [heffect, Action.read_bind] at hdone
  cases hrole : authorize who command e.role with
  | error failure =>
    rw [hrole] at hdone
    exact absurd (congrArg Prod.fst hdone) (by simp)
  | ok _ =>
  rw [hrole] at hdone
  dsimp only at hdone
  rw [Action.ofExcept_bind, hdatabase] at hdone
  change (Effect.ofOutcome <$> step database) e = _ at hdone
  rw [Action.map_apply] at hdone
  rcases hstep : step database e with ⟨failure | made, e'⟩
  · rw [hstep] at hdone
    exact absurd (congrArg Prod.fst hdone) (by simp [Except.map])
  refine ⟨made, e', rfl, fun executing => ?_⟩
  rw [heffect, Action.read_bind, hrole]
  dsimp only
  rw [Action.ofExcept_bind, hdatabase]
  change ((Effect.ofOutcome <$> step database) e).2 = e'
  rw [Action.map_apply, hstep]

end FlatFileDb.Engine
