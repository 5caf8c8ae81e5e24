import FlatFileDb.Proofs.Rollback
import FlatFileDb.Proofs.Stored

/-!
# Who may write

Before a command changes rows, the schema of their table is asked whether the role of the identity may
write it. What waits in a transaction was asked for when it was put there, so a commit may write it,
if that was asked for the same role. Triggers run as the identity that fired them, and none fires in a
transaction. So whatever a statement leads to, to any depth, writes tables of its role only.
-/

namespace FlatFileDb

/-- Everyone may read a table for which nothing else is said. -/
theorem Permissions.mem_standard (role : Role) : role ∈ standard.read := by
  cases role <;> decide

theorem TableSchema.require_eq_ok {schema : TableSchema} {role : Role} {access : Access} :
    schema.require role access = .ok () ↔ role ∈ schema.permissions.roles access := by
  unfold require
  split <;> simp_all

namespace Disk

variable {disk disk' : Disk} {home : Path} {name : String}

/-- Schemas stay, and the tables whose rows differ are ones that the role may write. -/
structure WritesAs (role : Role) (disk disk' : Disk) : Prop where
  schemas : ∀ home name schema, Name.isValid name = true →
    disk.schemaAt? home name = some schema → disk'.schemaAt? home name = some schema
  rows : ∀ home name, disk'.rowsAt? home name ≠ disk.rowsAt? home name →
    Name.isValid name = true ∧
      ∃ schema, disk'.schemaAt? home name = some schema ∧ role ∈ schema.permissions.write

variable {role : Role}

instance : IsPreorder Disk (WritesAs role) where
  refl _ := ⟨fun _ _ _ _ h => h, fun _ _ h => absurd rfl h⟩
  trans first second third h h' := by
    refine ⟨fun home name schema hname hschema =>
      h'.schemas home name schema hname (h.schemas home name schema hname hschema),
      fun home name hdiffer => ?_⟩
    by_cases hsecond : third.rowsAt? home name = second.rowsAt? home name
    · rw [hsecond] at hdiffer
      obtain ⟨hname, schema, hschema, hrole⟩ := h.rows home name hdiffer
      exact ⟨hname, schema, h'.schemas home name schema hname hschema, hrole⟩
    · exact h'.rows home name hsecond

theorem SparesRows.writesAs (h : SparesRows disk disk') : WritesAs role disk disk' where
  schemas home name schema hname hschema := by
    rw [schemaAt?, fileAt?_congr fun text => h.unwritten fun hno => hno.1 home name hname rfl]
    exact hschema
  rows home name hdiffer := by
    refine absurd ?_ hdiffer
    rw [rowsAt?, fileAt?_congr fun text => h.unwritten fun hno =>
      hno.2 (Path.endsIn_tablePlace home name)]
    rfl

/-- The rows of a table that the role may write are written. -/
theorem writesAs_put {schema : TableSchema} (hname : Name.isValid name = true)
    (hschema : disk.schemaAt? home name = some schema) (hrole : role ∈ schema.permissions.write)
    (text : String) : WritesAs role disk (disk.put (Path.tablePlace home name) (.file text)) := by
  have hschemas (home' : Path) (name' : String) :
      (disk.put (Path.tablePlace home name) (.file text)).schemaAt? home' name'
        = disk.schemaAt? home' name' := by
    rw [schemaAt?, fileAt?_put, if_neg (Path.schemaPlace_ne_tablePlace home' home name' name)]
    rfl
  refine ⟨fun home' name' schema' _ hschema => by rw [hschemas, hschema],
    fun home' name' hdiffer => ?_⟩
  rw [hschemas]
  by_cases hsame : Path.tablePlace home' name' = Path.tablePlace home name
  · obtain ⟨rfl, rfl⟩ := Path.tablePlace_inj hsame
    exact ⟨hname, schema, hschema, hrole⟩
  · rw [rowsAt?, fileAt?_put, if_neg hsame] at hdiffer
    exact absurd rfl hdiffer

/-- A schema is put where nothing was. -/
theorem writesAs_put_schema (hnone : disk.at? (Path.schemaPlace home name) = none) (text : String) :
    WritesAs role disk (disk.put (Path.schemaPlace home name) (.file text)) where
  schemas home' name' schema _ hschema := by
    rw [schemaAt?, fileAt?_put]
    split
    · rename_i hsame
      rw [schemaAt?, fileAt?, hsame, hnone] at hschema
      exact absurd hschema (by simp)
    · exact hschema
  rows home' name' hdiffer := by
    rw [rowsAt?, fileAt?_put,
      if_neg (Path.schemaPlace_ne_tablePlace home home' name name').symm] at hdiffer
    exact absurd rfl hdiffer

end Disk

namespace Engine

variable {who : Identity} {command : Command} {e e' : Engine}

/-! ### What was asked before -/

/-- What is asked of the schemas before a command changes anything. -/
def Grants (who : Identity) (e : Engine) : Command → Prop
  | .insert table _ | .update table _ _ | .delete table _ =>
    ∀ database schema, who.requireDatabase = .ok database →
      e.knownSchema database table = .ok schema → who.role ∈ schema.permissions.write
  | .createTable _ _ => who.role ∈ Permissions.standard.write
  | _ => True

theorem writable_of_writableSchema {database table : String} {schema : TableSchema}
    (h : (writableSchema who database table e).1 = .ok schema) :
    e.knownSchema database table = .ok schema ∧ who.role ∈ schema.permissions.write := by
  rw [writableSchema_result] at h
  obtain ⟨found, hfound, h⟩ := Action.of_bind_eq_ok h
  obtain ⟨⟨⟩, hrequire, h⟩ := Action.of_bind_eq_ok h
  obtain rfl := Except.ok.inj h
  exact ⟨hfound, TableSchema.require_eq_ok.1 hrequire⟩

/-- Who may not write a table leaves no trace. -/
theorem quiet_or_writable {α : Type} {database table : String} {next : TableSchema → Action Engine α} :
    Quiet e ((writableSchema who database table >>= next) e).2 ∨
      ∀ schema, e.knownSchema database table = .ok schema → who.role ∈ schema.permissions.write := by
  rcases (observes_writableSchema who database table).run_bind next e with
    ⟨failure, e₁, hquiet, hrun⟩ | ⟨schema, e₁, -, hschema, -⟩
  · rw [hrun]
    exact .inl hquiet
  · obtain ⟨hknown, hrole⟩ := writable_of_writableSchema hschema
    refine .inr fun found hfound => ?_
    rw [← Except.ok.inj (hknown.symm.trans hfound)]
    exact hrole

theorem standard_of_authorize {table definition : String} {role : NodeRole}
    (h : authorize who (.createTable table definition) role = .ok ()) :
    who.role ∈ Permissions.standard.write := by
  unfold authorize at h
  obtain ⟨-, -, h⟩ := Action.of_bind_eq_ok h
  obtain ⟨-, h, -⟩ := Action.of_bind_eq_ok h
  have hrank : Role.admin.rank ≤ who.role.rank := by
    by_contra hlow
    rw [if_pos (by rfl), Identity.requireRole, if_neg hlow] at h
    exact nomatch h
  revert hrank
  cases who.role <;> decide

/-- A command leaves no trace, or what it needs was granted. -/
theorem quiet_or_grants {executing : Executing} (who : Identity) (command : Command) (e : Engine) :
    Quiet e (effect executing who command e).2 ∨ Grants who e command := by
  unfold effect
  rw [Action.read_bind]
  cases hallowed : authorize who command e.role with
  | error failure => exact .inl (refl e)
  | ok _ =>
  have inDatabase {step : String → Action Engine Effect} {P : String → Prop}
      (h : ∀ database, Quiet e (step database e).2 ∨ P database) :
      Quiet e ((Action.ofExcept who.requireDatabase >>= step) e).2 ∨
        ∀ database, who.requireDatabase = .ok database → P database := by
    rw [Action.ofExcept_bind]
    cases hdatabase : who.requireDatabase with
    | error failure => exact .inl (refl e)
    | ok database =>
      refine (h database).imp_right fun hgranted found hfound => ?_
      rw [← Except.ok.inj hfound]
      exact hgranted
  cases command with
  | insert table row =>
    exact (inDatabase fun _ => quiet_or_writable).imp_right fun h database schema hdatabase =>
      h database hdatabase schema
  | update table assigned conditions =>
    exact (inDatabase fun _ => quiet_or_writable).imp_right fun h database schema hdatabase =>
      h database hdatabase schema
  | delete table conditions =>
    exact (inDatabase fun _ => quiet_or_writable).imp_right fun h database schema hdatabase =>
      h database hdatabase schema
  | createTable table definition => exact .inr (standard_of_authorize hallowed)
  | _ => exact .inr trivial

/-- What waits in the transaction of the identity may be written by its role. -/
def IsCleared (who : Identity) (e : Engine) : Prop :=
  ∀ transaction, e.transactions.get? who.user = some transaction →
    ∀ entry ∈ transaction.latest, ∃ schema,
      readSchema e.disk entry.database entry.table = .ok schema ∧
        who.role ∈ schema.permissions.write

theorem IsCleared.of_free (h : e.inTransaction who.user = false) : IsCleared who e := by
  intro transaction hactive
  rw [Engine.inTransaction, Keyed.contains, hactive] at h
  exact absurd h (by simp)

/-- The transaction goes on as it is. -/
theorem IsCleared.step (h : IsCleared who e) (hsound : e.IsSound)
    (htransactions : e'.transactions = e.transactions)
    (hread : ∀ database table schema, Name.isValid table = true →
      readSchema e.disk database table = .ok schema →
        readSchema e'.disk database table = .ok schema) : IsCleared who e' := by
  intro transaction hactive entry hentry
  rw [htransactions] at hactive
  obtain ⟨schema, hschema, hrole⟩ := h transaction hactive entry hentry
  have htable := (hsound.waiting who.user transaction hactive entry hentry).1.table
  exact ⟨schema, hread _ _ _ htable hschema, hrole⟩

/-- More changes of a table that the role may write wait. -/
theorem IsCleared.waiting (h : IsCleared who e) {transaction : Transaction}
    (hactive : e.transactions.get? who.user = some transaction) {database table : String}
    {schema : TableSchema} (hread : readSchema e.disk database table = .ok schema)
    (hrole : who.role ∈ schema.permissions.write) {entries : List Log.Entry}
    (hentries : ∀ entry ∈ entries, entry.database = database ∧ entry.table = table)
    (hquiet : Quiet e e') : IsCleared who (e'.waiting who.user transaction entries) := by
  intro found hfound entry hentry
  rw [Engine.waiting, Keyed.get?_insert, if_pos (by simp)] at hfound
  rw [← Option.some.inj hfound, List.mem_append, List.mem_reverse] at hentry
  change ∃ schema, readSchema e'.disk entry.database entry.table = .ok schema ∧ _
  rw [hquiet.disk]
  rcases hentry with hentry | hentry
  · obtain ⟨rfl, rfl⟩ := hentries entry hentry
    exact ⟨schema, hread, hrole⟩
  · exact h transaction hactive entry hentry

/-- Every command keeps what waits such that it may be written. -/
theorem IsCleared.own (h : IsCleared who e) (hsound : e.IsSound)
    (hnamed : command.isWellNamed = true) {upkeep : Upkeep} (hown : Own who command e e' upkeep)
    (hgrants : Grants who e command) : IsCleared who e' := by
  have hread {database table : String} {schema : TableSchema} (htable : Name.isValid table = true) :
      readSchema e.disk database table = .ok schema →
        readSchema e'.disk database table = .ok schema :=
    hsound.readSchema_own hnamed hown htable
  cases hown with
  | quiet hquiet => exact h.step hsound hquiet.transactions fun _ _ _ htable => hread htable
  | insert _ hquiet | update _ hquiet | delete _ hquiet | createIndex _ hquiet
  | createTrigger _ _ hquiet =>
    exact h.step hsound hquiet.transactions fun _ _ _ htable => hread htable
  | become | createNothing | createTable | createView =>
    exact h.step hsound rfl fun _ _ _ htable => hread htable
  | begin id hfree =>
    intro transaction hactive entry hentry
    rw [Keyed.get?_insert, if_pos (by simp)] at hactive
    rw [← Option.some.inj hactive] at hentry
    exact absurd hentry (by simp)
  | rollback | commitNothing | commit =>
    intro transaction hactive
    exact absurd hactive (by simp [Engine.committed, Keyed.get?_erase])
  | insertLater hdatabase hquiet hactive hschema hrow =>
    exact h.waiting hactive (hsound.readSchema hnamed hschema) (hgrants _ _ hdatabase hschema)
      (fun entry hentry => by rw [List.mem_singleton.1 hentry]; exact ⟨rfl, rfl⟩) hquiet
  | updateLater hdatabase hquiet hactive hschema hassigned hrows hchange =>
    refine h.waiting hactive (hsound.readSchema hnamed hschema) (hgrants _ _ hdatabase hschema)
      (fun entry hentry => ?_) hquiet
    obtain ⟨pair, -, rfl⟩ := List.mem_map.1 hentry
    exact ⟨rfl, rfl⟩
  | deleteLater hdatabase hquiet hactive hschema hrows =>
    refine h.waiting hactive (hsound.readSchema hnamed hschema) (hgrants _ _ hdatabase hschema)
      (fun entry hentry => ?_) hquiet
    obtain ⟨row, -, rfl⟩ := List.mem_map.1 hentry
    exact ⟨rfl, rfl⟩

/-! ### What commands write -/

/-- Who makes a table may write it. -/
theorem IsSound.writesAs_createTable (h : e.IsSound) {database table text : String}
    {schema : TableSchema} {made written : Disk} (htable : Name.isValid table = true)
    (hschema : (Json.ofText? text).bind TableSchema.ofJson? = some schema)
    (hdatabase : Database.require e.disk database = .ok ())
    (hnew : hasSchema e.disk database table = false)
    (hmake : Disk.makeDirectories (Path.schemas database) e.disk = (.ok (), made))
    (hwrite : Disk.writeFile (Path.schema database table) text made = (.ok (), written))
    {role : Role} (hrole : role ∈ schema.permissions.write) :
    Disk.WritesAs role e.disk (Table.init database table written).2 := by
  obtain ⟨home, hhome, -, hnone, -, rfl⟩ :=
    schemaPlace_of_write (h.disk.folder htable) htable hdatabase hnew hmake hwrite
  have hmade : Disk.WritesAs role e.disk made :=
    (@spares_schemas True _ _ _ hdatabase hmake).sparesRows.writesAs
  have hput : Disk.Grows (fun _ => True) (fun _ => True) made
      (made.put (Path.schemaPlace home table) (.file text)) :=
    Disk.grows_put_file trivial (by rw [hnone]; simp) text
  have hfound : (made.put (Path.schemaPlace home table) (.file text)).schemaAt? home table
      = some schema := by
    rw [Disk.schemaAt?, Disk.fileAt?_put, if_pos rfl]
    exact hschema
  have hinit : Disk.WritesAs role (made.put (Path.schemaPlace home table) (.file text))
      (Table.init database table (made.put (Path.schemaPlace home table) (.file text))).2 := by
    rcases init_cases (hhome.grows hput) htable with hinit | hinit
    · rw [hinit]
      exact refl _
    · rw [hinit]
      exact Disk.writesAs_put htable hfound hrole ""
  exact IsTrans.trans _ _ _ hmade (IsTrans.trans _ _ _ (Disk.writesAs_put_schema hnone text) hinit)

/-- A commit writes what was asked for. -/
theorem IsSound.writesAs_commit (h : e.IsSound) (hcleared : IsCleared who e)
    {transaction : Transaction} {logged disk : Disk} {done : List Log.Entry}
    {failure : Option Error} (hactive : e.transactions.get? who.user = some transaction)
    (hlog : e.log.write (Log.numbered e.log.next transaction.changes) e.disk = (.ok (), logged))
    (happly : Log.Entry.performAll (Log.numbered e.log.next transaction.changes) logged
      = ((done, failure), disk)) : Disk.WritesAs who.role e.disk disk := by
  have hlogged : Disk.Spares True e.disk logged := h.spares_write hlog
  have hwaiting : ∀ entry ∈ Log.numbered e.log.next transaction.changes, entry.IsSound ∧
      ∃ schema, Engine.readSchema e.disk entry.database entry.table = .ok schema ∧
        who.role ∈ schema.permissions.write := by
    intro entry hentry
    obtain ⟨before, hbefore, number, rfl⟩ := Log.mem_numbered hentry
    obtain ⟨hsound, -⟩ := h.waiting who.user transaction hactive before (List.mem_reverse.1 hbefore)
    exact ⟨⟨hsound.table, hsound.row⟩, hcleared transaction hactive before (List.mem_reverse.1 hbefore)⟩
  have hafter : Disk.WritesAs who.role e.disk
      (Log.Entry.performAll (Log.numbered e.log.next transaction.changes) logged).2 := by
    refine Log.Entry.performAll_induction hlogged.sparesRows.writesAs
      fun a ha after hbefore hperform => IsTrans.trans _ _ _ hbefore ?_
    obtain ⟨hmem, hkeeps, -⟩ := Log.Entry.mem_applications ha
      fun entry hentry => @Log.Entry.keeps_perform True entry (hwaiting entry hentry).1
    obtain ⟨hentry, schema, hschema, hrole⟩ := hwaiting a.entry hmem
    have hall := IsTrans.trans _ _ _ hlogged.keeps hkeeps
    obtain ⟨home, _, text', _, hhome, -, -, -, -, -, rfl⟩ :=
      Log.Entry.perform_eq_ok (hall.isCatalogued h.disk) hentry hperform
    exact Disk.writesAs_put hentry.table (Disk.schemaAt?_of_readSchema hentry.table hhome
      (readSchema_of_keeps hentry.table hall hschema)) hrole text'
  rw [happly] at hafter
  exact hafter

/-- A command writes what was asked for. -/
theorem IsSound.writesAs_own (h : e.IsSound) (hnamed : command.isWellNamed = true)
    {upkeep : Upkeep} (hown : Own who command e e' upkeep) (hgrants : Grants who e command)
    (hcleared : command = .transaction .commit → IsCleared who e) :
    Disk.WritesAs who.role e.disk e'.disk := by
  have hsame {disk : Disk} (hdisk : disk = e.disk) : Disk.WritesAs who.role e.disk disk := by
    rw [hdisk]
    exact refl e.disk
  cases hown with
  | quiet hquiet | insertLater _ hquiet | updateLater _ hquiet | deleteLater _ hquiet =>
    exact hsame hquiet.disk
  | become | begin | rollback | commitNothing => exact refl e.disk
  | commit hrole hactive hchanges hlog happly =>
    exact h.writesAs_commit (hcleared rfl) hactive hlog happly
  | @insert database table row _ e₁ schema disk hdatabase hquiet hfree hschema hrow hwrite =>
    -- The row is appended as a commit would append it.
    let entry := pendingEntry ⟨"", []⟩ who.user 0 .insert database table (Row.id row) row none
    have hentry : entry.IsSound := ⟨hnamed, isLine_of_checkRow hrow⟩
    have hperform : entry.perform e.disk = (.ok (), disk) := hwrite
    obtain ⟨home, _, text, _, hhome, -, -, -, -, -, rfl⟩ :=
      Log.Entry.perform_eq_ok h.disk hentry hperform
    exact Disk.writesAs_put hnamed (Disk.schemaAt?_of_readSchema hnamed hhome
      (h.readSchema hnamed hschema)) (hgrants _ _ hdatabase hschema) text
  | update hdatabase hquiet hfree hschema hassigned hrows hchange hwrite =>
    obtain ⟨home, hhome, rfl⟩ := write_of_rows hnamed hrows hwrite
    exact Disk.writesAs_put hnamed (Disk.schemaAt?_of_readSchema hnamed hhome
      (h.readSchema hnamed hschema)) (hgrants _ _ hdatabase hschema) _
  | delete hdatabase hquiet hfree hschema hrows hwrite =>
    obtain ⟨home, hhome, rfl⟩ := write_of_rows hnamed hrows hwrite
    exact Disk.writesAs_put hnamed (Disk.schemaAt?_of_readSchema hnamed hhome
      (h.readSchema hnamed hschema)) (hgrants _ _ hdatabase hschema) _
  | createNothing hdatabase =>
    exact (@Disk.spares_makeDirectories_below True _ _ _ hdatabase (by decide)).sparesRows.writesAs
  | createTable hrole hcolumns hnames hdatabase hnew hmake hwrite =>
    obtain ⟨hsound, hdistinct⟩ := Definition.columns_isSound hcolumns
    exact h.writesAs_createTable hnamed
      (TableSchema.ofText_indented ⟨hsound, hdistinct, hnames⟩) hdatabase hnew hmake hwrite hgrants
  | createIndex hdatabase hquiet hschema hposition =>
    exact (Disk.sparesRows_of_indexes (Index.grows_build _ _ _ _ _ e.disk)).writesAs
  | createView hdatabase => exact (@View.spares_save True _ _ _ e.disk).sparesRows.writesAs
  | @createTrigger database definition _ e₁ created hdatabase hquiet =>
    rw [Command.isWellNamed, Bool.and_eq_true] at hnamed
    exact (@Trigger.spares_save True database { definition, created }
      hnamed.1 hnamed.2 e.disk).sparesRows.writesAs

/-- A table with permissions of its own is made as any other. -/
theorem IsSound.createSchema (h : e.IsSound) {database table definition : String}
    {columns : List Column} {permissions : Permissions} {schema : TableSchema}
    (htable : Name.isValid table = true) (hcolumns : Definition.columns definition = .ok columns)
    (hcreate : Engine.createSchema database table columns permissions e = (.ok schema, e')) :
    IsSound { e' with disk := (Table.init database table e'.disk).2 } := by
  rcases createSchema_cases database table columns permissions e with
    ⟨failure, e₁, hrun, -⟩ | ⟨made, written, hnames, hdatabase, hnew, hmake, hwrite, hrun⟩
  · exact nomatch hcreate.symm.trans hrun
  · obtain ⟨-, rfl⟩ := Prod.mk.inj (hcreate.symm.trans hrun)
    exact h.createTable htable hcolumns hnames hdatabase hnew hmake hwrite

/-! ### What statements lead to -/

/-- An engine that patches at once, in which nothing waits that the identity may not write. -/
structure IsPermitted (who : Identity) (e : Engine) : Prop where
  isSound : e.IsSound
  inline : e.settings.background = false
  cleared : IsCleared who e

/-- Where all is permitted before, only what may be written is written, and all is permitted after. -/
def Permits (who : Identity) (e e' : Engine) : Prop :=
  IsPermitted who e → Disk.WritesAs who.role e.disk e'.disk ∧ IsPermitted who e'

instance : IsPreorder Engine (Permits who) where
  refl e h := ⟨refl e.disk, h⟩
  trans first second third h h' hfirst := by
    obtain ⟨hwrites, hsecond⟩ := h hfirst
    obtain ⟨hwrites', hthird⟩ := h' hsecond
    exact ⟨IsTrans.trans _ _ _ hwrites hwrites', hthird⟩

theorem writesAs_upkeep (upkeep : Upkeep) (e : Engine) {role : Role} :
    Disk.WritesAs role e.disk (upkeep.step e).2.disk :=
  (Disk.sparesRows_of_indexes (rewrites_of_upkeep upkeep e).grows).writesAs

theorem IsCleared.upkeep (h : IsCleared who e) (hsound : e.IsSound) (upkeep : Upkeep) :
    IsCleared who (upkeep.step e).2 := by
  have hread : ∀ database table schema, Name.isValid table = true →
      readSchema e.disk database table = .ok schema →
        readSchema (upkeep.step e).2.disk database table = .ok schema :=
    fun database table schema _ hread =>
      (readSchema_of_rewrites (rewrites_of_upkeep upkeep e) database table schema).2 hread
  refine h.step hsound ?_ hread
  rcases upkeep_cases upkeep e with hmaintains | ⟨-, jobs, hjobs⟩
  · exact hmaintains.transactions
  · rw [hjobs]

section Effect

variable {executing : Executing}

theorem writesAs_effect (hselect : ∀ who query, Observes (executing who (.select query)))
    (h : e.IsSound) (hnamed : command.isWellNamed = true)
    (hcleared : command = .transaction .commit → IsCleared who e) :
    Disk.WritesAs who.role e.disk (effect executing who command e).2.disk := by
  rcases quiet_or_grants who command e with hquiet | hgrants
  · rw [hquiet.disk]
    exact refl e.disk
  · obtain ⟨e₁, upkeep, hown, hafter⟩ := effect_cases hselect who command e
    rw [hafter]
    exact IsTrans.trans _ _ _ (h.writesAs_own hnamed hown hgrants hcleared)
      (writesAs_upkeep upkeep e₁)

theorem IsPermitted.effect (hselect : ∀ who query, Observes (executing who (.select query)))
    (h : IsPermitted who e) (hnamed : command.isWellNamed = true) :
    IsPermitted who (Engine.effect executing who command e).2 := by
  rcases quiet_or_grants who command e with hquiet | hgrants
  · refine ⟨h.isSound.quiet hquiet, by rw [hquiet.settings]; exact h.inline, ?_⟩
    refine h.cleared.step h.isSound hquiet.transactions fun _ _ _ _ hread => ?_
    rw [hquiet.disk]
    exact hread
  · obtain ⟨e₁, upkeep, hown, hafter⟩ := effect_cases hselect who command e
    have hsound := h.isSound.own hnamed hown
    rw [hafter]
    refine ⟨hsound.upkeep upkeep, ?_,
      (h.cleared.own h.isSound hnamed hown hgrants).upkeep hsound upkeep⟩
    rw [settings_of_upkeep, hown.frame.1]
    exact h.inline

theorem permits_effect (hselect : ∀ who query, Observes (executing who (.select query)))
    (hnamed : command.isWellNamed = true) :
    Action.Within (Permits who) (Engine.effect executing who command) :=
  fun _ h => ⟨writesAs_effect hselect h.isSound hnamed fun _ => h.cleared, h.effect hselect hnamed⟩

end Effect

theorem permits_fireTriggers {executing : Executing} (budget : Nat) (firing : Firing)
    (h : ∀ command, command.isWellNamed = true → Action.Within (Permits who) (executing who command)) :
    Action.Within (Permits who) (fireTriggers executing budget who firing) := by
  refine .bind .get fun e => .forM fun job hjob => ?_
  obtain ⟨action, rfl⟩ := Trace.isTrigger_of_mem_triggerJobs hjob
  intro e hpermitted
  rw [Trace.dispatch_inline hpermitted.inline, Job.run, Action.ofExcept_bind]
  cases hparse : Statement.parse action with
  | error failure => exact ⟨refl e.disk, hpermitted⟩
  | ok command =>
    dsimp only
    rw [bind_pure_snd]
    exact h command (Statement.isWellNamed_of_parse hparse) e hpermitted

/-- What a command leads to, to any depth, writes tables of the identity's role. -/
theorem permits_executeWithin (budget : Nat) (who : Identity) (command : Command)
    (hnamed : command.isWellNamed = true) :
    Action.Within (Permits who) (executeWithin budget who command) := by
  induction budget generalizing command with
  | zero => exact .read _
  | succ budget ih =>
    refine .bind (permits_effect (observes_executeWithin budget) hnamed) fun done => .bind ?_ fun _ =>
      .pure _
    cases done.firing with
    | none => exact .pure ()
    | some firing => exact permits_fireTriggers budget firing ih

/-- Every table whose rows are others after a statement is one that the role of its user may write, also
where triggers changed it. A commit is excepted: it writes what its user was allowed before. -/
theorem IsSound.mayWrite_of_changed (h : e.IsSound) (hinline : e.settings.background = false)
    (who : Identity) {text : String}
    (hcommit : Statement.parse text ≠ .ok (.transaction .commit)) {home : Path} {table : String}
    (hchanged : (Engine.run (some who) text e).2.disk.rowsAt? home table
      ≠ e.disk.rowsAt? home table) :
    ∃ schema, (Engine.run (some who) text e).2.disk.schemaAt? home table = some schema ∧
      who.role ∈ schema.permissions.write := by
  suffices hwrites : Disk.WritesAs who.role e.disk (Engine.run (some who) text e).2.disk from
    (hwrites.rows home table hchanged).2
  rcases run_cases (some who) text e with ⟨failure, hrun⟩ | ⟨_, command, hwho, hparse, hrun⟩
  · rw [hrun]
    exact refl e.disk
  obtain rfl := Option.some.inj hwho
  have hnamed := Statement.isWellNamed_of_parse hparse
  rw [hrun]
  cases hactive : e.inTransaction who.user with
  | false =>
    exact (permits_executeWithin _ who command hnamed e ⟨h, hinline, .of_free hactive⟩).1
  | true =>
    -- In a transaction no triggers fire, and only a commit would write what waits.
    rw [executeWithin, perform_inTransaction hactive]
    exact writesAs_effect (observes_executeWithin _) h hnamed fun hcommand =>
      absurd (hcommand ▸ hparse) hcommit

end Engine

namespace Run

/-- Two tables, and triggers from the first to the second and from there to a third. -/
def chained : Run :=
  .script "asep" "kantor"
    ["CREATE TABLE a id:INT", "CREATE TABLE b id:INT",
      "CREATE TRIGGER g WHEN INSERT ON a DO INSERT b 2",
      "CREATE TRIGGER h WHEN INSERT ON b DO INSERT c 3"]

/-- The third table: administrators may read it, and only the highest role may write it. -/
def guarded : Engine :=
  let made := (Engine.createSchema "kantor" "c" [.plain "id" .int]
    ⟨[.admin, .supermaung], [.supermaung]⟩ chained.last).2
  { made with disk := (Table.init "kantor" "c" made.disk).2 }

theorem isSound_guarded : guarded.IsSound := by
  have hcreate : (Engine.createSchema "kantor" "c" [.plain "id" .int]
      ⟨[.admin, .supermaung], [.supermaung]⟩ chained.last).1
        = .ok ⟨"kantor", "c", [.plain "id" .int], ⟨[.admin, .supermaung], [.supermaung]⟩⟩ := by
    decide +kernel
  have hcolumns : Definition.columns "id:INT" = .ok [.plain "id" .int] := by decide +kernel
  have hsound := chained.isSound_last
  unfold guarded
  generalize chained.last = e at *
  exact hsound.createSchema (by decide) hcolumns (Prod.ext hcreate rfl)

theorem mayWrite_of_changed_guarded :
    guarded.disk.rowsAt? ["db_kantor"] "c" = some [] ∧
      (Engine.run (some author) "INSERT a 1" guarded).2.disk.rowsAt? ["db_kantor"] "c"
        = some ["3"] ∧
      ∃ schema, (Engine.run (some author) "INSERT a 1" guarded).2.disk.schemaAt? ["db_kantor"] "c"
        = some schema ∧ author.role ∈ schema.permissions.write := by
  have hrun : guarded.settings.background = false ∧
      Statement.parse "INSERT a 1" ≠ .ok (.transaction .commit) ∧
      guarded.disk.rowsAt? ["db_kantor"] "c" = some [] ∧
      (Engine.run (some author) "INSERT a 1" guarded).2.disk.rowsAt? ["db_kantor"] "c"
        = some ["3"] := by
    decide +kernel
  obtain ⟨hinline, hcommit, hbefore, hafter⟩ := hrun
  have hsound := isSound_guarded
  generalize guarded = e at *
  refine ⟨hbefore, hafter, hsound.mayWrite_of_changed hinline author hcommit ?_⟩
  rw [hbefore, hafter]
  simp

end Run

end FlatFileDb
