import FlatFileDb.Proofs.Buffer

/-!
# What holds of stored rows

A property of the rows of a table, by its schema, holds of every table on the disk if it holds of a
table without rows and of what the statements and the commits make of the rows they find. `Changes`
says what a statement makes of them at once; what a commit makes of them is `Log.Entry.change?`.
Nothing else writes a table or a schema.
-/

namespace FlatFileDb

namespace Path

theorem tablePlace_inj {home home' : Path} {name name' : String}
    (h : tablePlace home name = tablePlace home' name') : home = home' ∧ name = name' :=
  append_ending_inj h

theorem viewPlace_inj {home home' : Path} {name name' : String}
    (h : viewPlace home name = viewPlace home' name') : home = home' ∧ name = name' :=
  append_ending_inj h

theorem schemaPlace_ne_tablePlace (home home' : Path) (name name' : String) :
    schemaPlace home name ≠ tablePlace home' name' := by
  intro hsame
  have hends := endsIn_schemaPlace home name
  rw [hsame] at hends
  exact hends.not (by decide) (endsIn_tablePlace home' name')

end Path

namespace Disk

/-- The rows of every table are as they should be by its schema. -/
def Holds (P : TableSchema → List String → Prop) (disk : Disk) : Prop :=
  ∀ home name text schema rows, Name.isValid name = true →
    disk.at? (Path.schemaPlace home name) = some (.file text) →
      (Json.ofText? text).bind TableSchema.ofJson? = some schema →
        disk.at? (Path.tablePlace home name) = some (.file rows) →
          P schema (Text.filledLines rows)

variable {P : TableSchema → List String → Prop} {disk disk' : Disk}

theorem holds_empty : Disk.empty.Holds P :=
  fun _ _ _ _ _ _ hfile => absurd hfile (by simp)

/-- Neither schemas nor tables are written. -/
def SparesRows (disk disk' : Disk) : Prop :=
  Grows (fun _ => True) (fun place => Path.IsNoSchema place ∧ ¬Path.EndsIn ".mg" place) disk disk'

theorem Spares.sparesRows {apart : Prop} (h : Spares apart disk disk') : SparesRows disk disk' :=
  h.grows.mono (fun _ _ => trivial) fun _ hwritten => ⟨hwritten.1, hwritten.2.1⟩

theorem sparesRows_of_indexes (h : Grows (fun _ => False) Path.IsIndex disk disk') :
    SparesRows disk disk' :=
  h.mono (fun _ hno => hno.elim) fun place ⟨kind, hkind⟩ =>
    ⟨hkind.isNoSchema (by cases kind <;> decide), hkind.not (by cases kind <;> decide)⟩

namespace Holds

theorem spares (h : disk.Holds P) (hspares : SparesRows disk disk') : disk'.Holds P := by
  intro home name text schema rows hname htext hread hrows
  refine h home name text schema rows hname ?_ hread ?_
  · exact (hspares.unwritten fun hno => hno.1 home name hname rfl).1 htext
  · exact (hspares.unwritten fun hno => hno.2 (Path.endsIn_tablePlace home name)).1 hrows

theorem rows (h : disk.Holds P) {database table : String} {schema : TableSchema}
    {rows : List String} (htable : Name.isValid table = true)
    (hschema : Engine.readSchema disk database table = .ok schema)
    (hrows : Table.rows disk database table = .ok rows) : P schema rows := by
  obtain ⟨home, found, hhome, -, hentry, hfound⟩ := Engine.readSchema_eq_ok htable hschema
  obtain ⟨home', text, hhome', -, hthere, rfl⟩ := Table.rows_eq_ok htable hrows
  obtain rfl := hhome.unique hhome'
  exact h _ _ _ _ _ htable hentry hfound hthere

/-- The rows of one table are written. -/
theorem put (h : disk.Holds P) {database table text : String} {home : Path}
    {schema : TableSchema} (htable : Name.isValid table = true)
    (hhome : Database.LiesAt disk database home)
    (hschema : Engine.readSchema disk database table = .ok schema)
    (hrows : P schema (Text.filledLines text)) :
    (disk.put (Path.tablePlace home table) (.file text)).Holds P := by
  intro home' name text' schema' rows hname htext hread hfile
  rw [at?_put, if_neg (by simpa using Path.schemaPlace_ne_tablePlace home' home name table)] at htext
  rw [at?_put] at hfile
  split at hfile
  · rename_i hsame
    obtain ⟨rfl, rfl⟩ := Path.tablePlace_inj (eq_of_beq hsame)
    obtain ⟨home, found, hhome', -, hentry, hfound⟩ := Engine.readSchema_eq_ok hname hschema
    obtain rfl := hhome.unique hhome'
    have htexts := hentry.symm.trans htext
    rw [Option.some.injEq, DiskEntry.file.injEq] at htexts
    subst htexts
    obtain rfl := Option.some.inj (hfound.symm.trans hread)
    rw [Option.some.injEq, DiskEntry.file.injEq] at hfile
    exact hfile ▸ hrows
  · exact h home' name text' schema' rows hname htext hread hfile

end Holds

end Disk

/-! ### Known schemas -/

namespace Engine

variable {e e' : Engine}

/-- A schema that is known is sound, and one of its table. -/
theorem IsSound.knownSchema (h : e.IsSound) {database table : String} {schema : TableSchema}
    (htable : Name.isValid table = true) (hknown : e.knownSchema database table = .ok schema) :
    Engine.readSchema e.disk database table = .ok schema ∧ schema.IsSound ∧ schema.name = table := by
  have hread := h.readSchema htable hknown
  obtain ⟨home, text, -, -, hentry, hfound⟩ := readSchema_eq_ok htable hread
  obtain ⟨-, schema', hfound', hsound, hname⟩ := h.disk.schemas home table text htable hentry
  obtain rfl := Option.some.inj (hfound.symm.trans hfound')
  exact ⟨hread, hsound, hname⟩

/-- Every schema that can be read is known. -/
theorem IsSound.knownSchema_of_readSchema (h : e.IsSound) {database table : String}
    {schema : TableSchema} (htable : Name.isValid table = true)
    (hread : Engine.readSchema e.disk database table = .ok schema) :
    e.knownSchema database table = .ok schema := by
  unfold Engine.knownSchema
  split
  · rename_i found hmemory
    rw [← hread]
    exact (h.memory database table found htable hmemory).symm
  · exact hread

/-- The schema that an execution reads is the schema of the table from then on. -/
theorem Trace.readSchema {first : Engine} {executions : List Execution}
    (h : Trace first executions e) (hfirst : first.IsSound) {y : Execution} (hy : y ∈ executions)
    {database table : String} {schema : TableSchema} (htable : Name.isValid table = true)
    (hread : Engine.readSchema y.before.disk database table = .ok schema) :
    Engine.readSchema e.disk database table = .ok schema := by
  induction h with
  | start => exact absurd hy (by simp)
  | @command executions e e₁ who command upkeep h hnamed hown hafter ih =>
    have hbefore : Engine.readSchema e.disk database table = .ok schema := by
      rw [List.mem_append, List.mem_singleton] at hy
      rcases hy with hy | rfl
      · exact ih hy
      · exact hread
    have hafter := (h.isSound hfirst).readSchema_own hnamed hown htable hbefore
    have hindexes : Disk.Keeps True e₁.disk (upkeep.step e₁).2.disk :=
      Disk.keeps_of_indexes (rewrites_of_upkeep upkeep e₁).grows
    exact readSchema_of_keeps htable hindexes hafter
  | createDatabase h name ih =>
    exact readSchema_of_keeps htable (@Database.spares_create True name _).keeps (ih hy)
  | reopen h hopened ih =>
    obtain ⟨log, after, hlog, rfl⟩ := openOn_eq_ok hopened
    obtain ⟨-, -, hspares⟩ := Log.openAt_eq_ok hlog
    exact readSchema_of_keeps htable hspares.keeps (ih hy)
  | pass h nanoseconds ih => exact ih hy
  | maintain h hbackground hmaintains ih =>
    exact readSchema_of_keeps htable (@Disk.keeps_of_indexes True _ _ hmaintains.disk.grows) (ih hy)
  | queue h hbackground jobs ih => exact ih hy

/-- Where the rows of a table are read, its file is written. -/
theorem write_of_rows {disk disk' : Disk} {database table text : String} {rows : List String}
    (htable : Name.isValid table = true) (hrows : Table.rows disk database table = .ok rows)
    (hwrite : Disk.writeFile (Path.table database table) text disk = (.ok (), disk')) :
    ∃ home, Database.LiesAt disk database home ∧
      disk' = disk.put (Path.tablePlace home table) (.file text) := by
  obtain ⟨home, before, hhome, hlocate, -, -⟩ := Table.rows_eq_ok htable hrows
  refine ⟨home, hhome, ?_⟩
  exact congrArg Prod.snd
    (hwrite.symm.trans (Disk.writeFile_of_place (Disk.filePlace?_of_file hlocate) text))

end Engine

/-! ### Changes of a commit -/

namespace Log.Entry

/-- The rows that stand beside the one that an entry writes. -/
def others (entry : Entry) (rows : List String) : List String :=
  match entry.operation with
  | .insert => rows
  | .update | .delete => (Table.changeFirst? entry.rowId (fun _ => []) rows).getD rows

theorem change?_cases {entry : Entry} {rows after : List String}
    (h : entry.change? rows = some after) :
    (entry.others rows).Sublist rows ∧
      (entry.operation = .delete ∧ after = entry.others rows ∨
        entry.operation ≠ .delete ∧ (entry.others rows ++ [entry.row]).Perm after) := by
  unfold change? at h
  unfold others
  cases hoperation : entry.operation with
  | insert =>
    rw [hoperation] at h
    exact ⟨.refl rows, .inr ⟨by simp, by rw [← Option.some.inj h]⟩⟩
  | update =>
    rw [hoperation] at h
    obtain ⟨front, found, rest, rfl, hfound, hfront, rfl⟩ := Table.changeFirst?_eq_some h
    dsimp only
    rw [Table.changeFirst?_append hfront hfound, Option.getD_some, List.append_nil]
    refine ⟨(List.sublist_cons_self found rest).append_left front, .inr ⟨by simp, ?_⟩⟩
    rw [List.append_assoc, List.append_assoc]
    exact List.perm_append_comm.append_left front
  | delete =>
    rw [hoperation] at h
    obtain ⟨front, found, rest, rfl, hfound, hfront, rfl⟩ := Table.changeFirst?_eq_some h
    dsimp only
    rw [Table.changeFirst?_append hfront hfound, Option.getD_some, List.append_nil]
    exact ⟨(List.sublist_cons_self found rest).append_left front, .inl ⟨rfl, rfl⟩⟩

end Log.Entry

/-- What a commit applies may be asked for where the rows it finds are as they should be, and what it
makes of them. -/
theorem Disk.Holds.perform {P : TableSchema → List String → Prop} {entry : Log.Entry}
    {disk disk' : Disk} (h : disk.Holds P) (hdisk : disk.IsCatalogued) (hentry : entry.IsSound)
    {schema : TableSchema}
    (hschema : Engine.readSchema disk entry.database entry.table = .ok schema)
    (hperform : entry.perform disk = (.ok (), disk'))
    (hchange : ∀ rows after, Table.rows disk entry.database entry.table = .ok rows →
      entry.change? rows = some after → P schema rows → P schema (after.filter Text.isFilled)) :
    disk'.Holds P := by
  obtain ⟨home, text, text', rows, hhome, -, hrows, hafter, htext', -, rfl⟩ :=
    Log.Entry.perform_eq_ok hdisk hentry hperform
  refine h.put hentry.table hhome hschema ?_
  rw [htext']
  exact hchange _ _ hrows hafter (h.rows hentry.table hschema hrows)

namespace Engine

variable {P : TableSchema → List String → Prop} {who : Identity} {command : Command}
  {e e' : Engine}

/-! ### Making tables -/

/-- Making the file of a table writes it, if anything. -/
theorem init_cases {disk : Disk} {database table : String} {home : Path}
    (hhome : Database.LiesAt disk database home) (htable : Name.isValid table = true) :
    (Table.init database table disk).2 = disk ∨
      (Table.init database table disk).2
        = disk.put (Path.tablePlace home table) (.file "") := by
  unfold Table.init
  rw [Action.read_bind, hhome.require]
  dsimp only
  rcases Disk.writeFile_cases (Path.table database table) "" disk with hwrite | ⟨place, hplace, hwrite⟩
  · exact .inl (congrArg Prod.snd hwrite)
  · obtain ⟨before, part, folder, hpath, -, hfolder, rfl, -⟩ := Disk.filePlace?_eq_some hplace
    rw [Path.table_of_isValid database htable] at hpath
    obtain ⟨rfl, hpart⟩ := List.append_inj' hpath rfl
    rw [List.cons.injEq] at hpart
    obtain ⟨rfl, -⟩ := hpart
    obtain rfl := Database.LiesAt.unique hhome hfolder
    exact .inr (congrArg Prod.snd hwrite)

/-- A table is made without rows. -/
theorem IsSound.holds_createTable (h : e.IsSound) (hholds : e.disk.Holds P)
    (hnil : ∀ schema, P schema []) {database table text : String} {made written : Disk}
    (htable : Name.isValid table = true) (hdatabase : Database.require e.disk database = .ok ())
    (hnew : hasSchema e.disk database table = false)
    (hmake : Disk.makeDirectories (Path.schemas database) e.disk = (.ok (), made))
    (hwrite : Disk.writeFile (Path.schema database table) text made = (.ok (), written)) :
    (Table.init database table written).2.Holds P := by
  obtain ⟨home, hhome, -, hnone, hplace, hwritten⟩ :=
    schemaPlace_of_write (h.disk.folder htable) htable hdatabase hnew hmake hwrite
  have hmade : made.Holds P :=
    hholds.spares (@spares_schemas True _ _ _ hdatabase hmake).sparesRows
  have hput : Disk.Grows (fun _ => True) (fun _ => True) made written := by
    rw [hwritten]
    exact Disk.grows_put_file trivial (by rw [hnone]; simp) text
  have hhome' := hhome.grows hput
  intro home' name found schema rows hname hfound hread hrows
  by_cases hsame : Path.schemaPlace home' name = Path.schemaPlace home table
  · obtain ⟨rfl, rfl⟩ := Path.schemaPlace_inj hsame
    by_cases hfree : written.at? (Path.tablePlace home' name) = some .directory
    · have hkeeps : Disk.Keeps True written (Table.init database name written).2 :=
        Table.keeps_init database name written
      exact absurd ((hkeeps.grows.directory hfree).symm.trans hrows) (by simp)
    · rw [init_beside hhome' hname hplace hfree, Disk.at?_put, if_pos (by simp), Option.some.injEq,
        DiskEntry.file.injEq] at hrows
      rw [← hrows, Text.lists_empty.filledLines]
      exact hnil schema
  · have hother : Path.tablePlace home' name ≠ Path.tablePlace home table := by
      intro htables
      obtain ⟨rfl, rfl⟩ := Path.tablePlace_inj htables
      exact hsame rfl
    have hkept {place : Path} (hschema : place ≠ Path.schemaPlace home table)
        (hplaces : place ≠ Path.tablePlace home table) :
        (Table.init database table written).2.at? place = made.at? place := by
      rcases init_cases hhome' htable with hinit | hinit <;> rw [hinit, hwritten]
      · rw [Disk.at?_put, if_neg (by simpa using hschema)]
      · rw [Disk.at?_put, if_neg (by simpa using hplaces), Disk.at?_put,
          if_neg (by simpa using hschema)]
    rw [hkept hsame (Path.schemaPlace_ne_tablePlace home' home name table)] at hfound
    rw [hkept (Path.schemaPlace_ne_tablePlace home home' table name).symm hother] at hrows
    exact hmade home' name found schema rows hname hfound hread hrows

/-! ### Commands -/

/-- A commit keeps rows as they should be, if every change that it applies does. -/
theorem IsSound.holds_commit (h : e.IsSound) (hholds : e.disk.Holds P)
    {transaction : Transaction} {logged disk : Disk} {done : List Log.Entry}
    {failure : Option Error} (hactive : e.transactions.get? who.user = some transaction)
    (hlog : e.log.write (Log.numbered e.log.next transaction.changes) e.disk = (.ok (), logged))
    (happly : Log.Entry.performAll (Log.numbered e.log.next transaction.changes) logged
      = ((done, failure), disk))
    (hchange : ∀ a ∈ Log.Entry.applications (Log.numbered e.log.next transaction.changes) logged,
      ∀ schema rows after, e.knownSchema a.entry.database a.entry.table = .ok schema →
        Table.rows a.disk a.entry.database a.entry.table = .ok rows →
          a.entry.change? rows = some after → P schema rows →
            P schema (after.filter Text.isFilled)) : disk.Holds P := by
  have hlogged : Disk.Spares True e.disk logged := h.spares_write hlog
  have hwaiting : ∀ entry ∈ Log.numbered e.log.next transaction.changes, entry.IsSound ∧
      ∃ schema, Engine.readSchema e.disk entry.database entry.table = .ok schema := by
    intro entry hentry
    obtain ⟨before, hbefore, number, rfl⟩ := Log.mem_numbered hentry
    obtain ⟨hsound, schema, hschema⟩ :=
      h.waiting who.user transaction hactive before (List.mem_reverse.1 hbefore)
    exact ⟨⟨hsound.table, hsound.row⟩, schema, hschema⟩
  have hafter :
      (Log.Entry.performAll (Log.numbered e.log.next transaction.changes) logged).2.Holds P := by
    refine Log.Entry.performAll_induction (hholds.spares hlogged.sparesRows)
      fun a ha after hbefore hperform => ?_
    obtain ⟨hmem, hkeeps, -⟩ := Log.Entry.mem_applications ha
      fun entry hentry => @Log.Entry.keeps_perform True entry (hwaiting entry hentry).1
    obtain ⟨hentry, schema, hschema⟩ := hwaiting a.entry hmem
    have hall := IsTrans.trans _ _ _ hlogged.keeps hkeeps
    exact hbefore.perform (hall.isCatalogued h.disk) hentry
      (readSchema_of_keeps hentry.table hall hschema) hperform fun rows changed =>
        hchange a ha schema rows changed (h.knownSchema_of_readSchema hentry.table hschema)
  rw [happly] at hafter
  exact hafter

/-- What a command makes of the rows of a table at once. -/
inductive Changes (e : Engine) (database : String) (schema : TableSchema) (rows : List String) :
    Command → List String → Prop where
  | insert {row : String} (hrow : (schema.checkRow (storedValues database) row e).1 = .ok ()) :
    Changes e database schema rows (.insert schema.name row) (rows ++ [row])
  | update {assigned : Keyed String String} {conditions : List Condition}
    {assignments : List Assignment} {after : List String} {changed : List (String × String)}
    (hassigned : PassesAs schema assigned.entries assignments)
    (hchange : schema.update assignments conditions rows = .ok (after, changed)) :
    Changes e database schema rows (.update schema.name assigned conditions) after
  | delete (conditions : List Condition) :
    Changes e database schema rows (.delete schema.name conditions)
      (schema.delete conditions rows).1

/-- What a command stores is as it should be, if what it makes of rows is. -/
theorem IsSound.holds_own (h : e.IsSound) (hnamed : command.isWellNamed = true)
    {upkeep : Upkeep} (hown : Own who command e e' upkeep) (hholds : e.disk.Holds P)
    (hnil : ∀ schema, P schema [])
    (hchange : ∀ database schema rows after, e.knownSchema database schema.name = .ok schema →
      schema.IsSound → Table.rows e.disk database schema.name = .ok rows →
        Changes e database schema rows command after → P schema rows →
          P schema (after.filter Text.isFilled))
    (hcommit : ∀ a ∈ Execution.applications ⟨who, command, e⟩, ∀ schema rows after,
      e.knownSchema a.entry.database a.entry.table = .ok schema →
        Table.rows a.disk a.entry.database a.entry.table = .ok rows →
          a.entry.change? rows = some after → P schema rows →
            P schema (after.filter Text.isFilled)) : e'.disk.Holds P := by
  have hsame {disk : Disk} (hdisk : disk = e.disk) : disk.Holds P := by
    rw [hdisk]
    exact hholds
  cases hown with
  | quiet hquiet | insertLater _ hquiet | updateLater _ hquiet | deleteLater _ hquiet =>
    exact hsame hquiet.disk
  | become | begin | rollback | commitNothing => exact hholds
  | commit hrole hactive hchanges hlog happly =>
    rw [Execution.applications_of_commit hrole hactive hlog] at hcommit
    exact h.holds_commit hholds hactive hlog happly hcommit
  | @insert database table row _ e₁ schema disk hdatabase hquiet hfree hschema hrow hwrite =>
    obtain ⟨hread, hsound, rfl⟩ := h.knownSchema hnamed hschema
    -- The row is appended as a commit would append it.
    let entry := pendingEntry ⟨"", []⟩ who.user 0 .insert database schema.name (Row.id row) row none
    have hentry : entry.IsSound := ⟨hnamed, isLine_of_checkRow hrow⟩
    have hperform : entry.perform e.disk = (.ok (), disk) := hwrite
    refine hholds.perform h.disk hentry hread hperform fun rows after hrows hafter => ?_
    rw [← Option.some.inj hafter]
    exact hchange _ _ _ _ hschema hsound hrows (.insert hrow)
  | @update database table assigned conditions _ e₁ schema assignments rows after changed disk
      hdatabase hquiet hfree hschema hassigned hrows hupdate hwrite =>
    obtain ⟨hread, hsound, rfl⟩ := h.knownSchema hnamed hschema
    obtain ⟨home, hhome, rfl⟩ := write_of_rows hnamed hrows hwrite
    refine hholds.put hnamed hhome hread ?_
    rw [Table.filledLines_ofLines (isLine_update hassigned hupdate
      fun row hrow => (h.disk.row hrows row hrow).1).1]
    exact hchange _ _ _ _ hschema hsound hrows (.update hassigned hupdate)
      (hholds.rows hnamed hread hrows)
  | @delete database table conditions _ e₁ schema rows disk hdatabase hquiet hfree hschema hrows
      hwrite =>
    obtain ⟨hread, hsound, rfl⟩ := h.knownSchema hnamed hschema
    obtain ⟨home, hhome, rfl⟩ := write_of_rows hnamed hrows hwrite
    refine hholds.put hnamed hhome hread ?_
    have hlines : ∀ row ∈ (schema.delete conditions rows).1, Text.IsLine row := by
      rw [TableSchema.delete_eq]
      exact fun row hrow => (h.disk.row hrows row (List.mem_filter.1 hrow).1).1
    rw [Table.filledLines_ofLines hlines]
    exact hchange _ _ _ _ hschema hsound hrows (.delete conditions) (hholds.rows hnamed hread hrows)
  | createNothing hdatabase =>
    exact hholds.spares
      (@Disk.spares_makeDirectories_below True _ _ _ hdatabase (by decide)).sparesRows
  | createTable hrole hcolumns hnames hdatabase hnew hmake hwrite =>
    exact h.holds_createTable hholds hnil hnamed hdatabase hnew hmake hwrite
  | createIndex hdatabase hquiet hschema hposition =>
    exact hholds.spares (Disk.sparesRows_of_indexes (Index.grows_build _ _ _ _ _ e.disk))
  | createView hdatabase =>
    exact hholds.spares (@View.spares_save True _ _ _ e.disk).sparesRows
  | @createTrigger database definition _ e₁ created hdatabase hquiet =>
    rw [Command.isWellNamed, Bool.and_eq_true] at hnamed
    exact hholds.spares (@Trigger.spares_save True database { definition, created }
      hnamed.1 hnamed.2 e.disk).sparesRows

/-- Patching indexes leaves all rows alone. -/
theorem holds_upkeep (upkeep : Upkeep) (h : e.disk.Holds P) :
    (upkeep.step e).2.disk.Holds P :=
  h.spares (Disk.sparesRows_of_indexes (rewrites_of_upkeep upkeep e).grows)

theorem holds_openOn {settings : Settings} {clock : Nat} {disk : Disk} (h : disk.Holds P)
    (hopened : openOn settings clock disk = .ok e) : e.disk.Holds P := by
  obtain ⟨log, after, hlog, rfl⟩ := openOn_eq_ok hopened
  obtain ⟨-, -, hspares⟩ := Log.openAt_eq_ok hlog
  exact h.spares hspares.sparesRows

/-- What is stored is as it should be in the end and for every execution, if each of them leaves it
so where it was so for all up to it. -/
theorem Trace.holds_all {first : Engine} {executions : List Execution}
    (h : Trace first executions e) (hfirst : first.disk.Holds P)
    (hstep : ∀ earlier later who command before after upkeep,
      executions = earlier ++ ⟨who, command, before⟩ :: later → Trace first earlier before →
        (∀ y ∈ earlier, y.before.disk.Holds P) → before.disk.Holds P →
          command.isWellNamed = true → Own who command before after upkeep →
            after.disk.Holds P) :
    (∀ y ∈ executions, y.before.disk.Holds P) ∧ e.disk.Holds P := by
  induction h with
  | start => exact ⟨fun _ hno => absurd hno (by simp), hfirst⟩
  | @command executions e e₁ who command upkeep h hnamed hown hafter ih =>
    obtain ⟨hbefore, hholds⟩ := ih fun earlier later who' command' before after upkeep' hsplit =>
      hstep earlier (later ++ [⟨who, command, e⟩]) who' command' before after upkeep'
        (by rw [hsplit, List.append_assoc, List.cons_append])
    have hafter := hstep executions [] who command e e₁ upkeep rfl h hbefore hholds hnamed hown
    refine ⟨fun y hy => ?_, holds_upkeep upkeep hafter⟩
    rw [List.mem_append, List.mem_singleton] at hy
    rcases hy with hy | rfl
    · exact hbefore y hy
    · exact hholds
  | createDatabase h name ih =>
    obtain ⟨hbefore, hholds⟩ := ih hstep
    exact ⟨hbefore, hholds.spares (@Database.spares_create True name _).sparesRows⟩
  | reopen h hopened ih =>
    obtain ⟨hbefore, hholds⟩ := ih hstep
    exact ⟨hbefore, holds_openOn hholds hopened⟩
  | pass h nanoseconds ih => exact ih hstep
  | maintain h hbackground hmaintains ih =>
    obtain ⟨hbefore, hholds⟩ := ih hstep
    exact ⟨hbefore, hholds.spares (Disk.sparesRows_of_indexes hmaintains.disk.grows)⟩
  | queue h hbackground jobs ih => exact ih hstep

end Engine

theorem Run.holds_first {P : TableSchema → List String → Prop} (run : Run) :
    run.first.disk.Holds P :=
  Engine.holds_openOn Disk.holds_empty run.opened

end FlatFileDb
