import FlatFileDb.Proofs.Failure
import FlatFileDb.Proofs.Listing
import FlatFileDb.Proofs.Naming
import FlatFileDb.Proofs.Patching
import FlatFileDb.Proofs.Replica
import FlatFileDb.Proofs.Single
import FlatFileDb.Proofs.Stored
import FlatFileDb.Proofs.Undisturbed
import FlatFileDb.Proofs.Words

/-!
# Statements that define and fill tables

A row that is written without blanks around it is inserted as it stands: the words of the statement
are counted up to the table, and what is left of the text is the row, whatever stands in it.

Where no trigger is stored and no transaction is in progress, a statement that defines a table or
inserts a row is refused, or it does what it says. `Engine.Appends` and `Engine.Defines` say what that
is, and `Engine.Fills` what else may have happened: patches of indexes, and schemas of tables that got
no file.
-/

namespace FlatFileDb

namespace Statement

variable {table row : String}

theorem commandOf_insert (read : List Char → Except Error Command) (cursor : Cursor) :
    commandOf read "INSERT" cursor = insertion cursor := by
  rw [commandOf, if_neg (by decide), if_pos (by decide)]

/-- A table, and behind it a row as written. -/
theorem insertion_of_left {cursor : Cursor} {rest : List String}
    (hleft : cursor.left = table :: rest) (htable : Name.isValid table = true) {raw : List Char}
    (hraw : Text.dropWords (cursor.taken + 1) cursor.source = raw) :
    insertion cursor = if raw.isEmpty then .error (.unexpectedEnd "row data")
      else .ok (.insert table (String.ofList raw)) := by
  have hname : cursor.name "table name" = .ok (table, cursor.advance 1) := by
    rw [Cursor.name, Cursor.token, hleft]
    change (if Name.isValid table then _ else _) = _
    rw [if_pos htable]
    rfl
  have hrest : (cursor.advance 1).someRawRest "row data"
      = if raw.isEmpty then .error (.unexpectedEnd "row data") else .ok raw := by
    rw [← hraw]
    rfl
  rw [insertion, hname]
  change (do
    return Command.insert table (String.ofList (← (cursor.advance 1).someRawRest "row data"))) = _
  rw [hrest]
  split <;> rfl

/-- What stands behind the verb and the table. -/
theorem afterWords_insert (htable : Name.isValid table = true) {rest : List Char}
    (hrest : Text.StartsBlank rest) :
    Text.afterWords 2 ("INSERT".toList ++ ' ' :: (table.toList ++ rest)) = Text.trimStart rest := by
  have hblank : Text.isBlank ' ' = true := by decide
  have hword {name : String} (hname : Name.isValid name = true) :
      ∀ c ∈ name.toList, Text.isBlank c = false := fun _ hc =>
    Name.isBlank_eq_false (Name.isNameChar_of_mem hname hc)
  have hverb : Text.afterWords 2 ("INSERT".toList ++ ' ' :: (table.toList ++ rest))
      = Text.afterWords 1 (' ' :: (table.toList ++ rest)) :=
    @Text.afterWords_succ [] "INSERT".toList _ (by simp) (hword (by decide)) (by decide)
      (by simpa [Text.StartsBlank] using hblank) 1
  have htables : Text.afterWords 1 (' ' :: (table.toList ++ rest)) = Text.afterWords 0 rest :=
    @Text.afterWords_succ [' '] table.toList rest (by simpa using hblank) (hword htable)
      (Name.toList_ne_nil htable) hrest 0
  exact hverb.trans htables

theorem endsStatement_insert (htable : Name.isValid table = true) {pieces : List String}
    (h : ∀ piece ∈ pieces, EndsStatement piece.toList) :
    ∀ piece ∈ "INSERT" :: table :: pieces, EndsStatement piece.toList := by
  have hverb : tokens "INSERT".toList = ["INSERT"] := by decide
  exact List.forall_mem_cons.2 ⟨endsStatement_of_tokens hverb (by decide), List.forall_mem_cons.2
    ⟨endsStatement_of_tokens (tokens_of_isValid htable) (Name.not_mem htable (by decide)), h⟩⟩

/-- A row that is written without blanks around it is inserted as it stands, whatever is in it. -/
theorem parse_insert (htable : Name.isValid table = true)
    (hstart : Text.trimStart row.toList = row.toList) (hend : EndsStatement row.toList) :
    parse ("INSERT " ++ table ++ " " ++ row) = .ok (.insert table row) := by
  have htext : "INSERT " ++ table ++ " " ++ row = " ".intercalate ["INSERT", table, row] := by
    simp [String.intercalate_cons_cons, ← String.append_assoc]
  obtain ⟨read, hparse⟩ := parse_joinTokens (by decide)
    (endsStatement_insert htable (List.forall_mem_singleton.2 hend))
  obtain ⟨last, hlast, hblank, -⟩ := hend
  obtain ⟨before, hrow⟩ := List.getLast?_eq_some_iff.1 hlast
  have hraw : Text.dropWords 2 (joinTokens ["INSERT", table, row]) = row.toList := by
    have hgap : Text.trimStart (' ' :: row.toList) = Text.trimStart row.toList :=
      @Text.trimStart_blank_append [' '] (List.forall_mem_singleton.2 (by decide)) row.toList
    rw [joinTokens_cons_cons, joinTokens_cons_cons, joinTokens_singleton, Text.dropWords,
      afterWords_insert htable (by simp [Text.StartsBlank, Text.isBlank]), hgap, hstart, hrow,
      Text.trimEnd_of_last hblank]
  have hleft : tokensOf [table, row] = table :: tokens row.toList := by
    simp [tokens_of_isValid htable]
  have hread := @insertion_of_left table ⟨joinTokens ["INSERT", table, row], 1, tokensOf [table, row]⟩
    _ hleft htable _ hraw
  rw [htext, hparse, commandOf_insert, hread, hrow, if_neg (by simp), ← hrow, String.ofList_toList]

/-- Without a row nothing is inserted. -/
theorem parse_insert_nothing (htable : Name.isValid table = true) :
    parse ("INSERT " ++ table ++ " " ++ "") = .error (.unexpectedEnd "row data") := by
  have htext : ("INSERT " ++ table ++ " " ++ "").toList = joinTokens ["INSERT", table] ++ [' '] := by
    rw [joinTokens_cons_cons, joinTokens_singleton]
    simp
  have hclean := @clean_joinTokens [' '] "INSERT" [table] (by decide)
    (endsStatement_insert htable (by simp)) (List.forall_mem_singleton.2 (by decide))
  obtain ⟨read, hparse⟩ := @parse_of_clean ("INSERT " ++ table ++ " " ++ "") "INSERT" [table]
    (by decide) (by rw [htext, hclean])
  have hraw : Text.dropWords 2 (joinTokens ["INSERT", table]) = [] := by
    have hnothing := @afterWords_insert table htable [] trivial
    rw [List.append_nil] at hnothing
    rw [joinTokens_cons_cons, joinTokens_singleton, Text.dropWords, hnothing]
    rfl
  have hleft : tokensOf [table] = [table] := tokensOf_of_tokens (by simp [tokens_of_isValid htable])
  have hread := @insertion_of_left table ⟨joinTokens ["INSERT", table], 1, tokensOf [table]⟩
    _ hleft htable _ hraw
  rw [hparse, commandOf_insert, hread]
  rfl

end Statement
/-- Whether a job patches indexes. -/
def Job.isPatch : Job → Bool
  | runTrigger _ _ _ => false
  | _ => true

namespace Path

/-- Whether a place is one where files of tables stand. -/
def IsOfTables (place : Path) : Prop :=
  EndsIn ".mg" place ∨ IsIndex place ∨ ∃ home table, place = schemaPlace home table

theorem IsOfTables.not_endsIn_view {place : Path} (h : IsOfTables place) : ¬EndsIn ".view" place := by
  rcases h with htable | ⟨kind, hkind⟩ | ⟨home, table, rfl⟩
  · exact htable.not (by decide)
  · exact hkind.not (by cases kind <;> decide)
  · exact (endsIn_schemaPlace home table).not (by decide)

theorem IsOfTables.not_isTrigger {home : Path} {file : String}
    (h : IsOfTables (home ++ ["triggers"] ++ [file])) :
    ¬EndsIn ".json" (home ++ ["triggers"] ++ [file]) := by
  rcases h with htable | ⟨kind, hkind⟩ | ⟨home', table, hsame⟩
  · exact htable.not (by decide)
  · exact hkind.not (by cases kind <;> decide)
  · have hparent := (List.append_inj' (List.append_inj' hsame rfl).1 rfl).2
    exact absurd hparent (by decide)

end Path

namespace Disk

variable {disk disk' : Disk} {made written : Path → Prop}

/-- Whether a place is that of an index, or of a schema that is not there yet. -/
def IsAside (disk : Disk) (place : Path) : Prop :=
  Path.IsIndex place ∨ disk.at? place = none ∧ ∃ home table, place = Path.schemaPlace home table

theorem IsAside.isOfTables {place : Path} (h : disk.IsAside place) : place.IsOfTables :=
  h.elim (.inr ∘ .inl) fun hnew => .inr (.inr hnew.2)

theorem IsAside.ne_tablePlace {place : Path} (h : disk.IsAside place) (home : Path) (table : String) :
    place ≠ Path.tablePlace home table := by
  rcases h with hindex | ⟨-, home', table', rfl⟩
  · exact Path.IsIndex.ne_tablePlace hindex home table
  · exact Path.schemaPlace_ne_tablePlace home' home table' table

theorem IsAside.ne_schemaPlace {place : Path} (h : disk.IsAside place) {home : Path}
    {table text : String} (hfile : disk.at? (Path.schemaPlace home table) = some (.file text)) :
    place ≠ Path.schemaPlace home table := by
  rintro rfl
  rcases h with hindex | ⟨hnone, -⟩
  · exact Path.IsIndex.ne_schemaPlace hindex home table rfl
  · exact absurd (hnone.symm.trans hfile) (by simp)

end Disk

namespace Engine

/-- Files are written at some places only, no transaction begins, and nothing but patches comes to
wait. -/
structure Fills (written : Path → Prop) (e e' : Engine) : Prop where
  grows : Disk.Grows (fun _ => True) written e.disk e'.disk
  transactions : e'.transactions = e.transactions
  patches : ∀ job ∈ e'.latestJobs, job ∈ e.latestJobs ∨ job.isPatch = true

variable {written : Path → Prop} {who : Identity} {database table row definition : String}
  {e e' : Engine}

instance : IsPreorder Engine (Fills written) where
  refl e := ⟨refl e.disk, rfl, fun _ => .inl⟩
  trans _ _ _ h h' := by
    refine ⟨IsTrans.trans _ _ _ h.grows h'.grows, h'.transactions.trans h.transactions,
      fun job hjob => ?_⟩
    rcases h'.patches job hjob with hbefore | hpatch
    · exact h.patches job hbefore
    · exact .inr hpatch

theorem Fills.mono {written' : Path → Prop} (h : Fills written e e')
    (hwritten : ∀ place, written place → written' place) : Fills written' e e' :=
  ⟨h.grows.mono (fun _ => id) hwritten, h.transactions, h.patches⟩

theorem Quiet.fills (h : Quiet e e') : Fills written e e' :=
  ⟨by rw [h.disk]; exact refl e.disk, h.transactions, fun _ hjob => .inl (h.latestJobs ▸ hjob)⟩

theorem Maintains.fills (h : Maintains e e') : Fills Path.IsIndex e e' :=
  ⟨h.disk.grows.mono (fun _ hno => hno.elim) fun _ => id, h.transactions,
    fun _ hjob => .inl (h.latestJobs ▸ hjob)⟩

theorem Upkeep.fills (upkeep : Upkeep) (e : Engine) :
    Fills Path.IsIndex e (upkeep.step e).2 := by
  have hdispatch {job : Job} {step : Action Engine Unit} (hjob : job.isPatch = true)
      (hstep : Action.Within Maintains step) : Fills Path.IsIndex e (dispatch job step e).2 := by
    rw [dispatch, Action.get_bind]
    cases hbackground : e.settings.background with
    | false => exact (hstep e).fills
    | true =>
      refine ⟨refl e.disk, rfl, fun other hother => ?_⟩
      rcases List.mem_cons.1 hother with rfl | hbefore
      · exact .inr hjob
      · exact .inl hbefore
  cases upkeep with
  | none => exact refl e
  | rows database schema removed added =>
    exact hdispatch rfl (maintains_patchTable database schema removed added)
  | applied entries =>
    change Fills Path.IsIndex e (patchCommitted entries e).2
    unfold patchCommitted
    split
    · exact refl e
    · exact hdispatch rfl (.forM fun entry _ => maintains_patchEntry entry)

/-! ### Settling patches -/

theorem maintains_job {job : Job} (h : job.isPatch = true) (executing : Nat → Executing) :
    Action.Within Maintains (job.run executing) := by
  cases job with
  | patchRows database schema removed added => exact maintains_patchTable database schema removed added
  | patchEntries entries => exact .forM fun entry _ => maintains_patchEntry entry
  | runTrigger => exact absurd h (by simp [Job.isPatch])

/-- A queue of patches is settled by patching. -/
theorem fills_runGenerations (count : Nat) (h : ∀ job ∈ e.latestJobs, job.isPatch = true) :
    Fills Path.IsIndex e (runGenerations count e).2 := by
  induction count generalizing e with
  | zero => exact refl e
  | succ count ih =>
    rw [runGenerations, Action.get_bind]
    split
    · exact refl e
    have hgeneration : Maintains { e with latestJobs := [] } (runGeneration e).2 :=
      (Action.Within.forM fun job hjob =>
        (maintains_job (h job (List.mem_reverse.1 hjob)) _).attempt) { e with latestJobs := [] }
    have hok : (runGeneration e).1 = .ok () := Trace.forM_ok (fun _ _ => rfl) _ _
    have hdone : Fills Path.IsIndex e (runGeneration e).2 :=
      ⟨hgeneration.fills.grows, hgeneration.transactions,
        fun job hjob => absurd (hgeneration.latestJobs ▸ hjob) (by simp)⟩
    rw [Action.bind_of_ok (Prod.ext hok rfl)]
    refine IsTrans.trans _ _ _ hdone (ih fun job hjob => ?_)
    exact absurd (hgeneration.latestJobs ▸ hjob) (by simp)

/-- Whatever happens that is no statement fills no table. -/
theorem fills_after {event : Event} (hsound : e.IsSound) (hopen : e.IsOpen)
    (hfree : e.transactions = .empty) (hpatches : ∀ job ∈ e.latestJobs, job.isPatch = true)
    (hevent : event.isStatement = false) : Fills Path.IsIndex e (event.after e) := by
  cases event with
  | statement session text => exact absurd hevent (by simp [Event.isStatement])
  | createDatabase name =>
    exact ⟨(Database.grows_create name e.disk).mono (fun _ _ => trivial) fun _ => id, rfl,
      fun _ => .inl⟩
  | settle => exact fills_runGenerations _ hpatches
  | reopen =>
    cases hopened : e.reopen with
    | error failure =>
      rw [Event.after_reopen_of_error hopened]
      exact refl e
    | ok opened =>
      rw [Event.after_reopen hopened]
      have hdisk := disk_of_reopen hsound hopen hopened
      obtain ⟨log, after, -, rfl⟩ := openOn_eq_ok hopened
      exact ⟨by rw [hdisk]; exact refl e.disk, hfree.symm, fun _ hno => absurd hno (by simp)⟩
  | pass nanoseconds => exact ⟨refl e.disk, rfl, fun _ => .inl⟩

/-! ### Defining and filling a table -/

/-- A command comes to what it comes to itself, whatever the triggers do that it fires. -/
theorem perform_result (executing : Executing) (budget : Nat) (who : Identity) (command : Command)
    (e : Engine) :
    (perform executing budget who command e).1
      = (effect executing who command e).1.map Effect.outcome := by
  unfold perform
  rcases heffect : effect executing who command e with ⟨failure | ⟨outcome, firing⟩, after⟩
  · rw [Action.bind_of_error heffect]
    rfl
  · rw [Action.bind_of_ok heffect]
    cases firing with
    | none => rfl
    | some firing =>
      have hfired : fireTriggers executing budget who firing after
          = (.ok (), (fireTriggers executing budget who firing after).2) :=
        Prod.ext (fireTriggers_ok executing budget who firing after) rfl
      change (((fireTriggers executing budget who firing) >>= fun _ => pure outcome) after).1 = _
      rw [Action.bind_of_ok hfired]
      rfl

/-- Without triggers nothing else happens either. -/
theorem perform_eq {executing : Executing} {budget : Nat} {command : Command}
    (h : (effect executing who command e).2.disk.IsUntriggered) :
    perform executing budget who command e
      = ((effect executing who command e).1.map Effect.outcome, (effect executing who command e).2) :=
  Prod.ext (perform_result executing budget who command e) (perform_snd h)

/-- A command that may run, runs in the selected database. -/
def RunsSelected (who : Identity) (command : Command) : Prop :=
  ∀ executing, effect executing who command = (do
    Action.read fun engine => authorize who command engine.role
    let database ← Action.ofExcept who.requireDatabase
    effectIn executing who database command)

/-- A command in the selected database is refused before anything is done, or it is taken there. -/
theorem effect_refused_or {command : Command} (hcommand : RunsSelected who command)
    (executing : Executing) (e : Engine) :
    (∃ failure, effect executing who command e = (.error failure, e)) ∨
      ∃ database, who.requireDatabase = .ok database ∧
        effect executing who command e = effectIn executing who database command e := by
  rw [hcommand, Action.read_bind]
  cases authorize who command e.role with
  | error failure => exact .inl ⟨failure, rfl⟩
  | ok _ =>
  dsimp only
  rw [Action.ofExcept_bind]
  cases who.requireDatabase with
  | error failure => exact .inl ⟨failure, rfl⟩
  | ok database => exact .inr ⟨database, rfl, rfl⟩

/-- A new table stands in the directory of its database, with a schema and without rows. -/
structure Defines (database table : String) (columns : List Column) (home : Path) (e e' : Engine) :
    Prop where
  lies : Database.LiesAt e.disk database home
  fresh : hasSchema e.disk database table = false
  fills : Fills (fun place => place = Path.tablePlace home table ∨ e.disk.IsAside place) e e'
  schema : readSchema e'.disk database table = .ok ⟨database, table, columns, Permissions.standard⟩
  rows : Table.rows e'.disk database table = .ok []

/-- A row of the width of a table stands behind the others. -/
structure Appends (database table row : String) (home : Path) (e e' : Engine) : Prop where
  lies : Database.LiesAt e.disk database home
  fills : Fills (fun place => place = Path.tablePlace home table ∨ e.disk.IsAside place) e e'
  width : ∃ schema, readSchema e.disk database table = .ok schema ∧
    (Row.fields row).length = schema.columns.length
  rows : ∃ rows, Table.rows e.disk database table = .ok rows ∧
    Table.rows e'.disk database table = .ok (rows ++ [row])

/-- A row that is appended stands behind the others. -/
theorem IsSound.append_eq_ok (h : e.IsSound) {database : String} (htable : Name.isValid table = true)
    (hline : Text.IsLine row) (hfilled : Text.isFilled row = true) {disk : Disk}
    (hwrite : Table.append database table row e.disk = (.ok (), disk)) :
    ∃ home rows, Database.LiesAt e.disk database home ∧
      Disk.Grows (fun _ => True) (fun place => place = Path.tablePlace home table) e.disk disk ∧
      Table.rows e.disk database table = .ok rows ∧
      Table.rows disk database table = .ok (rows ++ [row]) := by
  -- The row is appended as a commit would append it.
  let entry := pendingEntry ⟨"", []⟩ "" 0 .insert database table (Row.id row) row none
  have hentry : entry.IsSound := ⟨htable, hline⟩
  have hperform : entry.perform e.disk = (.ok (), disk) := hwrite
  obtain ⟨home, text, text', rows, hhome, hthere, hrows, hchange, -, hrows', rfl⟩ :=
    Log.Entry.perform_eq_ok h.disk hentry hperform
  replace hthere : e.disk.at? (Path.tablePlace home table) = some (.file text) := hthere
  obtain rfl := Option.some.inj hchange
  have hall : ∀ line ∈ Text.filledLines text ++ [row], Text.isFilled line = true := by
    intro line hline
    rcases List.mem_append.1 hline with hbefore | hlast
    · exact (h.disk.row hrows line hbefore).2
    · exact List.mem_singleton.1 hlast ▸ hfilled
  have hgrows : Disk.Grows (fun _ => True) (fun place => place = Path.tablePlace home table) e.disk
      (e.disk.put (Path.tablePlace home table) (.file text')) :=
    Disk.grows_put_file (by rfl) (by rw [hthere]; simp) text'
  exact ⟨home, _, hhome, hgrows, hrows, hrows'.trans (congrArg Except.ok (List.filter_eq_self.2 hall))⟩

/-- Outside of a transaction a row is stored, or nothing is done. -/
theorem IsSound.insert_cases (h : e.IsSound) (database : String) (htable : Name.isValid table = true)
    (hfilled : Text.isFilled row = true) (hfree : e.inTransaction who.user = false) :
    (∃ failure e', insert who database table row e = (.error failure, e') ∧ Quiet e e') ∨
      ∃ effect home e', insert who database table row e = (.ok effect, e') ∧
        Appends database table row home e e' := by
  unfold insert
  rcases (observes_writableSchema who database table).run_bind _ e with
    ⟨failure, e₁, hquiet, hrun⟩ | ⟨schema, e₁, hquiet, hschema, hrun⟩
  · exact .inl ⟨failure, e₁, hrun, hquiet⟩
  have hread := h.readSchema htable (writableSchema_eq_ok hschema)
  rw [hrun]
  rcases (observes_checkRow schema database row).run_bind _ e₁ with
    ⟨failure, e₂, hmore, hrun⟩ | ⟨⟨⟩, e₂, hmore, hrow, hrun⟩
  · exact .inl ⟨failure, e₂, hrun, IsTrans.trans _ _ _ hquiet hmore⟩
  replace hquiet := IsTrans.trans _ _ _ hquiet hmore
  rw [hrun, isBuffering_bind, hquiet.inTransaction, hfree, if_neg (by simp)]
  rcases onDisk_bind (Table.append database table row) _ e₂ with
    ⟨failure, disk, hwrite, hrun⟩ | ⟨⟨⟩, disk, hwrite, hrun⟩
  · refine .inl ⟨failure, _, hrun, IsTrans.trans _ _ _ hquiet ?_⟩
    exact quiet_of_disk_eq (appendFile_error hwrite)
  rw [hquiet.disk] at hwrite
  obtain ⟨home, rows, hhome, hgrows, hrows, hrows'⟩ :=
    h.append_eq_ok htable (isLine_of_checkRow hrow) hfilled hwrite
  let upkeep := Upkeep.rows database schema [] [row]
  let written := { e₂ with disk }
  have hwritten : Fills (fun place => place = Path.tablePlace home table ∨ e.disk.IsAside place) e
      written :=
    ⟨hgrows.mono (fun _ => id) fun _ => .inl, hquiet.transactions,
      fun _ hjob => .inl (hquiet.latestJobs ▸ hjob)⟩
  refine .inr ⟨_, home, (upkeep.step written).2,
    hrun.trans (Action.bind_of_ok (patchIndexes_ok schema [] [row] _)), hhome, ?_,
    ⟨schema, hread, (TableSchema.checkFields_eq_ok (checkRow_eq_ok hrow).1).1⟩, rows, hrows, ?_⟩
  · exact IsTrans.trans _ _ _ hwritten ((upkeep.fills written).mono fun _ hindex => .inr (.inl hindex))
  · rw [Table.rows_alike (fun _ => Index.not_endsIn_table) (rewrites_of_upkeep upkeep written)]
    exact hrows'

theorem init_eq_ok {disk disk' : Disk} {home : Path} (hhome : Database.LiesAt disk database home)
    (htable : Name.isValid table = true) (h : Table.init database table disk = (.ok (), disk')) :
    Disk.Grows (fun _ => True) (fun place => place = Path.tablePlace home table) disk disk' ∧
      Table.rows disk' database table = .ok [] := by
  unfold Table.init at h
  rw [Action.read_bind, hhome.require] at h
  dsimp only at h
  rcases Disk.writeFile_cases (Path.table database table) "" disk with hwrite | ⟨place, hplace, hwrite⟩
  · exact absurd (congrArg Prod.fst (h.symm.trans hwrite)) (by simp)
  have hdisk : disk' = disk.put place (.file "") := congrArg Prod.snd (h.symm.trans hwrite)
  obtain ⟨before, part, folder, hpath, -, hfolder, rfl, -, -, hfree⟩ := Disk.filePlace?_eq_some hplace
  rw [Path.table_of_isValid database htable] at hpath
  obtain ⟨rfl, hpart⟩ := List.append_inj' hpath rfl
  rw [List.cons.injEq] at hpart
  obtain ⟨rfl, -⟩ := hpart
  obtain rfl := Database.LiesAt.unique hhome hfolder
  rw [hdisk]
  exact ⟨Disk.grows_put_file (by rfl) hfree "", Table.rows_of_locate (Disk.locate_put hplace "")⟩

/-- A schema that is new is written beside all tables. -/
theorem IsSound.grows_writeSchema (h : e.IsSound) {database text : String} {made written : Disk}
    (htable : Name.isValid table = true) (hthere : Database.require e.disk database = .ok ())
    (hnew : hasSchema e.disk database table = false)
    (hmake : Disk.makeDirectories (Path.schemas database) e.disk = (.ok (), made))
    (hwrite : Disk.writeFile (Path.schema database table) text made = (.ok (), written)) :
    Disk.Grows (fun _ => True) e.disk.IsAside e.disk written := by
  obtain ⟨home, -, -, hnone, -, rfl⟩ :=
    schemaPlace_of_write (h.disk.folder htable) htable hthere hnew hmake hwrite
  have hmade : Disk.Grows (fun _ => True) (fun _ => False) e.disk made :=
    (Disk.within_makeDirectories fun _ _ _ _ _ => trivial).after hmake
  refine IsTrans.trans _ _ _ (hmade.mono (fun _ => id) fun _ => False.elim) ?_
  exact Disk.grows_put_file (.inr ⟨hmade.missing hnone, home, table, rfl⟩) (by rw [hnone]; simp) _

/-- A table is defined and has its file, or no table file is written. -/
theorem createTable_cases (h : e.IsSound) (database definition : String)
    (htable : Name.isValid table = true) :
    (∃ failure e', createTable database table definition e = (.error failure, e') ∧
        Fills e.disk.IsAside e e') ∨
      ∃ columns outcome home e', Definition.columns definition = .ok columns ∧
        createTable database table definition e = (.ok outcome, e') ∧
          Defines database table columns home e e' := by
  unfold createTable
  rw [look_bind]
  by_cases hview : View.isPresent e.disk database table = true
  · rw [if_pos hview]
    exact .inl ⟨_, e, rfl, refl e⟩
  rw [if_neg hview]
  dsimp only
  rw [Action.ofExcept_bind]
  cases hcolumns : Definition.columns definition with
  | error failure => exact .inl ⟨failure, e, rfl, refl e⟩
  | ok columns =>
  dsimp only
  rcases createSchema_cases database table columns Permissions.standard e with
    ⟨failure, e', hrun, rfl | ⟨-, hthere, rfl⟩⟩ |
    ⟨made, written, hnames, hthere, hnew, hmake, hwrite, hrun⟩
  · exact .inl ⟨failure, e', Action.bind_of_error hrun, refl e'⟩
  · have hmakes : Disk.Grows (fun _ => True) e.disk.IsAside e.disk
        (Disk.makeDirectories (Path.schemas database) e.disk).2 :=
      Disk.within_makeDirectories (fun _ _ _ _ _ => trivial) e.disk
    exact .inl ⟨failure, _, Action.bind_of_error hrun, hmakes, rfl, fun _ => .inl⟩
  have hsound := h.createTable htable hcolumns hnames hthere hnew hmake hwrite
  have hwritten := h.grows_writeSchema htable hthere hnew hmake hwrite
  obtain ⟨home, hhome⟩ := Database.liesAt_of_require hthere
  have hthere' := hhome.grows hwritten
  rw [Action.bind_of_ok hrun]
  rcases onDisk_bind (Table.init database table) _ { e with
      disk := written
      schemas := e.schemas.insert (database, table)
        ⟨database, table, columns, Permissions.standard⟩ } with
    ⟨failure, disk, hinit, hrun⟩ | ⟨⟨⟩, disk, hinit, hrun⟩
  · refine .inl ⟨failure, _, hrun, ?_, rfl, fun _ => .inl⟩
    unfold Table.init at hinit
    rw [Action.read_bind, hthere'.require] at hinit
    rw [writeFile_error hinit]
    exact hwritten
  · obtain ⟨hgrows, hrows⟩ := init_eq_ok hthere' htable hinit
    refine .inr ⟨columns, _, home, _, rfl, hrun, hhome, hnew, ⟨?_, rfl, fun _ => .inl⟩, ?_, hrows⟩
    · exact IsTrans.trans _ _ _ (hwritten.mono (fun _ => id) fun _ => .inr)
        (hgrows.mono (fun _ => id) fun _ => .inl)
    · rw [hinit] at hsound
      exact hsound.memory database table _ htable (by rw [Keyed.get?_insert, if_pos (by simp)])

/-! ### Statements that define and fill -/

/-- Engines of a run without triggers and transactions, in which no view is stored. -/
structure IsPlain (e : Engine) : Prop where
  reached : ∃ run : Run, run.last = e
  free : e.transactions = .empty
  patches : ∀ job ∈ e.latestJobs, job.isPatch = true
  untriggered : e.disk.IsUntriggered
  viewless : e.disk.IsViewless

theorem IsPlain.isSound (h : e.IsPlain) : e.IsSound := by
  obtain ⟨run, hrun⟩ := h.reached
  exact hrun ▸ run.isSound_last

theorem IsPlain.isOpen (h : e.IsPlain) : e.IsOpen := by
  obtain ⟨run, hrun⟩ := h.reached
  exact hrun ▸ run.isOpen_last

theorem Fills.isUntriggered (h : Fills written e e')
    (hwritten : ∀ place, written place → place.IsOfTables) (huntriggered : e.disk.IsUntriggered) :
    e'.disk.IsUntriggered := fun home file text hends hfile =>
  huntriggered home file text hends <|
    (h.grows.unwritten fun hno => (hwritten _ hno).not_isTrigger hends).1 hfile

theorem IsPlain.fills {event : Event} (h : e.IsPlain) (hfills : Fills written e (event.after e))
    (hwritten : ∀ place, written place → place.IsOfTables) : (event.after e).IsPlain where
  reached := by
    obtain ⟨run, rfl⟩ := h.reached
    refine ⟨{ run with events := run.events ++ [event] }, ?_⟩
    simp only [Run.last, Run.afterEvents, List.foldl_append, List.foldl_cons, List.foldl_nil]
  free := hfills.transactions.trans h.free
  patches job hjob := (hfills.patches job hjob).elim (h.patches job) id
  untriggered := hfills.isUntriggered hwritten h.untriggered
  viewless := h.viewless.grows hfills.grows fun _ hplace => (hwritten _ hplace).not_endsIn_view

theorem run_eq_executeAs {text : String} {command : Command}
    (hparse : Statement.parse text = .ok command) : run (some who) text e = executeAs who command e :=
  run_of_parse hparse e

/-- A command in the selected database is refused before anything is done, or it comes to what it
comes to there. -/
theorem executeAs_refused_or (h : e.disk.IsUntriggered) {command : Command}
    (hcommand : RunsSelected who command) :
    (∃ failure, executeAs who command e = (.error failure, e)) ∨
      ∃ executing database, who.requireDatabase = .ok database ∧
        ∀ result e', effectIn executing who database command e = (result, e') →
          e'.disk.IsUntriggered → executeAs who command e = (result.map Effect.outcome, e') := by
  have hexecute {result : Except Error Effect} {e' : Engine} (huntriggered : e'.disk.IsUntriggered)
      (hresult : effect (executeWithin e.settings.nestingLimit) who command e = (result, e')) :
      executeAs who command e = (result.map Effect.outcome, e') := by
    change perform (executeWithin e.settings.nestingLimit) e.settings.nestingLimit who command e = _
    rw [perform_eq (by rw [hresult]; exact huntriggered), hresult]
  rcases effect_refused_or hcommand (executeWithin e.settings.nestingLimit) e with
    ⟨failure, hrefused⟩ | ⟨database, hdatabase, hin⟩
  · exact .inl ⟨failure, hexecute h hrefused⟩
  · exact .inr ⟨_, database, hdatabase, fun result e' hresult huntriggered =>
      hexecute huntriggered (hin.trans hresult)⟩

theorem isOfTables_of_fills {home place : Path}
    (h : place = Path.tablePlace home table ∨ e.disk.IsAside place) : place.IsOfTables := by
  rcases h with rfl | haside
  · exact .inl (Path.endsIn_tablePlace home table)
  · exact haside.isOfTables

/-- A statement that inserts a row is refused, or its row stands behind the others. -/
theorem IsPlain.run_insert (h : e.IsPlain) {text : String}
    (hparse : Statement.parse text = .ok (.insert table row)) :
    (∃ failure e', run (some who) text e = (.error failure, e') ∧ Fills e.disk.IsAside e e') ∨
      ∃ outcome database home e', run (some who) text e = (.ok outcome, e') ∧
        who.requireDatabase = .ok database ∧ Appends database table row home e e' := by
  have hfree : e.inTransaction who.user = false := by rw [inTransaction, h.free]; rfl
  rw [run_eq_executeAs hparse]
  rcases @executeAs_refused_or who e h.untriggered (.insert table row) (fun _ => rfl) with
    ⟨failure, hrefused⟩ | ⟨executing, database, hdatabase, hrun⟩
  · exact .inl ⟨failure, e, hrefused, refl e⟩
  rcases h.isSound.insert_cases database (Statement.isWellNamed_of_parse hparse)
    (Statement.isFilled_of_parse hparse) hfree with
    ⟨failure, e', hinsert, hquiet⟩ | ⟨effect, home, e', hinsert, happends⟩
  · exact .inl ⟨failure, e', hrun _ e' hinsert (hquiet.disk ▸ h.untriggered), hquiet.fills⟩
  · have huntriggered := happends.fills.isUntriggered (fun _ => isOfTables_of_fills) h.untriggered
    exact .inr ⟨effect.outcome, database, home, e', hrun _ e' hinsert huntriggered, hdatabase,
      happends⟩

/-- A statement that defines a table is refused, or the table stands there without rows. -/
theorem IsPlain.run_createTable (h : e.IsPlain) {text : String}
    (hparse : Statement.parse text = .ok (.createTable table definition)) :
    (∃ failure e', run (some who) text e = (.error failure, e') ∧ Fills e.disk.IsAside e e') ∨
      ∃ outcome database columns home e', run (some who) text e = (.ok outcome, e') ∧
        who.requireDatabase = .ok database ∧ Definition.columns definition = .ok columns ∧
        Defines database table columns home e e' := by
  rw [run_eq_executeAs hparse]
  rcases @executeAs_refused_or who e h.untriggered (.createTable table definition) (fun _ => rfl)
    with
    ⟨failure, hrefused⟩ | ⟨executing, database, hdatabase, hrun⟩
  · exact .inl ⟨failure, e, hrefused, refl e⟩
  have hcreate {result : Except Error Outcome} {e' : Engine}
      (hresult : createTable database table definition e = (result, e')) :
      effectIn executing who database (.createTable table definition) e
        = (result.map Effect.ofOutcome, e') := by
    change (Effect.ofOutcome <$> createTable database table definition) e = _
    rw [Action.map_apply, hresult]
  rcases createTable_cases h.isSound database definition (Statement.isWellNamed_of_parse hparse) with
    ⟨failure, e', hfailed, hfills⟩ | ⟨columns, outcome, home, e', hcolumns, hdone, hdefines⟩
  · have huntriggered := hfills.isUntriggered (fun _ hplace => hplace.isOfTables) h.untriggered
    exact .inl ⟨failure, e', hrun _ e' (hcreate hfailed) huntriggered, hfills⟩
  · have huntriggered := hdefines.fills.isUntriggered (fun _ => isOfTables_of_fills) h.untriggered
    exact .inr ⟨outcome, database, columns, home, e', hrun _ e' (hcreate hdone) huntriggered,
      hdatabase, hcolumns, hdefines⟩

end Engine

end FlatFileDb
