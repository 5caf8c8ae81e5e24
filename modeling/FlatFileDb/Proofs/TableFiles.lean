import FlatFileDb.Proofs.Causes
import FlatFileDb.Proofs.Failure
import FlatFileDb.Proofs.Furnishing

/-!
# Finding the files of tables

A statement opens the file of a table only once it has the schema of the table, and where there is a
schema something lies at the place of its table. So no statement ever misses the file of a table: what
it fails with is no matter of files at all, or another kind of file is missing, or the file system
fails. A row is also checked against the tables that it refers to. Their names stand in the schema
and not in the statement, so it takes a schema with proper references to find them.
-/

namespace FlatFileDb

/-! ### Failures -/

/-- Whether the file of a table was missing. -/
def Error.lacksTable : Error → Bool
  | tableFileMissing _ => true
  | partlyApplied _ cause _ => cause.lacksTable
  | _ => false

/-- Whatever failed, no table was without its file. -/
def Error.FindsTables (failure : Error) : Prop :=
  failure.lacksTable = false

namespace Error

variable {failure : Error}

theorem IsOfReading.findsTables (h : failure.IsOfReading) : failure.FindsTables := by
  cases failure with
  | tableFileMissing table => exact nomatch h
  | partlyApplied id cause done => exact nomatch h
  | _ => rfl

theorem IsOfQuery.findsTables (h : failure.IsOfQuery) : failure.FindsTables := by
  cases failure with
  | tableFileMissing table => exact h.elim nofun fun h => nomatch h.1
  | partlyApplied id cause done => exact h.elim nofun fun h => nomatch h.1
  | _ => rfl

theorem IsOfSchema.findsTables (h : failure.IsOfSchema) : failure.FindsTables :=
  IsOfQuery.findsTables (.inl h)

end Error

namespace FailsAs

variable {α β σ : Type} {p : Error → Prop}

theorem findsTables_of_reading {result : Except Error α} (h : FailsAs Error.IsOfReading result) :
    FailsAs Error.FindsTables result :=
  h.mono fun _ => Error.IsOfReading.findsTables

theorem findsTables_of_schema {result : Except Error α} (h : FailsAs Error.IsOfSchema result) :
    FailsAs Error.FindsTables result :=
  h.mono fun _ => Error.IsOfSchema.findsTables

theorem readDisk {f : Disk → Except Error α} {e : Engine} (h : FailsAs p (f e.disk)) :
    FailsAs p (Engine.readDisk f e).1 :=
  h

theorem onDisk {step : Action Disk α} {e : Engine} (h : FailsAs p (step e.disk).1) :
    FailsAs p (Engine.onDisk step e).1 :=
  h

theorem ofResult {result : Except Error α} {e : Engine} (h : FailsAs p result) :
    FailsAs p ((MonadExcept.ofExcept result : Action Engine α) e).1 := by
  cases result with
  | error failure => exact h
  | ok a => exact pure a

/-- Steps that only observe, one for each of a list. -/
theorem mapObserving {list : List α} {step : α → Action Engine β} {e : Engine}
    (hquiet : ∀ a, Action.Within Engine.Quiet (step a))
    (h : ∀ a ∈ list, ∀ e', Engine.Quiet e e' → FailsAs p (step a e').1) :
    FailsAs p ((list.mapM step) e).1 := by
  induction list generalizing e with
  | nil => exact pure []
  | cons a rest ih =>
    rw [List.mapM_cons]
    refine andThen (h a (by simp) e (refl e)) fun b e' hstep => andThen ?_ fun _ _ _ => pure _
    have hbefore := (hquiet a).after hstep
    exact ih fun other hother e'' hafter =>
      h other (by simp [hother]) e'' (IsTrans.trans _ _ _ hbefore hafter)

theorem forObserving {list : List α} {step : α → Action Engine Unit} {e : Engine}
    (hquiet : ∀ a, Action.Within Engine.Quiet (step a))
    (h : ∀ a ∈ list, ∀ e', Engine.Quiet e e' → FailsAs p (step a e').1) :
    FailsAs p ((list.forM step) e).1 := by
  induction list generalizing e with
  | nil => exact pure ()
  | cons a rest ih =>
    rw [List.forM_eq_forM, List.forM_cons]
    refine andThen (h a (by simp) e (refl e)) fun b e' hstep => ?_
    have hbefore := (hquiet a).after hstep
    exact ih fun other hother e'' hafter =>
      h other (by simp [hother]) e'' (IsTrans.trans _ _ _ hbefore hafter)

end FailsAs

/-! ### Files of tables -/

namespace Disk

variable {disk : Disk} {missing : Error} {path : Path}

theorem failsAs_textOr {p : Error → Prop} (hblocked : p .fileFailure)
    (hmissing : disk.textAt path = .error .missing → p missing) :
    FailsAs p (disk.textOr missing path) := by
  unfold textOr
  cases htext : disk.textAt path with
  | ok text => exact .ok text
  | error failure =>
    cases failure with
    | missing => exact .error (hmissing htext)
    | blocked => exact .error hblocked

theorem failsAs_writeFile (path : Path) (text : String) (disk : Disk) :
    FailsAs Error.FindsTables (writeFile path text disk).1 := by
  rcases writeFile_cases path text disk with hwrite | ⟨place, -, hwrite⟩ <;> rw [hwrite]
  · exact .error rfl
  · exact .ok ()

theorem failsAs_makeDirectories (path : Path) (disk : Disk) :
    FailsAs Error.FindsTables (makeDirectories path disk).1 := by
  intro failure hfails
  rw [makeDirectories_failure (Prod.ext hfails rfl)]
  rfl

/-- What has a schema has something at the place of its table. -/
theorem IsFurnished.textAt_table (h : disk.IsFurnished) {database name : String}
    {schema : TableSchema} (hname : Name.isValid name = true)
    (hread : Engine.readSchema disk database name = .ok schema) :
    disk.textAt (Path.table database name) ≠ .error .missing := by
  obtain ⟨home, text, hhome, hlocate, hschema, -⟩ := Engine.readSchema_eq_ok hname hread
  obtain ⟨before, part, folder, hpath, -, -, -, -, hfits⟩ := locate_file hlocate
  rw [Path.schema_of_isValid database hname] at hpath
  obtain rfl := (List.cons.inj (List.append_inj' hpath rfl).2).1
  have htable := hhome.locate_table hname (Engine.isSound_table hname (locate_eq_ok hlocate).1)
    (Engine.fits_append (by decide) hfits)
  unfold textAt entryAt
  rw [htable]
  cases hplace : disk.at? (Path.tablePlace home name) with
  | none => exact absurd hplace (h.placed home name text hschema)
  | some entry => cases entry <;> simp [Except.map]

end Disk

theorem Database.failsAs_require (disk : Disk) (name : String) :
    FailsAs Error.FindsTables (Database.require disk name) :=
  .ite (.ok _) (.error rfl)

namespace Table

variable {disk : Disk} {database table : String} {schema : TableSchema}

theorem failsAs_init (database table : String) (disk : Disk) :
    FailsAs Error.FindsTables (init database table disk).1 :=
  .andThen (Database.failsAs_require _ _) fun _ _ _ => Disk.failsAs_writeFile _ _ _

theorem failsAs_rows (h : disk.textAt (Path.table database table) ≠ .error .missing) :
    FailsAs Error.FindsTables (rows disk database table) :=
  .bind (Disk.failsAs_textOr rfl fun hno => absurd hno h) fun _ => .pure _

theorem failsAs_append (h : disk.textAt (Path.table database table) ≠ .error .missing)
    (row : String) : FailsAs Error.FindsTables (append database table row disk).1 :=
  .andThen (Disk.failsAs_textOr rfl fun hno => absurd hno h) fun _ _ _ => Disk.failsAs_writeFile _ _ _

theorem failsAs_modify {α : Type} (h : disk.textAt (Path.table database table) ≠ .error .missing)
    {f : List String → Except Error (List String × α)}
    (hf : ∀ rows, FailsAs Error.FindsTables (f rows)) :
    FailsAs Error.FindsTables (modify database table f disk).1 :=
  .andThen (failsAs_rows h) fun _ _ _ => .andThen (hf _) fun _ _ _ =>
    .andThen (Disk.failsAs_writeFile _ _ _) fun _ _ _ => .pure _

theorem failsAs_changeRow (h : disk.textAt (Path.table database table) ≠ .error .missing)
    (id : String) (f : String → List String) :
    FailsAs Error.FindsTables (changeRow database table id f disk).1 := by
  refine failsAs_modify h fun rows => ?_
  split
  · exact .ok _
  · exact .error rfl

end Table

theorem Index.failsAs_search (disk : Disk) (database table column word : String) :
    FailsAs Error.FindsTables (Index.search disk database table column word) := by
  refine .bind (.bind (Disk.failsAs_textOr rfl fun _ => rfl) fun text => ?_) fun _ => .pure _
  split
  · exact .pure _
  · exact .throw rfl

namespace Log.Entry

theorem failsAs_perform {entry : Entry} {disk : Disk}
    (h : disk.textAt (Path.table entry.database entry.table) ≠ .error .missing) :
    FailsAs Error.FindsTables (entry.perform disk).1 := by
  unfold perform
  cases entry.operation with
  | insert => exact Table.failsAs_append h _
  | update => exact Table.failsAs_changeRow h _ _
  | delete => exact Table.failsAs_changeRow h _ _

/-- A commit that is cut short found the tables of its changes. -/
theorem findsTables_performAll {entries done : List Entry} {disk disk' : Disk} {cause : Error}
    (hdisk : disk.IsFurnished)
    (hentries : ∀ entry ∈ entries, entry.IsSound ∧
      ∃ schema, Engine.readSchema disk entry.database entry.table = .ok schema)
    (h : performAll entries disk = ((done, some cause), disk')) : cause.FindsTables := by
  obtain ⟨-, hend⟩ := applies_performAll h
  rcases hend with ⟨hno, -⟩ | ⟨next, rest, cause', rfl, hcause, hfails⟩
  · exact absurd hno (by simp)
  obtain rfl := Option.some.inj hcause
  have hkeeps : Disk.Keeps True disk (performAll (done ++ next :: rest) disk).2 :=
    keeps_performAll (fun entry hentry => (hentries entry hentry).1) disk
  have hlast := hdisk.keeps hkeeps (rewrites_performAll (done ++ next :: rest) disk).makes
  rw [h] at hkeeps hlast
  obtain ⟨hsound, schema, hschema⟩ := hentries next (by simp)
  exact failsAs_perform (hlast.textAt_table hsound.table
    (Engine.readSchema_of_keeps hsound.table hkeeps hschema)) _ hfails

end Log.Entry

namespace Engine

/-- What lies on the disk is as it should be, and its files belong together. -/
structure IsFurnished (e : Engine) : Prop where
  sound : e.IsSound
  furnished : e.disk.IsFurnished

variable {who : Identity} {e e' : Engine} {database table : String} {schema : TableSchema}

theorem IsFurnished.quiet (h : e.IsFurnished) (hquiet : Quiet e e') : e'.IsFurnished :=
  ⟨h.sound.quiet hquiet, by rw [hquiet.disk]; exact h.furnished⟩

/-- What is known of a schema: the table of its name is there, its references name tables. -/
structure Knows (e : Engine) (database table : String) (schema : TableSchema) : Prop where
  read : readSchema e.disk database table = .ok schema
  name : schema.name = table
  usable : schema.IsUsable

theorem Knows.quiet (h : e.Knows database table schema) (hquiet : Quiet e e') :
    e'.Knows database table schema :=
  ⟨by rw [hquiet.disk]; exact h.read, h.name, h.usable⟩

/-- What a reference or a value that must be new is looked for in has the name of a table. -/
theorem Knows.isValid_reference (h : e.Knows database table schema) {column : Column}
    (hcolumn : column ∈ schema.columns) {value : String} {check : StoredCheck}
    (hcheck : column.referenceCheck? value = some check) : Name.isValid check.source.1 = true := by
  unfold Column.referenceCheck? at hcheck
  split at hcheck
  · exact absurd hcheck (by simp)
  · obtain ⟨target, htarget, rfl⟩ := Option.map_eq_some_iff.1 hcheck
    exact h.usable.references column hcolumn target htarget

theorem Knows.isValid_source (h : e.Knows database table schema)
    (htable : Name.isValid table = true) {fields : List String} {check : StoredCheck}
    (hcheck : check ∈ schema.storedChecks fields) : Name.isValid check.source.1 = true := by
  obtain ⟨⟨column, value⟩, hpair, hcheck⟩ := List.mem_flatMap.1 hcheck
  dsimp only [Column.storedChecks] at hcheck
  split at hcheck
  · exact absurd hcheck (by simp)
  rcases List.mem_append.1 hcheck with hcheck | hcheck
  · split at hcheck
    · rw [List.mem_singleton.1 hcheck, StoredCheck.source, h.name]
      exact htable
    · exact absurd hcheck (by simp)
  · exact h.isValid_reference (List.of_mem_zip hpair).1 (Option.mem_toList.1 hcheck)

namespace IsFurnished

theorem textAt (h : e.IsFurnished) (htable : Name.isValid table = true)
    (hknows : e.Knows database table schema) :
    e.disk.textAt (Path.table database table) ≠ .error .missing :=
  h.furnished.textAt_table htable hknows.read

theorem knows (h : e.IsFurnished) (htable : Name.isValid table = true)
    (hschema : Engine.schema database table e = (.ok schema, e')) :
    Quiet e e' ∧ e'.Knows database table schema := by
  have hquiet : Quiet e e' := (observes_schema database table).quiet.after hschema
  have hknown := schema_result database table e
  rw [hschema] at hknown
  obtain ⟨hread, -, hname⟩ := h.sound.knownSchema htable hknown.symm
  obtain ⟨home, text, hhome, -⟩ := readSchema_eq_ok htable hread
  have hknows : e.Knows database table schema := ⟨hread, hname, h.furnished.usable home table schema
    (Disk.schemaAt?_of_readSchema htable hhome hread)⟩
  exact ⟨hquiet, hknows.quiet hquiet⟩

end IsFurnished

theorem failsAs_schema (database table : String) (e : Engine) :
    FailsAs Error.FindsTables (Engine.schema database table e).1 := by
  rw [schema_result]
  unfold knownSchema
  split
  · exact .ok _
  · refine .bind (Disk.failsAs_textOr rfl fun _ => rfl) fun text => ?_
    split
    · exact .pure _
    · exact .throw rfl

theorem failsAs_require (schema : TableSchema) (role : Role) (access : Access) :
    FailsAs Error.FindsTables (schema.require role access) :=
  .ite (.ok _) (.error rfl)

theorem failsAs_createSchema (database table : String) (columns : List Column)
    (permissions : Permissions) (e : Engine) :
    FailsAs Error.FindsTables (createSchema database table columns permissions e).1 := by
  refine .andThen (.ofExcept (Name.failsAs_check table).findsTables_of_schema) fun _ _ _ => ?_
  have hnames : FailsAs Error.IsOfSchema (columns.forM fun column => Name.check column.name) :=
    .forM fun column => Name.failsAs_check column.name
  refine .andThen (.ofExcept hnames.findsTables_of_schema) fun _ _ _ => ?_
  refine .andThen (.readDisk (Database.failsAs_require _ _)) fun _ e₁ _ => ?_
  rw [look_bind]
  split
  · exact .throw rfl
  · exact .andThen (.onDisk (Disk.failsAs_makeDirectories _ _)) fun _ _ _ =>
      .andThen (.onDisk (Disk.failsAs_writeFile _ _ _)) fun _ _ _ => .ok _

theorem failsAs_requireRole (who : Identity) (least : Role) :
    FailsAs Error.FindsTables (who.requireRole least) :=
  .ite (.ok _) (.error rfl)

theorem failsAs_requireDatabase (who : Identity) :
    FailsAs Error.FindsTables who.requireDatabase := by
  unfold Identity.requireDatabase
  split
  · exact .ite (.error rfl) (.ok _)
  · exact .error rfl

theorem failsAs_load (disk : Disk) (database name : String) :
    FailsAs Error.FindsTables (View.load disk database name) :=
  Disk.failsAs_textOr rfl fun _ => rfl

theorem failsAs_buffer (user : String) (operation : Operation) (database table rowId row : String)
    (before : Option String) (e : Engine) :
    FailsAs Error.FindsTables (buffer user operation database table rowId row before e).1 := by
  rcases transactionOf_apply user e with ⟨-, hrun⟩ | ⟨transaction, hactive, -⟩
  · rw [buffer, Action.bind_of_error hrun]
    exact .error rfl
  · rw [buffer_apply hactive]
    exact .ok _

/-- Sources that are joined fail as one of them does, or for the columns that they are joined on. -/
theorem failsAs_joinSources {p : Error → Prop} {executing : Executing}
    (hasking : ∀ failure, Error.IsOfQuery failure → p failure)
    (hquery : ∀ who query, Observes (executing who (.select query))) (who : Identity)
    (relation : Relation) {joins : List Join}
    (hsources : ∀ join ∈ joins, ∀ e', Quiet e e' →
      FailsAs p (source executing who database join.table none e').1) :
    FailsAs p (joinSources executing who database relation joins e).1 := by
  induction joins generalizing e relation with
  | nil => exact .ok _
  | cons join rest ih =>
    refine .andThen (hsources join (by simp) e (refl e)) fun right e₁ hright => ?_
    refine .andThen (.ofExcept ((relation.failsAs_join right join).mono hasking)) fun joined e₂ hjoin => ?_
    obtain rfl : e₁ = e₂ := congrArg Prod.snd hjoin
    have hquiet : Quiet e e₁ :=
      (observes_source hquery who database join.table none).quiet.after hright
    exact ih joined fun other hother e₂ hafter =>
      hsources other (by simp [hother]) e₂ (IsTrans.trans _ _ _ hquiet hafter)

/-- A query fails as one of its sources does, or for what it asks. -/
theorem failsAs_select {p : Error → Prop} {executing : Executing}
    (hasking : ∀ failure, Error.IsOfQuery failure → p failure)
    (hquery : ∀ who query, Observes (executing who (.select query))) (who : Identity) {query : Query}
    (hfirst : FailsAs p (source executing who database query.table (narrowing? query) e).1)
    (hsources : ∀ join ∈ query.joins, ∀ e', Quiet e e' →
      FailsAs p (source executing who database join.table none e').1) :
    FailsAs p (select executing who database query e).1 := by
  refine .andThen hfirst fun first e₁ hstep => ?_
  have hquiet : Quiet e e₁ := (observes_source hquery who database query.table _).quiet.after hstep
  exact .andThen (failsAs_joinSources hasking hquery who first fun join hjoin e₂ hafter =>
    hsources join hjoin e₂ (IsTrans.trans _ _ _ hquiet hafter)) fun relation _ _ =>
      .ofExcept ((relation.failsAs_answer query).mono hasking)

namespace IsFurnished

/-- Whoever starts with the schema of a table finds the table from there. -/
theorem withSchema {α : Type} {next : TableSchema → Action Engine α} (h : e.IsFurnished)
    (htable : Name.isValid table = true)
    (hnext : ∀ schema e', Quiet e e' → e'.Knows database table schema →
      FailsAs Error.FindsTables (next schema e').1) :
    FailsAs Error.FindsTables ((Engine.schema database table >>= next) e).1 := by
  refine .andThen (failsAs_schema database table e) fun schema e' hschema => ?_
  obtain ⟨hquiet, hknows⟩ := h.knows htable hschema
  exact hnext schema e' hquiet hknows

theorem failsAs_rows (h : e.IsFurnished) (htable : Name.isValid table = true)
    (hknows : e.Knows database table schema) :
    FailsAs Error.FindsTables (Table.rows e.disk database table) :=
  Table.failsAs_rows (h.textAt htable hknows)

theorem failsAs_storedValues (h : e.IsFurnished) (htable : Name.isValid table = true)
    (column : String) : FailsAs Error.FindsTables (storedValues database table column e).1 := by
  refine h.withSchema htable fun schema e' hquiet hknows => ?_
  refine .andThen (schema.failsAs_requireColumn _ _).findsTables_of_schema fun _ _ hposition => ?_
  obtain rfl := congrArg Prod.snd hposition
  exact .andThen ((h.quiet hquiet).failsAs_rows htable hknows) fun _ _ _ => .pure _

theorem failsAs_storedCheck (h : e.IsFurnished) {check : StoredCheck}
    (hsource : Name.isValid check.source.1 = true) :
    FailsAs Error.FindsTables (check.run (storedValues database) e).1 :=
  .andThen (h.failsAs_storedValues hsource _) fun stored _ _ =>
    .ofResult (check.failsAs_decide stored).findsTables_of_schema

theorem failsAs_checkRow (h : e.IsFurnished) (htable : Name.isValid table = true)
    (hknows : e.Knows database table schema) (row : String) :
    FailsAs Error.FindsTables (schema.checkRow (storedValues database) row e).1 := by
  have hfields := (schema.failsAs_checkFields (Row.fields row)).findsTables_of_schema
  refine .andThen (.ofResult hfields) fun _ e₁ hpassed => ?_
  have hquiet : Quiet e e₁ := (Observes.ofResult _).quiet.after hpassed
  refine .forObserving (fun check => (observes_storedCheck database check).quiet)
    fun check hcheck e₂ hquiet₂ => ?_
  exact (h.quiet (IsTrans.trans _ _ _ hquiet hquiet₂)).failsAs_storedCheck
    (hknows.isValid_source htable hcheck)

/-- What a command that changes rows starts with. -/
theorem withWritable {α : Type} {next : TableSchema → Action Engine α} (h : e.IsFurnished)
    (who : Identity) (htable : Name.isValid table = true)
    (hnext : ∀ schema e', Quiet e e' → e'.Knows database table schema →
      FailsAs Error.FindsTables (next schema e').1) :
    FailsAs Error.FindsTables ((writableSchema who database table >>= next) e).1 := by
  unfold writableSchema
  rw [bind_assoc]
  refine h.withSchema htable fun schema e' hquiet hknows => ?_
  rw [bind_assoc]
  refine .andThen (.ite (.ok _) (.error rfl)) fun _ e'' hrequire => ?_
  obtain rfl := congrArg Prod.snd hrequire
  exact hnext schema e' hquiet hknows

theorem failsAs_insert (h : e.IsFurnished) (who : Identity) (htable : Name.isValid table = true)
    (row : String) : FailsAs Error.FindsTables (insert who database table row e).1 := by
  refine h.withWritable who htable fun schema e₁ hquiet hknows => ?_
  have h₁ := h.quiet hquiet
  refine .andThen (h₁.failsAs_checkRow htable hknows row) fun _ e₂ hrow => ?_
  have hquiet₂ : Quiet e₁ e₂ := (observes_checkRow schema database row).quiet.after hrow
  rw [isBuffering_bind]
  split
  · refine .andThen (failsAs_buffer _ _ _ _ _ _ _ _) fun _ _ _ => ?_
    exact .ok _
  · refine .andThen (.onDisk (Table.failsAs_append
      ((h₁.quiet hquiet₂).textAt htable (hknows.quiet hquiet₂)) row)) fun _ e₃ _ => ?_
    rw [Action.bind_of_ok (patchIndexes_ok schema [] [row] e₃)]
    exact .pure _

theorem failsAs_checkAssignment (h : e.IsFurnished) (hknows : e.Knows database table schema)
    (assigned : String × String) :
    FailsAs Error.FindsTables (checkAssignment schema database table assigned e).1 := by
  refine .andThen (.ofExcept (schema.failsAs_requireColumn _ _).findsTables_of_schema)
    fun position e₁ hposition => ?_
  obtain rfl : e = e₁ := congrArg Prod.snd hposition
  cases hcolumn : schema.columns[position]? with
  | none => exact .throw rfl
  | some column =>
  refine .andThen (column.failsAs_checkField _).findsTables_of_schema fun _ e₁ hfield => ?_
  obtain rfl : e = e₁ := congrArg Prod.snd hfield
  cases hcheck : column.referenceCheck? assigned.2 with
  | none => exact .ok _
  | some check =>
    refine .andThen ?_ fun _ _ _ => .ok _
    exact h.failsAs_storedCheck (hknows.isValid_reference (List.mem_of_getElem? hcolumn) hcheck)

theorem failsAs_update (h : e.IsFurnished) (who : Identity) (htable : Name.isValid table = true)
    (assigned : Keyed String String) (conditions : List Condition) :
    FailsAs Error.FindsTables (update who database table assigned conditions e).1 := by
  refine h.withWritable who htable fun schema e₁ hquiet hknows => ?_
  have h₁ := h.quiet hquiet
  have hobserves := observes_checkAssignment schema database table
  refine .andThen (.mapObserving (fun pair => (hobserves pair).quiet) fun pair _ e₂ hquiet₂ =>
    (h₁.quiet hquiet₂).failsAs_checkAssignment (hknows.quiet hquiet₂) pair)
    fun assignments e₂ hassignments => ?_
  have hquiet₂ : Quiet e₁ e₂ := (Observes.mapM hobserves).quiet.after hassignments
  have h₂ := h₁.quiet hquiet₂
  have hknows₂ := hknows.quiet hquiet₂
  have hchange (rows : List String) :
      FailsAs Error.FindsTables (schema.update assignments conditions rows) :=
    (schema.failsAs_update assignments conditions rows).findsTables_of_schema
  rw [isBuffering_bind]
  split
  · exact .andThen (h₂.failsAs_rows htable hknows₂) fun rows _ _ =>
      .andThen (hchange rows) fun _ _ _ =>
        .andThen (.forEach fun _ _ => failsAs_buffer _ _ _ _ _ _ _ _) fun _ _ _ => .pure _
  · refine .andThen (.onDisk (Table.failsAs_modify (h₂.textAt htable hknows₂) hchange))
      fun changed e₃ _ => ?_
    cases changed with
    | nil => exact .pure _
    | cons first rest => exact .andThen (by rw [patchIndexes_ok]; exact .ok _) fun _ _ _ => .pure _

theorem failsAs_delete (h : e.IsFurnished) (who : Identity) (htable : Name.isValid table = true)
    (conditions : List Condition) :
    FailsAs Error.FindsTables (delete who database table conditions e).1 := by
  refine h.withWritable who htable fun schema e₁ hquiet hknows => ?_
  have h₁ := h.quiet hquiet
  rw [isBuffering_bind]
  split
  · exact .andThen (h₁.failsAs_rows htable hknows) fun _ _ _ =>
      .andThen (.forEach fun _ _ => failsAs_buffer _ _ _ _ _ _ _ _) fun _ _ _ => .pure _
  · refine .andThen (.onDisk (Table.failsAs_modify (h₁.textAt htable hknows) fun _ => .ok _))
      fun changed e₂ _ => ?_
    cases changed with
    | nil => exact .pure _
    | cons first rest => exact .andThen (by rw [patchIndexes_ok]; exact .ok _) fun _ _ _ => .pure _

/-! ### Queries -/

section Executing

variable {executing : Executing}

theorem failsAs_tableSource (h : e.IsFurnished) (who : Identity)
    (hname : Name.isValid table = true) (condition : Option Condition) :
    FailsAs Error.FindsTables (tableSource who database table condition e).1 := by
  refine h.withSchema hname fun schema e₁ hquiet hknows => ?_
  refine .andThen (.ofExcept (failsAs_require _ _ _)) fun _ e₂ hrequire => ?_
  obtain rfl : e₁ = e₂ := congrArg Prod.snd hrequire
  exact .andThen ((h.quiet hquiet).failsAs_rows hname hknows) fun _ _ _ => .pure _

theorem failsAs_viewSource (who : Identity)
    (hexecuting : ∀ query, query.isWellNamed = true →
      FailsAs Error.FindsTables (executing who (.select query) e).1) :
    FailsAs Error.FindsTables (viewSource executing who database table e).1 := by
  refine .andThen (.ofExcept (failsAs_requireRole _ _)) fun _ e₁ hrole => ?_
  obtain rfl : e = e₁ := congrArg Prod.snd hrole
  refine .andThen (.readDisk (failsAs_load _ _ _)) fun text e₁ hload => ?_
  obtain rfl : e = e₁ := congrArg Prod.snd hload
  refine .andThen (.ofExcept (Statement.failsAs_parse text).findsTables_of_reading)
    fun command e₁ hparse => ?_
  obtain ⟨hread, rfl⟩ := Prod.mk.inj hparse
  have hnamed := Statement.isWellNamed_of_parse hread
  cases command with
  | select query => exact .andThen (hexecuting query hnamed) fun _ _ _ => .pure _
  | _ => exact .throw rfl

theorem failsAs_source (h : e.IsFurnished) (who : Identity) (hname : Name.isValid table = true)
    (condition : Option Condition) (hexecuting : ∀ query, query.isWellNamed = true →
      FailsAs Error.FindsTables (executing who (.select query) e).1) :
    FailsAs Error.FindsTables (source executing who database table condition e).1 := by
  unfold source
  rw [look_bind]
  split
  · exact h.failsAs_tableSource who hname condition
  · rw [look_bind]
    split
    · exact failsAs_viewSource who hexecuting
    · exact .throw rfl

theorem findsTables_select (h : e.IsFurnished) (who : Identity) {query : Query}
    (hnamed : query.isWellNamed = true)
    (hquery : ∀ who query, Observes (executing who (.select query)))
    (hexecuting : ∀ e', Quiet e e' → ∀ query, query.isWellNamed = true →
      FailsAs Error.FindsTables (executing who (.select query) e').1) :
    FailsAs Error.FindsTables (select executing who database query e).1 := by
  rw [Query.isWellNamed, Bool.and_eq_true, List.all_eq_true] at hnamed
  exact failsAs_select (fun _ => Error.IsOfQuery.findsTables) hquery who
    (h.failsAs_source who hnamed.1 _ (hexecuting e (refl e))) fun join hjoin e' hafter =>
      (h.quiet hafter).failsAs_source who (hnamed.2 join hjoin) none (hexecuting e' hafter)

end Executing

theorem failsAs_search (h : e.IsFurnished) (who : Identity) (htable : Name.isValid table = true)
    (column word : String) :
    FailsAs Error.FindsTables (search who database table column word e).1 := by
  refine h.withSchema htable fun schema e₁ hquiet hknows => ?_
  refine .andThen (.ofExcept (failsAs_require _ _ _)) fun _ e₂ hrequire => ?_
  obtain rfl : e₁ = e₂ := congrArg Prod.snd hrequire
  refine .andThen (.ofExcept (schema.failsAs_requireColumn _ _).findsTables_of_schema)
    fun _ e₂ hcolumn => ?_
  obtain rfl : e₁ = e₂ := congrArg Prod.snd hcolumn
  refine .andThen (.readDisk (Index.failsAs_search _ _ _ _ _)) fun ids e₂ hsearch => ?_
  obtain rfl : e₁ = e₂ := congrArg Prod.snd hsearch
  exact .andThen (.readDisk ((h.quiet hquiet).failsAs_rows htable hknows)) fun _ _ _ => .ok _

/-! ### Transactions -/

theorem failsAs_begin (who : Identity) (e : Engine) :
    FailsAs Error.FindsTables (executeBegin who e).1 := by
  refine .andThen ?_ fun _ _ _ => .ok _
  rw [begin, Action.get_bind]
  split
  · exact .throw rfl
  · exact .ok _

theorem failsAs_rollback (who : Identity) (e : Engine) :
    FailsAs Error.FindsTables (executeRollback who e).1 := by
  refine .andThen (.andThen ?_ fun _ _ _ => .ok _) fun _ _ _ => .ok _
  rcases transactionOf_apply who.user e with ⟨-, hrun⟩ | ⟨transaction, -, hrun⟩ <;> rw [hrun]
  · exact .error rfl
  · exact .ok _

theorem findsTables_commit (h : e.IsFurnished) (user : String) :
    FailsAs Error.FindsTables (commit user e).1 := by
  have hcommits := commit_cases user e
  generalize commit user e = result at hcommits
  cases hcommits with
  | noTransaction hfree => exact .error rfl
  | nothing hactive hempty => exact .ok _
  | logFailure hactive hchanges hlog => exact .error rfl
  | @applied transaction logged disk done failure hactive hchanges hlog happly =>
    cases failure with
    | none => exact .ok _
    | some cause =>
      have hkeeps : Disk.Keeps True e.disk logged := (h.sound.spares_write hlog).keeps
      have hlogged : logged.IsFurnished :=
        h.furnished.keeps hkeeps ((Disk.makes_appendFile _ _ _).after hlog)
      have hcause : cause.FindsTables := by
        refine Log.Entry.findsTables_performAll hlogged (fun entry hentry => ?_) happly
        obtain ⟨before, hbefore, number, rfl⟩ := Log.mem_numbered hentry
        obtain ⟨hsound, schema, hschema⟩ :=
          h.sound.waiting user transaction hactive before (List.mem_reverse.1 hbefore)
        exact ⟨⟨hsound.table, hsound.row⟩, schema, readSchema_of_keeps hsound.table hkeeps hschema⟩
      exact .error hcause

theorem failsAs_commit (h : e.IsFurnished) (who : Identity) :
    FailsAs Error.FindsTables (executeCommit who e).1 := by
  refine .tryCatch fun failure e₁ hfails => ?_
  have hfailure : failure.FindsTables := by
    rcases Action.bind_cases hfails with ⟨other, hcommit, hsame⟩ | ⟨⟨id, done⟩, e₂, -, hrest⟩
    · obtain rfl := Except.error.inj hsame
      exact h.findsTables_commit who.user _ (congrArg Prod.fst hcommit)
    · dsimp only at hrest
      rw [Action.bind_of_ok (patchCommitted_ok done e₂)] at hrest
      exact nomatch congrArg Prod.fst hrest
  cases failure with
  | partlyApplied id cause done =>
    dsimp only
    rw [Action.bind_of_ok (patchCommitted_ok done e₁)]
    exact .error hfailure
  | _ => exact .error hfailure

/-! ### Definitions -/

theorem failsAs_createTable (database table definition : String) (e : Engine) :
    FailsAs Error.FindsTables (createTable database table definition e).1 := by
  unfold createTable
  rw [look_bind]
  split
  · exact .throw rfl
  refine .andThen (.ofExcept (Definition.failsAs_columns _).findsTables_of_reading) fun _ _ _ => ?_
  refine .andThen (failsAs_createSchema _ _ _ _ _) fun _ _ _ => ?_
  exact .andThen (.onDisk (Table.failsAs_init _ _ _)) fun _ _ _ => .ok _

theorem failsAs_createIndex (h : e.IsFurnished) (kind : IndexKind)
    (htable : Name.isValid table = true) (column : String) :
    FailsAs Error.FindsTables (createIndex kind database table column e).1 := by
  refine h.withSchema htable fun schema e₁ hquiet hknows => ?_
  refine .andThen (.ofExcept (schema.failsAs_requireColumn _ _).findsTables_of_schema)
    fun position e₂ hposition => ?_
  obtain rfl : e₁ = e₂ := congrArg Prod.snd hposition
  refine .andThen (.onDisk (.andThen ((h.quiet hquiet).failsAs_rows htable hknows) fun rows _ _ =>
    .andThen (Disk.failsAs_writeFile _ _ _) fun _ _ _ => .ok _)) fun _ _ _ => .ok _

theorem failsAs_createView (database name query : String) (e : Engine) :
    FailsAs Error.FindsTables (createView database name query e).1 := by
  unfold createView
  rw [look_bind]
  split
  · exact .throw rfl
  · exact .andThen (.onDisk (.andThen (Database.failsAs_require _ _) fun _ _ _ =>
      Disk.failsAs_writeFile _ _ _)) fun _ _ _ => .ok _

theorem failsAs_createTrigger (database : String) (definition : TriggerDefinition) (e : Engine) :
    FailsAs Error.FindsTables (createTrigger database definition e).1 := by
  refine .andThen (failsAs_schema _ _ _) fun _ _ _ => .andThen (.ok _) fun _ _ _ => ?_
  exact .andThen (.onDisk (.andThen (Database.failsAs_require _ _) fun _ _ _ =>
    .andThen (Disk.failsAs_makeDirectories _ _) fun _ _ _ => Disk.failsAs_writeFile _ _ _))
      fun _ _ _ => .ok _

end IsFurnished

/-! ### All commands -/

section Executing

variable {executing : Executing} {command : Command}

theorem IsFurnished.failsAs_effectIn (h : e.IsFurnished) (who : Identity) (database : String)
    (hnamed : command.isWellNamed = true)
    (hquery : ∀ who query, Observes (executing who (.select query)))
    (hexecuting : ∀ e', Quiet e e' → ∀ query, query.isWellNamed = true →
      FailsAs Error.FindsTables (executing who (.select query) e').1) :
    FailsAs Error.FindsTables (effectIn executing who database command e).1 := by
  cases command with
  | insert table row => exact h.failsAs_insert who hnamed row
  | update table assigned conditions => exact h.failsAs_update who hnamed assigned conditions
  | delete table conditions => exact h.failsAs_delete who hnamed conditions
  | createTable table definition => exact .map (failsAs_createTable _ _ _ _)
  | select query => exact .map (h.findsTables_select who hnamed hquery hexecuting)
  | transaction control =>
    cases control with
    | begin => exact .map (failsAs_begin _ _)
    | commit => exact .map (h.failsAs_commit _)
    | rollback => exact .map (failsAs_rollback _ _)
  | createIndex kind table column =>
    rw [Command.isWellNamed, Bool.and_eq_true] at hnamed
    exact .map (h.failsAs_createIndex kind hnamed.1 column)
  | createView name query => exact .map (failsAs_createView _ _ _ _)
  | createTrigger definition => exact .map (failsAs_createTrigger _ _ _)
  | search table column word =>
    rw [Command.isWellNamed, Bool.and_eq_true] at hnamed
    exact .map (h.failsAs_search who hnamed.1 column word)
  | showDatabases => exact .map (.ok _)
  | become role => exact .map (by cases role <;> exact .ok _)

theorem failsAs_authorize (who : Identity) (command : Command) (role : NodeRole) :
    FailsAs Error.FindsTables (authorize who command role) := by
  have hrest : FailsAs Error.FindsTables (do
      let _ ← who.requireDatabase
      if command.isDefinition then who.requireRole .admin
      if command.isMutation && role != .master then throw .readOnlyReplica) :=
    (failsAs_requireDatabase who).bind fun _ =>
      .ite ((failsAs_requireRole who _).bind fun _ => .ite (.throw rfl) (.pure _))
        (.ite (.throw rfl) (.pure _))
  cases command with
  | showDatabases => exact .ok _
  | become role => exact failsAs_requireRole who _
  | _ => exact hrest

theorem IsFurnished.failsAs_effect (h : e.IsFurnished) (who : Identity)
    (hnamed : command.isWellNamed = true)
    (hquery : ∀ who query, Observes (executing who (.select query)))
    (hexecuting : ∀ e', Quiet e e' → ∀ query, query.isWellNamed = true →
      FailsAs Error.FindsTables (executing who (.select query) e').1) :
    FailsAs Error.FindsTables (effect executing who command e).1 := by
  refine .andThen (failsAs_authorize who command e.role) fun _ e₁ hauthorize => ?_
  obtain rfl : e = e₁ := congrArg Prod.snd hauthorize
  cases command with
  | showDatabases => exact .map (.ok _)
  | become role => exact .map (by cases role <;> exact .ok _)
  | _ =>
    refine .andThen (.ofExcept (failsAs_requireDatabase who)) fun database e₁ hdatabase => ?_
    obtain rfl : e = e₁ := congrArg Prod.snd hdatabase
    exact h.failsAs_effectIn who database hnamed hquery hexecuting

end Executing

/-- Executing a command never misses the file of a table. -/
theorem IsFurnished.failsAs_executeWithin (h : e.IsFurnished) (budget : Nat) (who : Identity)
    {command : Command} (hnamed : command.isWellNamed = true) :
    FailsAs Error.FindsTables (executeWithin budget who command e).1 := by
  induction budget generalizing e who command with
  | zero => exact .error rfl
  | succ budget ih =>
    refine .andThen (h.failsAs_effect who hnamed (observes_executeWithin budget)
      fun e' hquiet query hquery => ih (h.quiet hquiet) who hquery) fun done e₁ _ => ?_
    refine .andThen ?_ fun _ _ _ => .ok _
    cases done.firing with
    | none => exact .ok _
    | some firing =>
      change FailsAs _ (fireTriggers _ _ _ _ _).1
      rw [fireTriggers_ok]
      exact .ok _

theorem IsFurnished.failsAs_run (h : e.IsFurnished) (session : Session) (text : String) :
    FailsAs Error.FindsTables (Engine.run session text e).1 := by
  unfold Engine.run
  rw [Action.ofExcept_bind]
  cases hparse : Statement.parse text with
  | error failure =>
    exact .error ((Statement.failsAs_parse text).findsTables_of_reading failure hparse)
  | ok command =>
  dsimp only
  rw [execute, Action.ofExcept_bind]
  cases session with
  | none => exact .error rfl
  | some who => exact h.failsAs_executeWithin _ who (Statement.isWellNamed_of_parse hparse)

end Engine

end FlatFileDb
