import FlatFileDb.Proofs.Naming
import FlatFileDb.Proofs.Recall
import FlatFileDb.Proofs.Tracking

/-!
# Files that belong together

A table is a schema and a file of rows, an index is on a column of a table, and a view has its name
for itself. The files of these are written one by one by different commands. So for every command it
is said which files it makes: a schema and the table with it, an index, a view, a trigger, and no
others. That keeps together what belongs together through every run. The names of views need one
thing more: room for the way to a schema of the same name. Where the way to the view is short enough
and that to the schema is not, the schema is not seen.
-/

namespace FlatFileDb

/-! ### Schemas that can be used -/

namespace Definition

theorem orElse_cases {α : Type} {first second : Option α} {a : α}
    (h : (first <|> second) = some a) : first = some a ∨ second = some a := by
  cases first with
  | none => exact .inr h
  | some b => exact .inl h

theorem isValid_of_name? {s rest : List Char} {name : String} (h : name? s = some (name, rest)) :
    Name.isValid name = true := by
  unfold name? at h
  extract_lets taken at h
  split at h
  · exact absurd h (by simp)
  · rename_i hsome
    rw [Option.some.injEq, Prod.mk.injEq] at h
    rw [← h.1, Name.isValid, String.toList_ofList, Bool.and_eq_true, List.all_eq_true]
    exact ⟨by simpa using hsome, fun c hc => List.mem_takeWhile_imp hc⟩

theorem isValid_of_reference? {s rest : List Char} {target : Reference}
    (h : reference? s = some (target, rest)) : Name.isValid target.table = true := by
  obtain ⟨⟨table, next⟩, htable, h⟩ := Option.bind_eq_some_iff.1 h
  obtain ⟨next, -, h⟩ := Option.bind_eq_some_iff.1 h
  obtain ⟨⟨column, next⟩, -, h⟩ := Option.bind_eq_some_iff.1 h
  obtain ⟨rfl, -⟩ := Prod.mk.inj (Option.some.inj h)
  exact isValid_of_name? htable

/-- A reference is to a name that a table can have. -/
theorem isValid_of_constraint? {s rest : List Char} {target : Reference}
    (h : constraint? s = some (.references target, rest)) : Name.isValid target.table = true := by
  have hplain {found : Option (List Char)} {constraint : Constraint}
      (h : (found.map fun rest => (constraint, rest)) = some (.references target, rest))
      (hother : constraint ≠ .references target) : Name.isValid target.table = true := by
    obtain ⟨_, -, hsame⟩ := Option.map_eq_some_iff.1 h
    exact absurd (Prod.mk.inj hsame).1 hother
  unfold constraint? at h
  rcases orElse_cases h with h | h
  · exact hplain h (by simp)
  rcases orElse_cases h with h | h
  · exact hplain h (by simp)
  rcases orElse_cases h with h | h
  · exact hplain h (by simp)
  obtain ⟨⟨other, next⟩, hforeign, hsame⟩ := Option.map_eq_some_iff.1 h
  obtain rfl := Constraint.references.inj (Prod.mk.inj hsame).1
  rcases orElse_cases hforeign with h | h
  · obtain ⟨_, -, h⟩ := Option.bind_eq_some_iff.1 h
    obtain ⟨_, -, h⟩ := Option.bind_eq_some_iff.1 h
    obtain ⟨⟨found, _⟩, hfound, h⟩ := Option.bind_eq_some_iff.1 h
    obtain ⟨_, -, h⟩ := Option.bind_eq_some_iff.1 h
    obtain ⟨rfl, -⟩ := Prod.mk.inj (Option.some.inj h)
    exact isValid_of_reference? hfound
  rcases orElse_cases h with h | h
  all_goals
    obtain ⟨_, -, h⟩ := Option.bind_eq_some_iff.1 h
    obtain ⟨_, -, h⟩ := Option.bind_eq_some_iff.1 h
    exact isValid_of_reference? h

theorem isValid_of_mem_constraints {fuel : Nat} {s : List Char} {target : Reference}
    (h : .references target ∈ (constraints fuel s).1) : Name.isValid target.table = true := by
  induction fuel generalizing s with
  | zero => exact absurd h (by simp [constraints])
  | succ fuel ih =>
    rw [constraints] at h
    split at h
    · rename_i constraint rest hfound
      obtain ⟨next, -, hfound⟩ := Option.bind_eq_some_iff.1 hfound
      rcases List.mem_cons.1 h with rfl | h
      · exact isValid_of_constraint? hfound
      · exact ih h
    · exact absurd h (by simp)

/-- A column that an item defines refers to a name that a table can have. -/
theorem isValid_reference {item : String} {column : Column}
    (h : Definition.column item = .ok column) {target : Reference}
    (htarget : column.reference = some target) : Name.isValid target.table = true := by
  unfold Definition.column at h
  split at h
  · exact absurd h (by simp)
  rename_i name typeName arguments found hparts
  obtain ⟨type, -, h⟩ := Action.of_bind_eq_ok h
  have hfound : ∀ target, .references target ∈ found → Name.isValid target.table = true := by
    unfold parts? at hparts
    obtain ⟨_, -, h⟩ := Option.bind_eq_some_iff.1 hparts
    obtain ⟨_, -, h⟩ := Option.bind_eq_some_iff.1 h
    obtain ⟨_, -, h⟩ := Option.bind_eq_some_iff.1 h
    dsimp only at h
    split at h
    · simp only [Option.some.injEq, Prod.mk.injEq] at h
      obtain ⟨-, -, -, rfl⟩ := h
      exact fun _ => isValid_of_mem_constraints
    · exact absurd h (by simp)
  have hfold (constraints : List Constraint) {start : Column}
      (hall : ∀ target, .references target ∈ constraints → Name.isValid target.table = true)
      (hstart : ∀ target, start.reference = some target → Name.isValid target.table = true) :
      ∀ target, (constraints.foldl Column.constrain start).reference = some target →
        Name.isValid target.table = true := by
    induction constraints generalizing start with
    | nil => exact hstart
    | cons constraint rest ih =>
      refine ih (fun target htarget => hall target (List.mem_cons_of_mem _ htarget)) ?_
      cases constraint with
      | primaryKey | unique | notNull => exact hstart
      | references other =>
        intro target htarget
        rw [← Option.some.inj htarget]
        exact hall other List.mem_cons_self
  obtain rfl := Except.ok.inj h
  exact hfold found hfound (fun _ hno => absurd hno (by simp [Column.plain])) target htarget

theorem ne_nil_columnsAfter {done columns : List Column} {items : List (List Char)}
    (h : columnsAfter done items = .ok columns) (hsome : done ≠ [] ∨ items ≠ []) :
    columns ≠ [] := by
  induction items generalizing done with
  | nil =>
    rw [← Except.ok.inj h]
    exact hsome.resolve_right (by simp)
  | cons item rest ih =>
    rw [columnsAfter] at h
    obtain ⟨column, -, h⟩ := Action.of_bind_eq_ok h
    dsimp only at h
    split at h
    · exact absurd h Action.throw_ne_ok
    · exact ih h (.inl (by simp))

end Definition

/-- A schema has columns, and they refer to names that tables can have. -/
structure TableSchema.IsUsable (schema : TableSchema) : Prop where
  columns : schema.columns ≠ []
  references : ∀ column ∈ schema.columns, ∀ target, column.reference = some target →
    Name.isValid target.table = true

theorem Definition.columns_isUsable {text database table : String} {columns : List Column}
    {permissions : Permissions} (h : Definition.columns text = .ok columns) :
    (⟨database, table, columns, permissions⟩ : TableSchema).IsUsable := by
  unfold Definition.columns at h
  split at h
  · exact absurd h (by simp)
  rename_i hitems
  refine ⟨ne_nil_columnsAfter h (.inr hitems), fun column hcolumn target htarget => ?_⟩
  rcases exists_of_mem_columnsAfter h hcolumn with hno | ⟨item, hitem⟩
  · exact absurd hno (by simp)
  · exact isValid_reference hitem htarget

/-! ### Files that are made -/

namespace Disk

/-- Where there was no file there is one afterwards at places `made` only. -/
def Makes (made : Path → Prop) (disk disk' : Disk) : Prop :=
  ∀ place text', disk'.at? place = some (.file text') →
    (∃ text, disk.at? place = some (.file text)) ∨ made place

variable {made written : Path → Prop} {disk disk' : Disk} {path : Path}

instance : IsPreorder Disk (Makes made) where
  refl _ _ text h := .inl ⟨text, h⟩
  trans _ _ _ h h' place text' hfile := by
    rcases h' place text' hfile with ⟨text, hbefore⟩ | hmade
    · exact h place text hbefore
    · exact .inr hmade

theorem Grows.makes (h : Grows made written disk disk') : Makes written disk disk' := by
  intro place text' hfile
  rcases h place with hsame | ⟨-, -, hdirectory⟩ | ⟨hwritten, -, -⟩
  · exact .inl ⟨text', hsame ▸ hfile⟩
  · exact absurd (hdirectory.symm.trans hfile) (by simp)
  · exact .inr hwritten

theorem Makes.mono {made' : Path → Prop} (h : Makes made disk disk')
    (hle : ∀ place, made place → made' place) : Makes made' disk disk' :=
  fun place text' hfile => (h place text' hfile).imp_right (hle place)

theorem Rewrites.makes (h : Rewrites written disk disk') : Makes made disk disk' := by
  intro place text' hfile
  rcases h.place place with hsame | ⟨-, text, -, hbefore, -⟩
  · exact .inl ⟨text', hsame ▸ hfile⟩
  · exact .inl ⟨text, hbefore⟩

theorem makes_put {place : Path} (h : made place) (entry : DiskEntry) :
    Makes made disk (disk.put place entry) := by
  intro other text' hfile
  rw [at?_put] at hfile
  split at hfile
  · rename_i hsame
    exact .inr (eq_of_beq hsame ▸ h)
  · exact .inl ⟨text', hfile⟩

/-- A file that was read is there already when it is written. -/
theorem makes_writeFile_of_text {text : String} (h : disk.textAt path = .ok text) (text' : String) :
    Makes made disk (writeFile path text' disk).2 := by
  obtain ⟨place, hlocate⟩ := textAt_eq_ok.1 h
  exact (@rewrites_writeFile (fun _ => True) disk path place text trivial hlocate text').makes

theorem makes_appendFile (missing : Error) (path : Path) (text : String) :
    Action.Within (Makes made) (appendFile missing path text) := by
  intro disk
  unfold appendFile
  rw [Action.read_bind]
  cases htext : disk.textOr missing path with
  | error failure => exact refl disk
  | ok before => exact makes_writeFile_of_text (textOr_eq_ok.1 htext) _

end Disk

theorem Table.makes_write {made : Path → Prop} {disk disk' : Disk} {database table text : String}
    {found : List String} (hrows : rows disk database table = .ok found)
    (hwrite : Disk.writeFile (Path.table database table) text disk = (.ok (), disk')) :
    Disk.Makes made disk disk' := by
  obtain ⟨before, hbefore, -⟩ := Action.of_bind_eq_ok hrows
  have hmakes : Disk.Makes made disk (Disk.writeFile (Path.table database table) text disk).2 :=
    Disk.makes_writeFile_of_text (Disk.textOr_eq_ok.1 hbefore) text
  rwa [hwrite] at hmakes

/-- The places where a command may make a file. All others it writes are there already. -/
def Command.makes : Command → Path → Prop
  | createTable table _, place =>
    ∃ home, place = Path.schemaPlace home table ∨ place = Path.tablePlace home table
  | createIndex kind table column, place => ∃ home, place = Path.indexPlace home table column kind
  | createView name _, place => ∃ home, place = Path.viewPlace home name
  | createTrigger definition, place =>
    ∃ home, place = home ++ ["triggers"] ++ [Trigger.fileName definition]
  | _, _ => False

/-- A view is stored in its file, or nothing is written. -/
theorem View.save_cases (database name query : String) (disk : Disk) :
    (save database name query disk).2 = disk ∨
      save database name query disk = (.ok (), (save database name query disk).2) := by
  unfold save
  rw [Action.read_bind]
  cases Database.require disk database with
  | error failure => exact .inl rfl
  | ok _ =>
    dsimp only
    rcases Disk.writeFile_cases (Path.view database name) query disk with hno | ⟨place, -, hwrite⟩
    · exact .inl (congrArg Prod.snd hno)
    · exact .inr (by rw [hwrite])

theorem Trigger.makes_save {database : String} {trigger : Trigger} {disk : Disk}
    (hname : Name.isValid trigger.definition.name = true)
    (htable : Name.isValid trigger.definition.table = true) :
    Disk.Makes (fun place => ∃ home, place = home ++ ["triggers"] ++ [fileName trigger.definition])
      disk (save database trigger disk).2 := by
  refine Action.Within.bind (.read _) (fun _ => .bind (fun disk => ?_) fun _ disk => ?_) disk
  · have hgrows : Disk.Grows (fun _ => True) (fun _ => False) disk
        (Disk.makeDirectories (Path.triggers database) disk).2 :=
      Disk.within_makeDirectories (fun _ _ _ _ _ => trivial) disk
    exact hgrows.makes.mono fun _ hno => hno.elim
  · rcases Disk.writeFile_cases (Trigger.path database trigger.definition)
      (trigger.toJson.indented 0) disk with hwrite | ⟨place, hplace, hwrite⟩ <;> rw [hwrite]
    · exact refl disk
    obtain ⟨before, file, folder, hpath, -, hfolder, rfl, -⟩ := Disk.filePlace?_eq_some hplace
    rw [path_of_isValid database hname htable] at hpath
    obtain ⟨rfl, hfile⟩ := List.append_inj' hpath rfl
    obtain rfl := (List.cons.inj hfile).1
    obtain ⟨home, -, rfl, -⟩ := Disk.locate_directory (Path.isPlain_of_length (by decide)) hfolder
    exact Disk.makes_put ⟨home, rfl⟩ _

/-- A table is made: its schema, and something at the place of its rows. -/
structure Disk.Founds (home : Path) (table text : String) (disk disk' : Disk) : Prop where
  grows : Disk.Grows (fun _ => True) (fun _ => True) disk disk'
  makes : Disk.Makes (fun place => place = Path.schemaPlace home table ∨
    place = Path.tablePlace home table) disk disk'
  schema : disk'.at? (Path.schemaPlace home table) = some (.file text)
  table : disk'.at? (Path.tablePlace home table) ≠ none
  others : ∀ home' name text', Name.isValid name = true →
    disk.at? (Path.schemaPlace home' name) = some (.file text') →
      disk'.at? (Path.schemaPlace home' name) = some (.file text')

namespace Engine

variable {who : Identity} {command : Command} {e e' : Engine} {upkeep : Upkeep}

theorem IsSound.founds_createTable (h : e.IsSound) {database table text : String}
    {made written : Disk} (htable : Name.isValid table = true)
    (hdatabase : Database.require e.disk database = .ok ())
    (hnew : hasSchema e.disk database table = false)
    (hmake : Disk.makeDirectories (Path.schemas database) e.disk = (.ok (), made))
    (hwrite : Disk.writeFile (Path.schema database table) text made = (.ok (), written)) :
    ∃ home, Disk.Founds home table text e.disk (Table.init database table written).2 := by
  obtain ⟨home, hhome, -, hnone, hplace, rfl⟩ :=
    schemaPlace_of_write (h.disk.folder htable) htable hdatabase hnew hmake hwrite
  have hmade : Disk.Grows (fun _ => True) (fun _ => False) e.disk made :=
    (Disk.within_makeDirectories fun _ _ _ _ _ => trivial).after hmake
  have hput : Disk.Grows (fun _ => True) (fun _ => True) made
      (made.put (Path.schemaPlace home table) (.file text)) :=
    Disk.grows_put_file trivial (by rw [hnone]; simp) text
  have hinit : Disk.Keeps True (made.put (Path.schemaPlace home table) (.file text))
      (Table.init database table (made.put (Path.schemaPlace home table) (.file text))).2 :=
    Table.keeps_init database table _
  have hcases := init_cases (hhome.grows hput) htable
  have hbeside := init_beside (hhome.grows hput) htable hplace
  have hschema : (made.put (Path.schemaPlace home table) (.file text)).at?
      (Path.schemaPlace home table) = some (.file text) := by simp
  have hother {place : Path} (hplace : place ≠ Path.schemaPlace home table) :
      (made.put (Path.schemaPlace home table) (.file text)).at? place = made.at? place := by
    rw [Disk.at?_put, if_neg (by simpa using hplace)]
  have hputs : Disk.Makes (fun place => place = Path.schemaPlace home table ∨
      place = Path.tablePlace home table) made
        (made.put (Path.schemaPlace home table) (.file text)) := Disk.makes_put (.inl rfl) _
  generalize made.put (Path.schemaPlace home table) (.file text) = written at *
  refine ⟨home, ?_, ?_, (hinit.schema_iff htable).2 hschema, fun hmissing => ?_,
    fun home' name text' hname hold => ?_⟩
  · have hmade' : Disk.Grows (fun _ => True) (fun _ => True) e.disk made :=
      hmade.mono (fun _ _ => trivial) fun _ _ => trivial
    exact IsTrans.trans _ _ _ (IsTrans.trans _ _ _ hmade' hput)
      (hinit.grows.mono (fun _ _ => trivial) fun _ _ => trivial)
  · refine IsTrans.trans _ _ _ (hmade.makes.mono fun _ hno => hno.elim)
      (IsTrans.trans _ _ _ hputs ?_)
    rcases hcases with hsame | hsame <;> rw [hsame]
    · exact refl written
    · exact Disk.makes_put (.inr rfl) _
  · by_cases hfree : written.at? (Path.tablePlace home table) = some .directory
    · rw [hinit.grows.directory hfree] at hmissing
      exact absurd hmissing (by simp)
    · rw [hbeside hfree] at hmissing
      exact absurd hmissing (by simp)
  · have hbefore := (hmade.unwritten id).2 hold
    refine (hinit.schema_iff hname).2 ((hother ?_).trans hbefore)
    intro hsame
    rw [hsame, hnone] at hbefore
    exact absurd hbefore (by simp)

/-- A command makes no files but those that it is about. -/
theorem IsSound.makes_own (h : e.IsSound) (hnamed : command.isWellNamed = true)
    (hown : Own who command e e' upkeep) : Disk.Makes command.makes e.disk e'.disk := by
  have hsame {disk : Disk} (hdisk : disk = e.disk) : Disk.Makes command.makes e.disk disk := by
    rw [hdisk]
    exact refl e.disk
  cases hown with
  | quiet hquiet | insertLater _ hquiet | updateLater _ hquiet | deleteLater _ hquiet =>
    exact hsame hquiet.disk
  | become | begin | rollback | commitNothing => exact refl e.disk
  | @commit _ transaction logged disk done failure hrole hactive hchanges hlog happly =>
    have happlied :=
      Log.Entry.rewrites_performAll (Log.numbered e.log.next transaction.changes) logged
    rw [happly] at happlied
    exact IsTrans.trans _ _ _ ((Disk.makes_appendFile _ _ _).after hlog) happlied.makes
  | insert hdatabase hquiet hfree hschema hrow hwrite =>
    exact (Disk.makes_appendFile _ _ _).after hwrite
  | update hdatabase hquiet hfree hschema hassigned hrows hchange hwrite =>
    exact Table.makes_write hrows hwrite
  | delete hdatabase hquiet hfree hschema hrows hwrite =>
    exact Table.makes_write hrows hwrite
  | @createNothing database table definition _ hdatabase =>
    have hgrows : Disk.Grows Path.IsUndotted (fun _ => False) e.disk
        (Disk.makeDirectories (Path.schemas database) e.disk).2 :=
      Disk.grows_makeDirectories_below hdatabase (by decide)
    exact hgrows.makes.mono fun _ hno => hno.elim
  | @createTable database table definition _ columns made written hrole hcolumns hnames hdatabase
      hnew hmake hwrite hview =>
    obtain ⟨home, hfounds⟩ := h.founds_createTable hnamed hdatabase hnew hmake hwrite
    exact hfounds.makes.mono fun _ hplace => ⟨home, hplace⟩
  | @createIndex database table column kind _ e₁ schema position hdatabase hquiet hschema
      hposition =>
    rw [Command.isWellNamed, Bool.and_eq_true] at hnamed
    rcases Index.build_cases database table column position kind e.disk with
      ⟨failure, hbuild⟩ | ⟨rows, place, keys, hrows, hplace, hbuild⟩ <;> dsimp only <;> rw [hbuild]
    · exact refl e.disk
    · obtain ⟨home, -, hhome, -⟩ := Table.rows_eq_ok hnamed.1 hrows
      obtain rfl := Index.filePlace_of_liesAt hhome hnamed.1 hnamed.2 hplace
      exact Disk.makes_put ⟨home, rfl⟩ _
  | @createView database name query _ hdatabase =>
    rcases View.save_cases database name query e.disk with hno | hsave
    · exact hsame hno
    · obtain ⟨home, -, -, -, hdisk⟩ := View.save_eq_ok hnamed hsave
      dsimp only
      rw [hdisk]
      exact Disk.makes_put ⟨home, rfl⟩ _
  | @createTrigger database definition _ e₁ created hdatabase hquiet =>
    rw [Command.isWellNamed, Bool.and_eq_true] at hnamed
    exact @Trigger.makes_save database ⟨definition, created⟩ e.disk hnamed.1 hnamed.2

end Engine

/-! ### What belongs together -/

namespace Disk

/-- The files that lie there belong together. -/
structure IsFurnished (disk : Disk) : Prop where
  /-- A schema has the name of a table. -/
  named : ∀ home name text, disk.at? (Path.schemaPlace home name) = some (.file text) →
    Name.isValid name = true
  usable : ∀ home name schema, disk.schemaAt? home name = some schema → schema.IsUsable
  /-- Something lies where the table of a schema has its place. -/
  placed : ∀ home name text, disk.at? (Path.schemaPlace home name) = some (.file text) →
    disk.at? (Path.tablePlace home name) ≠ none
  /-- A table has a schema. -/
  tables : ∀ place text, Path.EndsIn ".mg" place → disk.at? place = some (.file text) →
    ∃ home name text', place = Path.tablePlace home name ∧
      disk.at? (Path.schemaPlace home name) = some (.file text')
  /-- An index is on a column of a table. -/
  indexes : ∀ place text, Path.IsIndex place → disk.at? place = some (.file text) →
    ∃ home table column kind position, place = Path.indexPlace home table column kind ∧
      Name.isValid table = true ∧ disk.positionAt? home table column = some position

variable {disk disk' : Disk} {home : Path} {table text : String}

/-- Where only logs lie nothing is amiss. -/
theorem isFurnished_of_logs (h : ∀ place text, disk.at? place = some (.file text) →
    Path.EndsIn ".log" place) : disk.IsFurnished := by
  have hschema {home : Path} {name text : String}
      (hfile : disk.at? (Path.schemaPlace home name) = some (.file text)) : False :=
    (h _ _ hfile).not (by decide) (Path.endsIn_schemaPlace home name)
  refine ⟨fun _ _ _ hfile => (hschema hfile).elim, fun home name schema hfound => ?_,
    fun _ _ _ hfile => (hschema hfile).elim, fun place text hends hfile => ?_,
    fun place text hindex hfile => ?_⟩
  · obtain ⟨text, hfile, -⟩ := Option.bind_eq_some_iff.1 hfound
    exact (hschema (fileAt?_eq_some.1 hfile)).elim
  · exact absurd hends ((h _ _ hfile).not (by decide))
  · obtain ⟨kind, hkind⟩ := hindex
    exact absurd hkind ((h _ _ hfile).not (by cases kind <;> decide))

/-- A schema that stays where it is names the same columns. -/
theorem positionAt?_of_schemas
    (hschemas : ∀ text, disk.at? (Path.schemaPlace home table) = some (.file text) →
      disk'.at? (Path.schemaPlace home table) = some (.file text)) {column : String}
    {position : Nat} (h : disk.positionAt? home table column = some position) :
    disk'.positionAt? home table column = some position := by
  obtain ⟨schema, hschema, hcolumn⟩ := Option.bind_eq_some_iff.1 h
  obtain ⟨text, htext, hread⟩ := Option.bind_eq_some_iff.1 hschema
  rw [positionAt?, schemaAt?, fileAt?_eq_some.2 (hschemas text (fileAt?_eq_some.1 htext)),
    Option.bind_some, hread]
  exact hcolumn

/-- What is made has to have its place among the files that belong together. -/
theorem IsFurnished.step {made : Path → Prop} (h : disk.IsFurnished)
    (hgrows : Grows (fun _ => True) (fun _ => True) disk disk') (hmakes : Makes made disk disk')
    (hschemas : ∀ home name text, Name.isValid name = true →
      disk.at? (Path.schemaPlace home name) = some (.file text) →
        disk'.at? (Path.schemaPlace home name) = some (.file text))
    (hschema : ∀ home name text, made (Path.schemaPlace home name) →
      disk'.at? (Path.schemaPlace home name) = some (.file text) → Name.isValid name = true ∧
        (∀ schema, disk'.schemaAt? home name = some schema → schema.IsUsable) ∧
        disk'.at? (Path.tablePlace home name) ≠ none)
    (htable : ∀ place, made place → Path.EndsIn ".mg" place → ∃ home name text,
      place = Path.tablePlace home name ∧
        disk'.at? (Path.schemaPlace home name) = some (.file text))
    (hindex : ∀ place, made place → Path.IsIndex place → ∃ home table column kind position,
      place = Path.indexPlace home table column kind ∧ Name.isValid table = true ∧
        disk'.positionAt? home table column = some position) : disk'.IsFurnished where
  named home name text hfile := by
    rcases hmakes _ text hfile with ⟨before, hbefore⟩ | hmade
    · exact h.named home name before hbefore
    · exact (hschema home name text hmade hfile).1
  usable home name schema hfound := by
    obtain ⟨text, hfile, hread⟩ := Option.bind_eq_some_iff.1 hfound
    rw [fileAt?_eq_some] at hfile
    rcases hmakes _ text hfile with ⟨before, hbefore⟩ | hmade
    · have hname := h.named home name before hbefore
      have hsame := (hschemas home name before hname hbefore).symm.trans hfile
      rw [Option.some.injEq, DiskEntry.file.injEq] at hsame
      refine h.usable home name schema ?_
      rw [schemaAt?, fileAt?_eq_some.2 hbefore, Option.bind_some, hsame]
      exact hread
    · exact (hschema home name text hmade hfile).2.1 schema hfound
  placed home name text hfile := by
    rcases hmakes _ text hfile with ⟨before, hbefore⟩ | hmade
    · exact fun hmissing => h.placed home name before hbefore (hgrows.missing hmissing)
    · exact (hschema home name text hmade hfile).2.2
  tables place text hends hfile := by
    rcases hmakes place text hfile with ⟨before, hbefore⟩ | hmade
    · obtain ⟨home, name, found, rfl, hfound⟩ := h.tables place before hends hbefore
      have hname := h.named home name found hfound
      exact ⟨home, name, found, rfl, hschemas home name found hname hfound⟩
    · exact htable place hmade hends
  indexes place text hindexed hfile := by
    rcases hmakes place text hfile with ⟨before, hbefore⟩ | hmade
    · obtain ⟨home, table, column, kind, position, rfl, hvalid, hposition⟩ :=
        h.indexes place before hindexed hbefore
      exact ⟨home, table, column, kind, position, rfl, hvalid,
        positionAt?_of_schemas (hschemas home table · hvalid) hposition⟩
    · exact hindex place hmade hindexed

/-- Where no files are made that belong to tables, everything is as it was. -/
theorem IsFurnished.spares {apart : Prop} {made : Path → Prop} (h : disk.IsFurnished)
    (hkeeps : Keeps apart disk disk') (hmakes : Makes made disk disk')
    (hschema : ∀ home name, ¬made (Path.schemaPlace home name))
    (htable : ∀ place, made place → ¬Path.EndsIn ".mg" place)
    (hindex : ∀ place, made place → ¬Path.IsIndex place) : disk'.IsFurnished :=
  h.step (hkeeps.grows.mono (fun _ _ => trivial) fun _ _ => trivial) hmakes
    (fun _ _ _ hname => (hkeeps.schema_iff hname).2) (fun _ _ _ hmade => absurd hmade (hschema _ _))
    (fun _ hmade hends => absurd hends (htable _ hmade))
    fun _ hmade hindexed => absurd hindexed (hindex _ hmade)

theorem IsFurnished.keeps {apart : Prop} (h : disk.IsFurnished) (hkeeps : Keeps apart disk disk')
    (hmakes : Makes (fun _ => False) disk disk') : disk'.IsFurnished :=
  h.spares hkeeps hmakes (fun _ _ => id) (fun _ hno => hno.elim) fun _ hno => hno.elim

theorem IsFurnished.rewrites (h : disk.IsFurnished) (hrewrites : Rewrites Path.IsIndex disk disk') :
    disk'.IsFurnished :=
  @IsFurnished.keeps disk disk' True h (keeps_of_indexes hrewrites.grows) hrewrites.makes

theorem IsFurnished.founds (h : disk.IsFurnished) (hfounds : Founds home table text disk disk')
    (htable : Name.isValid table = true) {schema : TableSchema}
    (hread : (Json.ofText? text).bind TableSchema.ofJson? = some schema)
    (husable : schema.IsUsable) : disk'.IsFurnished := by
  refine h.step hfounds.grows hfounds.makes hfounds.others (fun home' name found hmade hfile => ?_)
    (fun place hmade hends => ?_) (fun place hmade hindex => ?_)
  · obtain ⟨rfl, rfl⟩ : home' = home ∧ name = table :=
      hmade.elim Path.schemaPlace_inj fun hno =>
        absurd hno (Path.schemaPlace_ne_tablePlace home' home name table)
    refine ⟨htable, fun other hother => ?_, hfounds.table⟩
    rw [schemaAt?, fileAt?_eq_some.2 hfounds.schema, Option.bind_some, hread] at hother
    exact Option.some.inj hother ▸ husable
  · rcases hmade with rfl | rfl
    · exact absurd hends ((Path.endsIn_schemaPlace home table).not (by decide))
    · exact ⟨home, table, text, rfl, hfounds.schema⟩
  · rcases hmade with rfl | rfl
    · exact absurd rfl (hindex.ne_schemaPlace home table)
    · exact absurd rfl (hindex.ne_tablePlace home table)

end Disk

namespace Engine

variable {who : Identity} {command : Command} {e e' : Engine} {upkeep : Upkeep}

/-- Every command leaves the files together that belong together. -/
theorem IsSound.isFurnished_own (h : e.IsSound) (hnamed : command.isWellNamed = true)
    (hown : Own who command e e' upkeep) (hfurnished : e.disk.IsFurnished) :
    e'.disk.IsFurnished := by
  have hkeeps := h.keeps_own hnamed hown
  have hmakes := h.makes_own hnamed hown
  cases hown with
  | quiet hquiet =>
    rw [hquiet.disk]
    exact hfurnished
  | createNothing hdatabase =>
    exact hfurnished.keeps
      (@Disk.spares_makeDirectories_below True _ _ _ hdatabase (by decide)).keeps
      (Disk.Grows.makes (Disk.grows_makeDirectories_below hdatabase (by decide)))
  | createTable hrole hcolumns hnames hdatabase hnew hmake hwrite hview =>
    obtain ⟨home, hfounds⟩ := h.founds_createTable hnamed hdatabase hnew hmake hwrite
    obtain ⟨hsound, hdistinct⟩ := Definition.columns_isSound hcolumns
    exact hfurnished.founds hfounds hnamed (TableSchema.ofText_indented ⟨hsound, hdistinct, hnames⟩)
      (Definition.columns_isUsable hcolumns)
  | @createIndex database table column kind _ e₁ schema position hdatabase hquiet hschema
      hposition =>
    rw [Command.isWellNamed, Bool.and_eq_true] at hnamed
    have hkeeps := hkeeps (by simp)
    dsimp only at hkeeps ⊢
    rcases Index.build_cases database table column position kind e.disk with
      ⟨failure, hbuild⟩ | ⟨rows, place, keys, hrows, hplace, hbuild⟩ <;> rw [hbuild] at hkeeps ⊢
    · exact hfurnished
    obtain ⟨home, -, hhome, -⟩ := Table.rows_eq_ok hnamed.1 hrows
    obtain rfl := Index.filePlace_of_liesAt hhome hnamed.1 hnamed.2 hplace
    have hindexed := h.positionAt?_of_knownSchema hnamed.1 hhome hschema hposition
    refine hfurnished.step (hkeeps.grows.mono (fun _ _ => trivial) fun _ _ => trivial)
      (Disk.makes_put rfl _)
      (fun _ _ _ hname => (hkeeps.schema_iff hname).2) (fun home' name text hsame => ?_)
      (fun place hsame hends => ?_) (fun place hsame _ => ?_)
    · exact absurd hsame
        ((Path.isIndex_indexPlace home table column kind).ne_schemaPlace home' name)
    · subst hsame
      obtain ⟨other, hindex⟩ := Path.isIndex_indexPlace home table column kind
      exact absurd hends (hindex.not (by cases other <;> decide))
    · exact ⟨home, table, column, kind, position, hsame.symm, hnamed.1,
        Disk.positionAt?_of_schemas (fun _ => (hkeeps.schema_iff hnamed.1).2) hindexed⟩
  | @createView database name query _ hdatabase =>
    refine hfurnished.spares (hkeeps (by simp)) hmakes ?_ ?_ ?_
    · rintro home' other ⟨home, hsame⟩
      exact (hsame ▸ Path.endsIn_schemaPlace home' other).not (by decide) (Path.endsIn_append home)
    · rintro place ⟨home, rfl⟩
      exact (Path.endsIn_append home).not (by decide)
    · rintro place ⟨home, rfl⟩ ⟨kind, hkind⟩
      exact (Path.endsIn_append home).not (by cases kind <;> decide) hkind
  | @createTrigger database definition _ e₁ created hdatabase hquiet =>
    refine hfurnished.spares (hkeeps (by simp)) hmakes ?_ ?_ ?_
    · rintro home' other ⟨home, hsame⟩
      have hparent := (List.append_inj' (List.append_inj' hsame rfl).1 rfl).2
      exact absurd hparent (by decide)
    · rintro place ⟨home, rfl⟩
      exact (Path.endsIn_append _).not (by decide)
    · rintro place ⟨home, rfl⟩ ⟨kind, hkind⟩
      exact (Path.endsIn_append _).not (by cases kind <;> decide) hkind
  | _ => exact hfurnished.keeps (hkeeps (by simp)) hmakes

theorem Trace.isFurnished {first : Engine} {executions : List Execution}
    (h : Trace first executions e) (hsound : first.IsSound) (hopen : first.IsOpen)
    (hfirst : first.disk.IsFurnished) : e.disk.IsFurnished := by
  induction h with
  | start => exact hfirst
  | @command executions e e₁ who command upkeep h hnamed hown hafter ih =>
    exact ((h.isSound hsound).isFurnished_own hnamed hown ih).rewrites
      (rewrites_of_upkeep upkeep e₁)
  | @createDatabase executions e h name ih =>
    have hspares := @Database.spares_create True name e.disk
    have hgrows : Disk.Grows Path.IsUndotted (fun _ => False) e.disk
        (Database.create name e.disk).2 := Database.grows_create name e.disk
    exact ih.keeps hspares.keeps hgrows.makes
  | reopen h hopened ih => rw [disk_of_reopen (h.isSound hsound) (h.isOpen hopen) hopened]; exact ih
  | pass h nanoseconds ih => exact ih
  | maintain h hbackground hmaintains ih => exact ih.rewrites hmaintains.disk
  | queue h hbackground jobs ih => exact ih

end Engine

theorem Run.isFurnished_first (run : Run) : run.first.disk.IsFurnished := by
  refine Disk.isFurnished_of_logs fun place text hfile => ?_
  rcases run.grows_first place with hsame | ⟨-, -, hdirectory⟩ | ⟨hends, -⟩
  · exact absurd (hsame ▸ hfile) (by simp)
  · exact absurd (hdirectory.symm.trans hfile) (by simp)
  · exact hends

/-- In every run the files belong together that belong together. -/
theorem Run.isFurnished_last (run : Run) : run.last.disk.IsFurnished :=
  run.trace.isFurnished run.isSound_first (Engine.isOpen_openOn run.opened) run.isFurnished_first

/-! ### Tables and views -/

/-- Whether a view of a name, if one is stored, is stored where the way to a schema of that name is
no longer than a way may be. -/
def Execution.leavesRoom (x : Execution) (name : String) : Bool :=
  match x.command, x.who.requireDatabase with
  | .createView other _, .ok database =>
    other != name || decide ((Path.schema database name).size ≤ 4096)
  | _, _ => true

theorem Path.isSound_schema {disk : Disk} {home : Path} {database name : String}
    (hhome : Database.LiesAt disk database home) (hname : Name.isValid name = true)
    (hsize : (Path.schema database name).size ≤ 4096) :
    (Path.schema database name).isSound = true := by
  refine Path.isSound_iff.2 ⟨fun part hpart => ?_, hsize⟩
  rw [Path.schema_of_isValid database hname, Path.schemas, List.append_assoc,
    List.mem_append] at hpart
  rcases hpart with hpart | hpart
  · exact (Path.isSound_iff.1 (Disk.locate_eq_ok hhome).1).1 part hpart
  · rw [List.singleton_append, List.mem_cons, List.mem_singleton] at hpart
    rcases hpart with rfl | rfl
    · decide
    · rw [String.toList_append, List.mem_append]
      exact fun hmem => hmem.elim (Name.not_mem hname (by decide)) (by decide)

namespace Engine

variable {who : Identity} {command : Command} {e e' : Engine} {upkeep : Upkeep} {name : String}

/-- A view is stored where there is no schema of its name, or nothing is written. -/
theorem effect_createView (executing : Executing) (who : Identity) (name query : String)
    (e : Engine) : (effect executing who (.createView name query) e).2 = e ∨
      ∃ database disk, who.requireDatabase = .ok database ∧ hasSchema e.disk database name = false ∧
        View.save database name query e.disk = (.ok (), disk) ∧
        (effect executing who (.createView name query) e).2 = { e with disk } := by
  unfold effect
  rw [Action.read_bind]
  cases authorize who (.createView name query) e.role with
  | error failure => exact .inl rfl
  | ok _ =>
  dsimp only
  rw [Action.ofExcept_bind]
  cases hdatabase : who.requireDatabase with
  | error failure => exact .inl rfl
  | ok database =>
  dsimp only [effectIn]
  rw [Action.map_apply]
  dsimp only
  unfold createView
  rw [look_bind]
  cases hnew : hasSchema e.disk database name with
  | true => exact .inl rfl
  | false =>
    rw [if_neg (by simp), onDisk_bind_pure_snd]
    rcases View.save_cases database name query e.disk with hnothing | hsave
    · exact .inl (by rw [hnothing])
    · exact .inr ⟨database, _, rfl, hnew, hsave, rfl⟩

/-- No view of a name has a schema beside it. -/
def HasOwnViews (name : String) (disk : Disk) : Prop :=
  ∀ home text, disk.at? (Path.viewPlace home name) = some (.file text) →
    disk.at? (Path.schemaPlace home name) = none

theorem HasOwnViews.step {disk disk' : Disk} {made : Path → Prop} (h : HasOwnViews name disk)
    (hmakes : Disk.Makes made disk disk') (hmade : ∀ home, ¬made (Path.viewPlace home name))
    (hkept : ∀ home, HasOwnView disk home name → HasOwnView disk' home name) :
    HasOwnViews name disk' := by
  intro home text hfile
  obtain ⟨before, hbefore⟩ := (hmakes _ text hfile).resolve_right (hmade home)
  exact (hkept home ⟨⟨before, hbefore⟩, h home before hbefore⟩).schema

theorem HasOwnViews.rewrites {disk disk' : Disk} (h : HasOwnViews name disk)
    (hname : Name.isValid name = true) (hrewrites : Disk.Rewrites Path.IsIndex disk disk') :
    HasOwnViews name disk' := by
  have hmakes : Disk.Makes (fun _ => False) disk disk' := hrewrites.makes
  exact h.step hmakes (fun _ => id) fun _ hview => hview.rewrites hname hrewrites

/-- A view that is stored has no schema beside it, nor has another one of its name. -/
theorem HasOwnViews.save {disk disk' : Disk} {database query : String} (h : HasOwnViews name disk)
    (hname : Name.isValid name = true) (hsize : (Path.schema database name).size ≤ 4096)
    (hfolder : ∀ home entry, disk.at? (Path.schemaPlace home name) = some entry →
      disk.at? (home ++ ["schema"]) = some .directory)
    (hnew : hasSchema disk database name = false)
    (hsave : View.save database name query disk = (.ok (), disk')) : HasOwnViews name disk' := by
  obtain ⟨home, hhome, -, hfree, rfl⟩ := View.save_eq_ok hname hsave
  obtain ⟨home', hhome', hview⟩ := hasOwnView_of_save hname (Path.isSound_schema hhome hname hsize)
    hfolder hnew hsave
  have hgrows : Disk.Grows (fun _ => False) (fun _ => True) disk
      (disk.put (Path.viewPlace home name) (.file query)) := Disk.grows_put_file trivial hfree query
  obtain rfl := (hhome.grows hgrows).unique hhome'
  intro there text hfile
  by_cases hsame : Path.viewPlace there name = Path.viewPlace home' name
  · obtain ⟨rfl, -⟩ := Path.viewPlace_inj hsame
    exact hview.schema
  · rw [Disk.at?_put, if_neg (by simpa using hsame)] at hfile
    have hplaces : Path.schemaPlace there name ≠ Path.viewPlace home' name := by
      intro hsame
      exact (hsame ▸ Path.endsIn_schemaPlace there name).not (by decide) (Path.endsIn_append home')
    rw [Disk.at?_put, if_neg (by simpa using hplaces)]
    exact h there text hfile

/-- No command puts a view and a schema beside each other. -/
theorem IsSound.hasOwnViews_effect (h : e.IsSound) (hnamed : command.isWellNamed = true)
    (hown : Own who command e e' upkeep) (hname : Name.isValid name = true)
    (hviews : HasOwnViews name e.disk)
    (hfolder : ∀ home entry, e.disk.at? (Path.schemaPlace home name) = some entry →
      e.disk.at? (home ++ ["schema"]) = some .directory)
    (hroom : Execution.leavesRoom ⟨who, command, e⟩ name = true)
    (hafter : ∃ executing, (effect executing who command e).2 = (upkeep.step e').2) :
    HasOwnViews name (upkeep.step e').2.disk := by
  have hother (hmade : ∀ home, ¬command.makes (Path.viewPlace home name)) :
      HasOwnViews name (upkeep.step e').2.disk :=
    (hviews.step (h.makes_own hnamed hown) hmade fun _ hview =>
      h.hasOwnView_own hnamed hown hname hview).rewrites hname (rewrites_of_upkeep upkeep e')
  have hends (home : Path) : Path.EndsIn ".view" (Path.viewPlace home name) :=
    Path.endsIn_append home
  cases command with
  | createView other query =>
    by_cases hsame : other = name
    · subst hsame
      obtain ⟨executing, hafter⟩ := hafter
      rw [← hafter]
      rcases effect_createView executing who other query e with
        hnothing | ⟨database, disk, hdatabase, hnew, hsave, hdisk⟩
      · rw [hnothing]
        exact hviews
      · rw [hdisk]
        rw [Execution.leavesRoom, hdatabase] at hroom
        exact hviews.save hname (by simpa using hroom) hfolder hnew hsave
    · exact hother fun home ⟨home', hplace⟩ => hsame (Path.viewPlace_inj hplace).2.symm
  | createTable table definition =>
    refine hother fun home hmade => ?_
    obtain ⟨home', hsame | hsame⟩ := hmade
    · exact (hsame ▸ hends home).not (by decide) (Path.endsIn_schemaPlace home' table)
    · exact (hsame ▸ hends home).not (by decide) (Path.endsIn_tablePlace home' table)
  | createIndex kind table column =>
    refine hother fun home ⟨home', hsame⟩ => ?_
    obtain ⟨other, hindex⟩ := Path.isIndex_indexPlace home' table column kind
    exact (hsame ▸ hends home).not (by cases other <;> decide) hindex
  | createTrigger definition =>
    refine hother fun home ⟨home', hsame⟩ => ?_
    exact (hsame ▸ hends home).not (by decide) (Path.endsIn_append _)
  | _ => exact hother fun _ => id

theorem Trace.hasOwnViews {first : Engine} {executions : List Execution}
    (h : Trace first executions e) (hsound : first.IsSound) (hopen : first.IsOpen)
    (hnested : first.disk.IsNested) (hname : Name.isValid name = true)
    (hfirst : HasOwnViews name first.disk)
    (hroom : ∀ x ∈ executions, x.leavesRoom name = true) : HasOwnViews name e.disk := by
  induction h with
  | start => exact hfirst
  | @command executions e e₁ who command upkeep h hnamed hown hafter ih =>
    exact (h.isSound hsound).hasOwnViews_effect hnamed hown hname
      (ih fun x hx => hroom x (List.mem_append_left _ hx))
      (fun home => h.folder hsound hopen hnested hname) (hroom _ (by simp)) hafter
  | @createDatabase executions e h name' ih =>
    have hgrows : Disk.Grows Path.IsUndotted (fun _ => False) e.disk
        (Database.create name' e.disk).2 := Database.grows_create name' e.disk
    exact (ih hroom).step hgrows.makes (fun _ => id) fun home hview =>
      hview.grows hname (hgrows.mono (fun _ hmade => hmade.isNoSchema) fun _ hno => hno.elim)
  | reopen h hopened ih =>
    rw [disk_of_reopen (h.isSound hsound) (h.isOpen hopen) hopened]
    exact ih hroom
  | pass h nanoseconds ih => exact ih hroom
  | maintain h hbackground hmaintains ih => exact (ih hroom).rewrites hname hmaintains.disk
  | queue h hbackground jobs ih => exact ih hroom

end Engine

/-- A name under which every view leaves room for a schema is not that of a table and a view. -/
theorem Run.hasOwnViews_last (run : Run) {name : String} (hname : Name.isValid name = true)
    (hroom : ∀ x ∈ run.executions, x.leavesRoom name = true) :
    Engine.HasOwnViews name run.last.disk := by
  refine run.trace.hasOwnViews run.isSound_first (Engine.isOpen_openOn run.opened)
    run.isNested_first hname (fun home text hfile => ?_) hroom
  rcases run.grows_first (Path.viewPlace home name) with hsame | ⟨-, -, hdirectory⟩ | ⟨hends, -⟩
  · exact absurd (hsame ▸ hfile) (by simp)
  · exact absurd (hdirectory.symm.trans hfile) (by simp)
  · exact absurd (Path.endsIn_append home) (hends.not (by decide))

end FlatFileDb
