import FlatFileDb.Proofs.Permission

/-!
# Who may read

Two engines are laid side by side that differ in the rows and the indexes of one table only, one that a
role may not read. A way to anything but the files of that table leads to the same in both, and before
one of its files is opened, the schema of the table is asked. So no query of that role tells the two
apart, however it comes to the table; nor does a search for a word, as long as the database that it is
made in is there. A way through a file fails in another way than one through nothing.
-/

namespace FlatFileDb

namespace Path

/-- Whether a file at a place holds the rows of a table or an index on it. -/
def IsOf (home : Path) (table : String) (place : Path) : Prop :=
  place = tablePlace home table ∨ ∃ column kind, place = indexPlace home table column kind

variable {home home' place : Path} {table name column : String} {kind : IndexKind}

theorem IsOf.not_isFolder (h : IsOf home table place) : ¬IsFolder place := by
  rintro ⟨htable, hindex⟩
  rcases h with rfl | ⟨column, kind, rfl⟩
  · exact htable (endsIn_tablePlace home table)
  · exact hindex (isIndex_indexPlace home table column kind)

theorem IsOf.tablePlace_eq (h : IsOf home table (tablePlace home' name)) :
    home' = home ∧ name = table := by
  rcases h with hsame | ⟨column, kind, hsame⟩
  · exact tablePlace_inj hsame
  · have hends := endsIn_tablePlace home' name
    obtain ⟨kind', hkind⟩ := isIndex_indexPlace home table column kind
    rw [hsame] at hends
    exact absurd hkind (hends.not (by cases kind' <;> decide))

theorem IsOf.indexPlace_eq (htable : Name.isValid table = true) (hname : Name.isValid name = true)
    (h : IsOf home table (indexPlace home' name column kind)) : home' = home ∧ name = table := by
  rcases h with hsame | ⟨column', kind', hsame⟩
  · have hends := endsIn_tablePlace home table
    obtain ⟨kind', hkind⟩ := isIndex_indexPlace home' name column kind
    rw [← hsame] at hends
    exact absurd hkind (hends.not (by cases kind' <;> decide))
  · obtain ⟨hhome, hnames, -⟩ := table_of_indexPlace hname htable hsame
    exact ⟨hhome, hnames⟩

theorem isFolder_schemaPlace (home : Path) (name : String) : IsFolder (schemaPlace home name) := by
  have hends := endsIn_schemaPlace home name
  refine ⟨hends.not (by decide), ?_⟩
  rintro ⟨kind, hkind⟩
  exact hends.not (by cases kind <;> decide) hkind

theorem isFolder_viewPlace (home : Path) (name : String) : IsFolder (viewPlace home name) := by
  have hends : EndsIn ".view" (viewPlace home name) := endsIn_append home
  refine ⟨hends.not (by decide), ?_⟩
  rintro ⟨kind, hkind⟩
  exact hends.not (by cases kind <;> decide) hkind

end Path

namespace Disk

/-- Two disks differ at some places at most, and no directory is among what differs. -/
def AgreesBut (places : Path → Prop) (disk disk' : Disk) : Prop :=
  ∀ place, disk'.at? place = disk.at? place ∨
    places place ∧ disk.at? place ≠ some .directory ∧ disk'.at? place ≠ some .directory

variable {places : Path → Prop} {disk disk' : Disk} {path before place home : Path} {name : String}

theorem AgreesBut.symm (h : AgreesBut places disk disk') : AgreesBut places disk' disk := by
  intro place
  rcases h place with hsame | ⟨hplace, hfirst, hsecond⟩
  · exact .inl hsame.symm
  · exact .inr ⟨hplace, hsecond, hfirst⟩

theorem AgreesBut.at?_eq (h : AgreesBut places disk disk') (hplace : ¬places place) :
    disk'.at? place = disk.at? place :=
  (h place).resolve_right fun hno => hplace hno.1

theorem AgreesBut.directory (h : AgreesBut places disk disk')
    (hplace : disk.at? place = some .directory) : disk'.at? place = some .directory := by
  rcases h place with hsame | ⟨-, hno, -⟩
  · rw [hsame, hplace]
  · exact absurd hplace hno

/-- A way to a directory leads there in both. -/
theorem AgreesBut.locate (h : AgreesBut places disk disk')
    (hpath : disk.locate path = .ok (home, .directory)) :
    disk'.locate path = .ok (home, .directory) := by
  obtain ⟨hsound, hfollow⟩ := locate_eq_ok hpath
  rw [Disk.locate, if_pos hsound, follow_of_directories (fun _ => h.directory) hfollow]

theorem AgreesBut.liesAt_iff (h : AgreesBut places disk disk') {database : String} :
    Database.LiesAt disk' database home ↔ Database.LiesAt disk database home :=
  ⟨h.symm.locate, h.locate⟩

/-- A way on from where both lead comes to the same, unless it ends at one of the places. -/
theorem AgreesBut.locate_append (h : AgreesBut places disk disk')
    (hbefore : disk'.locate before = disk.locate before) (hname : Path.IsPlain name)
    (hplaces : ∀ home, disk.locate before = .ok (home, .directory) → ¬places (home ++ [name])) :
    disk'.locate (before ++ [name]) = disk.locate (before ++ [name]) := by
  unfold Disk.locate
  split_ifs with hsound
  · have hfirst : before.isSound = true := Path.isSound_of_append hsound
    unfold Disk.locate at hbefore hplaces
    rw [if_pos hfirst, if_pos hfirst] at hbefore
    rw [if_pos hfirst] at hplaces
    rw [follow_append before [] (List.cons_ne_nil _ _), follow_append before [] (List.cons_ne_nil _ _),
      hbefore]
    cases hfollow : disk.follow [] before with
    | error failure => rfl
    | ok found =>
      obtain ⟨home, entry⟩ := found
      cases entry with
      | file text => rfl
      | directory =>
        change disk'.follow home [name] = disk.follow home [name]
        rw [follow_plain hname, follow_plain hname, h.at?_eq (hplaces home hfollow)]
        rfl
  · rfl

end Disk

/-! ### Files of a database that is there -/

section Database

variable {disk disk' : Disk} {home home' : Path} {table database name column : String}
  (h : Disk.AgreesBut (Path.IsOf home table) disk disk')
  (hhome : Database.LiesAt disk database home')

include h hhome

theorem locate_schema_of_liesAt (hname : Name.isValid name = true) :
    disk'.locate (Path.schema database name) = disk.locate (Path.schema database name) := by
  have hdatabase : disk'.locate (Path.database database) = disk.locate (Path.database database) :=
    (h.locate hhome).trans hhome.symm
  have hschemas : disk'.locate (Path.schemas database) = disk.locate (Path.schemas database) := by
    refine h.locate_append hdatabase (Path.isPlain_of_length (by decide)) fun folder _ hno => ?_
    exact hno.not_isFolder (Path.isFolder_of_getLast? (by simp : _ = some "schema") (by decide))
  rw [Path.schema_of_isValid database hname]
  refine h.locate_append hschemas (Path.isPlain_append_of_length (by decide)) fun folder hfolder hno => ?_
  obtain ⟨home, -, rfl, -⟩ := Disk.locate_directory (Path.isPlain_of_length (by decide)) hfolder
  exact hno.not_isFolder (Path.isFolder_schemaPlace home name)

theorem locate_view_of_liesAt (hname : Name.isValid name = true) :
    disk'.locate (Path.view database name) = disk.locate (Path.view database name) := by
  rw [Path.view_of_isValid database hname]
  refine h.locate_append ((h.locate hhome).trans hhome.symm)
    (Path.isPlain_append_of_length (by decide)) fun folder _ hno => ?_
  exact hno.not_isFolder (Path.isFolder_viewPlace folder name)

theorem locate_table_of_liesAt (hname : Name.isValid name = true)
    (hother : ¬(home' = home ∧ name = table)) :
    disk'.locate (Path.table database name) = disk.locate (Path.table database name) := by
  rw [Path.table_of_isValid database hname]
  refine h.locate_append ((h.locate hhome).trans hhome.symm)
    (Path.isPlain_append_of_length (by decide)) fun folder hfolder hno => hother ?_
  obtain rfl := hhome.unique hfolder
  exact hno.tablePlace_eq

theorem locate_index_of_liesAt (htable : Name.isValid table = true)
    (hname : Name.isValid name = true) (hcolumn : Name.isValid column = true) (kind : IndexKind)
    (hother : ¬(home' = home ∧ name = table)) :
    disk'.locate (Index.path database name column kind)
      = disk.locate (Index.path database name column kind) := by
  rw [Index.path_of_isValid database hname hcolumn]
  refine h.locate_append ((h.locate hhome).trans hhome.symm) ?_ fun folder hfolder hno => hother ?_
  · refine Path.isPlain_append_of_length ?_
    cases kind <;> decide
  · obtain rfl := hhome.unique hfolder
    exact hno.indexPlace_eq htable hname

end Database

theorem Disk.entryAt_of_locate {disk disk' : Disk} {path : Path}
    (h : disk'.locate path = disk.locate path) : disk'.entryAt path = disk.entryAt path := by
  rw [entryAt, entryAt, h]

theorem Disk.textOr_of_locate {disk disk' : Disk} {path : Path} (missing : Error)
    (h : disk'.locate path = disk.locate path) :
    disk'.textOr missing path = disk.textOr missing path := by
  rw [textOr, textOr, textAt, textAt, entryAt_of_locate h]

namespace Engine

/-- Two engines differ in the files of one table at most. -/
structure DifferIn (home : Path) (table : String) (first second : Engine) : Prop where
  disk : Disk.AgreesBut (Path.IsOf home table) first.disk second.disk
  rest : second = { first with disk := second.disk }

/-- A role may not read the table in a directory of a database. -/
def Denies (disk : Disk) (home : Path) (table : String) (role : Role) : Prop :=
  Name.isValid table = true ∧
    ∃ schema, disk.schemaAt? home table = some schema ∧ role ∉ schema.permissions.read

variable {first second : Engine} {home : Path} {table : String} {who : Identity}
  (h : first.IsSound) (hdenies : Denies first.disk home table who.role)
  (hdiffer : DifferIn home table first second)

section Sources

variable {home' : Path} {database name : String} (hhome : Database.LiesAt first.disk database home')
  (hname : Name.isValid name = true)

include h hdenies hhome hname in
/-- A table that the role may read is another one. -/
theorem other_of_readable {schema : TableSchema} (hknown : first.knownSchema database name = .ok schema)
    (hrole : schema.require who.role .read = .ok ()) : ¬(home' = home ∧ name = table) := by
  rintro ⟨rfl, rfl⟩
  obtain ⟨-, found, hfound, hno⟩ := hdenies
  have hschema := Disk.schemaAt?_of_readSchema hname hhome (h.readSchema hname hknown)
  obtain rfl := Option.some.inj (hfound.symm.trans hschema)
  exact hno (TableSchema.require_eq_ok.1 hrole)

include hdiffer hhome hname

theorem knownSchema_of_liesAt :
    second.knownSchema database name = first.knownSchema database name := by
  have hread : readSchema second.disk database name = readSchema first.disk database name := by
    unfold readSchema
    rw [Disk.textOr_of_locate _ (locate_schema_of_liesAt hdiffer.disk hhome hname)]
  have hschemas : second.schemas = first.schemas := by rw [hdiffer.rest]
  rw [knownSchema, knownSchema, hschemas, hread]

theorem hasSchema_of_liesAt : hasSchema second.disk database name = hasSchema first.disk database name := by
  unfold hasSchema Disk.hasEntry
  rw [Disk.entryAt_of_locate (locate_schema_of_liesAt hdiffer.disk hhome hname)]

theorem rows_of_liesAt (hother : ¬(home' = home ∧ name = table)) :
    Table.rows second.disk database name = Table.rows first.disk database name := by
  unfold Table.rows
  rw [Disk.textOr_of_locate _ (locate_table_of_liesAt hdiffer.disk hhome hname hother)]

include hdenies

theorem load_of_liesAt (hother : ¬(home' = home ∧ name = table)) {column : String}
    (hcolumn : Name.isValid column = true) (kind : IndexKind) :
    Index.load second.disk database name column kind
      = Index.load first.disk database name column kind := by
  unfold Index.load
  rw [Disk.textOr_of_locate _
    (locate_index_of_liesAt hdiffer.disk hhome hdenies.1 hname hcolumn kind hother)]

theorem narrow_of_liesAt (hother : ¬(home' = home ∧ name = table)) {schema : TableSchema}
    (hschema : schema.IsSound) (hnamed : schema.name = name) (condition : Option Condition)
    (rows : List String) :
    narrow second.disk database schema condition rows
      = narrow first.disk database schema condition rows := by
  have hcandidates (condition : Condition) : candidates? second.disk database schema condition
      = candidates? first.disk database schema condition := by
    unfold candidates?
    cases hcolumn : schema.column? (schema.conditionColumn condition.field) with
    | none =>
      dsimp only
      rw [hcolumn]
      rfl
    | some column =>
      have hvalid : Name.isValid (schema.conditionColumn condition.field) = true := by
        obtain ⟨hmem, hsame⟩ := TableSchema.column?_eq_some hcolumn
        rw [← hsame]
        exact hschema.valid column hmem
      have hpresent : Index.isPresent second.disk database schema.name
          (schema.conditionColumn condition.field) .exact = Index.isPresent first.disk database
            schema.name (schema.conditionColumn condition.field) .exact := by
        unfold Index.isPresent Disk.hasFile
        rw [hnamed, Disk.entryAt_of_locate
          (locate_index_of_liesAt hdiffer.disk hhome hdenies.1 hname hvalid .exact hother)]
      have hlookup : Index.lookup second.disk database schema.name
          (schema.conditionColumn condition.field) condition.value = Index.lookup first.disk database
            schema.name (schema.conditionColumn condition.field) condition.value := by
        unfold Index.lookup
        rw [hnamed, load_of_liesAt hdenies hdiffer hhome hname hother hvalid]
      simp only [hpresent, hlookup]
  unfold narrow
  cases condition with
  | none => rfl
  | some condition => rw [Option.bind_some, Option.bind_some, hcandidates]

include h

theorem tableSource_of_liesAt (condition : Option Condition) :
    (tableSource who database name condition second).1
      = (tableSource who database name condition first).1 := by
  refine (observes_schema database name).bind_congr (fun _ => (Observes.ofExcept _).bind fun _ =>
    (Observes.readDisk _).bind fun _ => (Observes.look _).bind fun _ => .pure _) ?_ fun schema hschema => ?_
  · rw [schema_result, schema_result, knownSchema_of_liesAt hdiffer hhome hname]
  rw [schema_result] at hschema
  refine (Observes.ofExcept _).bind_congr (fun _ => (Observes.readDisk _).bind fun _ =>
    (Observes.look _).bind fun _ => .pure _) rfl fun _ hrole => ?_
  have hother := other_of_readable h hdenies hhome hname hschema hrole
  obtain ⟨-, hsound, hnamed⟩ := h.knownSchema hname hschema
  refine (Observes.readDisk _).bind_congr (fun _ => (Observes.look _).bind fun _ => .pure _)
    (rows_of_liesAt hdiffer hhome hname hother) fun rows _ => ?_
  refine (Observes.look _).bind_congr (fun _ => .pure _) ?_ fun _ _ => rfl
  exact congrArg Except.ok
    (narrow_of_liesAt hdenies hdiffer hhome hname hother hsound hnamed condition rows)

end Sources

/-- Nothing is found in a database that is not there. -/
theorem look_of_missing {disk : Disk} {database name : String} (hname : Name.isValid name = true)
    (hmissing : ∀ home, ¬Database.LiesAt disk database home) :
    hasSchema disk database name = false ∧ View.isPresent disk database name = false := by
  constructor
  · unfold hasSchema Disk.hasEntry Disk.entryAt
    cases hlocate : disk.locate (Path.schema database name) with
    | error failure => rfl
    | ok found =>
      rw [Path.schema_of_isValid database hname] at hlocate
      obtain ⟨folder, hfolder, -⟩ :=
        Disk.locate_name (Path.isPlain_append_of_length (by decide)) hlocate
      obtain ⟨home, hhome, -⟩ := Disk.locate_directory (Path.isPlain_of_length (by decide)) hfolder
      exact absurd hhome (hmissing home)
  · unfold View.isPresent Disk.hasFile Disk.entryAt
    cases hlocate : disk.locate (Path.view database name) with
    | error failure => rfl
    | ok found =>
      rw [Path.view_of_isValid database hname] at hlocate
      obtain ⟨home, hhome, -⟩ :=
        Disk.locate_name (Path.isPlain_append_of_length (by decide)) hlocate
      exact absurd hhome (hmissing home)

/-- What is executed for the identity answers queries alike in both engines. -/
def AnswersAlike (first second : Engine) (who : Identity) (executing : Executing) : Prop :=
  ∀ query, query.isWellNamed = true →
    (executing who (.select query) second).1 = (executing who (.select query) first).1

section Queries

variable {executing : Executing}
  (hselect : ∀ who query, Observes (executing who (.select query)))
  (halike : AnswersAlike first second who executing)

include hdiffer hselect halike

theorem viewSource_of_liesAt {home' : Path} {database name : String}
    (hhome : Database.LiesAt first.disk database home') (hname : Name.isValid name = true) :
    (viewSource executing who database name second).1
      = (viewSource executing who database name first).1 := by
  have hload : View.load second.disk database name = View.load first.disk database name :=
    Disk.textOr_of_locate _ (locate_view_of_liesAt hdiffer.disk hhome hname)
  unfold viewSource
  rw [Action.ofExcept_bind, Action.ofExcept_bind]
  cases who.requireRole .user with
  | error failure => rfl
  | ok _ =>
  dsimp only
  rw [readDisk, Action.read_bind, Action.read_bind, hload]
  cases View.load first.disk database name with
  | error failure => rfl
  | ok text =>
  dsimp only
  rw [Action.ofExcept_bind, Action.ofExcept_bind]
  cases hparse : Statement.parse text with
  | error failure => rfl
  | ok command =>
  cases command with
  | select query =>
    exact (hselect who query).bind_congr (fun _ => .pure _)
      (halike query (Statement.isWellNamed_of_parse hparse)) fun _ _ => rfl
  | _ => rfl

include h hdenies

/-- A source is the same whether it is a table that may be read, a view, or refused. -/
theorem source_alike {database name : String} (hname : Name.isValid name = true)
    (condition : Option Condition) :
    (source executing who database name condition second).1
      = (source executing who database name condition first).1 := by
  unfold source
  rw [look_bind, look_bind]
  by_cases hthere : ∃ home', Database.LiesAt first.disk database home'
  · obtain ⟨home', hhome⟩ := hthere
    rw [hasSchema_of_liesAt hdiffer hhome hname]
    cases hasSchema first.disk database name with
    | true => exact tableSource_of_liesAt h hdenies hdiffer hhome hname condition
    | false =>
      have hpresent : View.isPresent second.disk database name
          = View.isPresent first.disk database name := by
        unfold View.isPresent Disk.hasFile
        rw [Disk.entryAt_of_locate (locate_view_of_liesAt hdiffer.disk hhome hname)]
      change ((look _ >>= _) second).1 = ((look _ >>= _) first).1
      rw [look_bind, look_bind, hpresent]
      cases View.isPresent first.disk database name with
      | true => exact viewSource_of_liesAt hdiffer hselect halike hhome hname
      | false => rfl
  · have hfirst := look_of_missing hname fun home' hhome => hthere ⟨home', hhome⟩
    have hsecond := look_of_missing hname fun home' hhome =>
      hthere ⟨home', hdiffer.disk.liesAt_iff.1 hhome⟩
    rw [hfirst.1, hsecond.1]
    change ((look _ >>= _) second).1 = ((look _ >>= _) first).1
    rw [look_bind, look_bind, hfirst.2, hsecond.2]
    rfl

theorem joinSources_alike {database : String} {joins : List Join}
    (hnames : ∀ join ∈ joins, Name.isValid join.table = true) (relation : Relation) :
    (joinSources executing who database relation joins second).1
      = (joinSources executing who database relation joins first).1 := by
  induction joins generalizing relation with
  | nil => rfl
  | cons join rest ih =>
    have hrest (relation : Relation) := observes_joinSources hselect who database relation rest
    refine (observes_source hselect who database join.table none).bind_congr
      (fun _ => (Observes.ofExcept _).bind hrest)
      (source_alike h hdenies hdiffer hselect halike (hnames join (by simp)) none) fun right _ => ?_
    exact (Observes.ofExcept _).bind_congr hrest rfl fun joined _ =>
      ih (fun other hother => hnames other (List.mem_cons_of_mem join hother)) joined

theorem select_alike (database : String) {query : Query} (hnamed : query.isWellNamed = true) :
    (select executing who database query second).1
      = (select executing who database query first).1 := by
  rw [Query.isWellNamed, Bool.and_eq_true, List.all_eq_true] at hnamed
  refine (observes_source hselect who database query.table _).bind_congr
    (fun _ => (observes_joinSources hselect who database _ _).bind fun _ => .ofExcept _)
    (source_alike h hdenies hdiffer hselect halike hnamed.1 _) fun relation _ => ?_
  exact (observes_joinSources hselect who database relation _).bind_congr (fun _ => .ofExcept _)
    (joinSources_alike h hdenies hdiffer hselect halike hnamed.2 relation) fun _ _ => rfl

end Queries

include h hdenies hdiffer

/-- However deep views stand in one another, a query is answered alike. -/
theorem answersAlike_executeWithin (budget : Nat) :
    AnswersAlike first second who (executeWithin budget) := by
  induction budget with
  | zero =>
    intro query _
    rw [executeWithin, Action.read_apply, Action.read_apply, hdiffer.rest]
  | succ budget ih =>
    intro query hnamed
    rw [executeWithin, perform_select]
    exact (Observes.ofExcept _).bind_congr
      (fun database => observes_select (observes_executeWithin budget) who database query) rfl
      fun database _ => select_alike h hdenies hdiffer (observes_executeWithin budget) ih database hnamed

theorem search_alike {database name column : String} {home' : Path} (word : String)
    (hhome : Database.LiesAt first.disk database home') (hname : Name.isValid name = true)
    (hcolumn : Name.isValid column = true) :
    (search who database name column word second).1
      = (search who database name column word first).1 := by
  refine (observes_schema database name).bind_congr (fun _ => (Observes.ofExcept _).bind fun _ =>
    (Observes.ofExcept _).bind fun _ => (Observes.readDisk _).bind fun _ =>
      (Observes.readDisk _).bind fun _ => .pure _) ?_ fun schema hschema => ?_
  · rw [schema_result, schema_result, knownSchema_of_liesAt hdiffer hhome hname]
  rw [schema_result] at hschema
  refine (Observes.ofExcept _).bind_congr (fun _ => (Observes.ofExcept _).bind fun _ =>
    (Observes.readDisk _).bind fun _ => (Observes.readDisk _).bind fun _ => .pure _) rfl
    fun _ hrole => ?_
  have hother := other_of_readable h hdenies hhome hname hschema hrole
  refine (Observes.ofExcept _).bind_congr (fun _ => (Observes.readDisk _).bind fun _ =>
    (Observes.readDisk _).bind fun _ => .pure _) rfl fun _ _ => ?_
  refine (Observes.readDisk _).bind_congr (fun _ => (Observes.readDisk _).bind fun _ => .pure _) ?_
    fun ids _ => ?_
  · change Index.search second.disk database name column word
      = Index.search first.disk database name column word
    unfold Index.search
    rw [load_of_liesAt hdenies hdiffer hhome hname hother hcolumn]
  · exact (Observes.readDisk _).bind_congr (fun _ => .pure _)
      (rows_of_liesAt hdiffer hhome hname hother) fun _ _ => rfl

omit h hdenies hdiffer in
/-- An index is built without a change to any file but its own. -/
theorem differIn_build {e : Engine} {database column : String} (position : Nat) (kind : IndexKind)
    (hhome : Database.LiesAt e.disk database home) (htable : Name.isValid table = true)
    (hcolumn : Name.isValid column = true) :
    DifferIn home table e
      { e with disk := (Index.build database table column position kind e.disk).2 } where
  disk := by
    rcases Index.build_cases database table column position kind e.disk with
      ⟨failure, hbuild⟩ | ⟨rows, place, keys, -, hplace, hbuild⟩
    · exact fun other => .inl (by rw [hbuild])
    · intro other
      dsimp only
      rw [hbuild, Disk.at?_put]
      by_cases hsame : other = place
      · subst hsame
        obtain ⟨-, -, -, -, -, -, -, -, -, hfree⟩ := Disk.filePlace?_eq_some hplace
        rw [if_pos (by simp)]
        exact .inr ⟨.inr ⟨column, kind, Index.filePlace_of_liesAt hhome htable hcolumn hplace⟩, hfree,
          by simp⟩
      · exact .inl (by rw [if_neg (by simpa using hsame)])
  rest := rfl

/-- A command that only asks: a query, or a search in a database that is there if one is selected. -/
inductive Asks (disk : Disk) (who : Identity) : Command → Prop
  | select (query : Query) : Asks disk who (.select query)
  | search (table column word : String)
      (hthere : ∀ database, who.requireDatabase = .ok database →
        ∃ home, Database.LiesAt disk database home) : Asks disk who (.search table column word)

include h hdenies hdiffer in
/-- A role that may not read a table gets the same answer to every query and every search in a database
that is there, whatever rows and indexes the table has: the same result or the same error. -/
theorem answer_unaffected {text : String} {command : Command}
    (hparse : Statement.parse text = .ok command) (hasks : Asks first.disk who command) :
    (run (some who) text second).1 = (run (some who) text first).1 := by
  have hnamed := Statement.isWellNamed_of_parse hparse
  have hsettings : second.settings = first.settings := by rw [hdiffer.rest]
  rw [run_of_parse hparse, run_of_parse hparse, hsettings]
  cases hasks with
  | select query =>
    exact answersAlike_executeWithin h hdenies hdiffer (first.settings.nestingLimit + 1) query hnamed
  | search name column word hthere =>
    rw [perform_search]
    rw [Command.isWellNamed, Bool.and_eq_true] at hnamed
    refine (Observes.ofExcept _).bind_congr
      (fun database => observes_search who database name column word) rfl fun database hdatabase => ?_
    obtain ⟨home', hhome⟩ := hthere database hdatabase
    exact search_alike h hdenies hdiffer word hhome hnamed.1 hnamed.2

end Engine

namespace Run

/-- The table that only administrators may read has an index as well. -/
def indexed : Engine :=
  { guarded with disk := (Index.build "kantor" "c" "id" 0 .exact guarded.disk).2 }

/-- Someone who may not read that table. -/
def reader (database : String) : Identity :=
  ⟨"euis", .user, some database⟩

theorem isSound_indexed : indexed.IsSound := by
  have hsound := isSound_guarded
  unfold indexed
  generalize guarded = e at *
  exact hsound.onDisk (refl e) (Disk.keeps_of_indexes (Index.grows_build _ _ _ _ _ _))

theorem liesAt_guarded : Database.LiesAt guarded.disk "kantor" ["db_kantor"] := by
  unfold Database.LiesAt
  decide +kernel

theorem differIn_indexed : Engine.DifferIn ["db_kantor"] "c" guarded indexed := by
  have hhome := liesAt_guarded
  unfold indexed
  generalize guarded = e at *
  exact Engine.differIn_build 0 .exact hhome (by decide) (by decide)

theorem denies_guarded : Engine.Denies guarded.disk ["db_kantor"] "c" .user := by
  have hknown : guarded.knownSchema "kantor" "c"
      = .ok ⟨"kantor", "c", [.plain "id" .int], ⟨[.admin, .supermaung], [.supermaung]⟩⟩ := by
    decide +kernel
  have hhome := liesAt_guarded
  have hsound := isSound_guarded
  generalize guarded = e at *
  exact ⟨by decide, _, Disk.schemaAt?_of_readSchema (by decide) hhome
    (hsound.readSchema (by decide) hknown), by decide⟩

theorem answer_unaffected_indexed :
    Database.LiesAt guarded.disk "kantor" ["db_kantor"] ∧
      Index.isPresent guarded.disk "kantor" "c" "id" .exact = false ∧
      Index.isPresent indexed.disk "kantor" "c" "id" .exact = true ∧
      (Engine.run (some (reader "kantor")) "SEARCH c ON id FOR abc" indexed).1
        = (Engine.run (some (reader "kantor")) "SEARCH c ON id FOR abc" guarded).1 := by
  have hfacts : Index.isPresent guarded.disk "kantor" "c" "id" .exact = false ∧
      Index.isPresent indexed.disk "kantor" "c" "id" .exact = true ∧
      Statement.parse "SEARCH c ON id FOR abc" = .ok (.search "c" "id" "abc") := by
    decide +kernel
  obtain ⟨hwithout, hwith, hparse⟩ := hfacts
  refine ⟨liesAt_guarded, hwithout, hwith, Engine.answer_unaffected isSound_guarded denies_guarded differIn_indexed
    hparse (.search "c" "id" "abc" fun database hdatabase => ?_)⟩
  obtain rfl : "kantor" = database := Except.ok.inj hdatabase
  exact ⟨_, liesAt_guarded⟩

/-- Through the index of the table a search goes on in a database of another name, and where the index
is not there it fails in another way. -/
theorem search_affected :
    Statement.parse "SEARCH c ON id FOR abc" = .ok (.search "c" "id" "abc") ∧
      guarded.IsSound ∧ indexed.IsSound ∧
      Engine.Denies guarded.disk ["db_kantor"] "c" (reader "kantor/c.id.idx/..").role ∧
      Engine.DifferIn ["db_kantor"] "c" guarded indexed ∧
      (Engine.run (some (reader "kantor/c.id.idx/..")) "SEARCH c ON id FOR abc" guarded).1
        = .error (.unknownTable "c") ∧
      (Engine.run (some (reader "kantor/c.id.idx/..")) "SEARCH c ON id FOR abc" indexed).1
        = .error .fileFailure := by
  have hparse : Statement.parse "SEARCH c ON id FOR abc" = .ok (.search "c" "id" "abc") := by
    decide +kernel
  have hanswers :
      (Engine.run (some (reader "kantor/c.id.idx/..")) "SEARCH c ON id FOR abc" guarded).1
        = .error (.unknownTable "c") ∧
      (Engine.run (some (reader "kantor/c.id.idx/..")) "SEARCH c ON id FOR abc" indexed).1
        = .error .fileFailure := by
    decide +kernel
  exact ⟨hparse, isSound_guarded, isSound_indexed, denies_guarded, differIn_indexed, hanswers⟩

end Run

end FlatFileDb
