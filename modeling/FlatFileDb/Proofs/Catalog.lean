import FlatFileDb.Proofs.Rows
import FlatFileDb.Proofs.Run
import FlatFileDb.Proofs.Schema

/-!
# What lies on the disk of a run

In every run the table files list lines, the schema files hold sound schemas of the tables that they
are named after, and what an engine has in memory of a schema is what its file says. The changes that
wait in transactions are such that applying them keeps it so. `Disk.Keeps` is what one operation on
the disk does for this; nothing that is shown of tables later looks at files again.
-/

namespace FlatFileDb

namespace Path

theorem EndsIn.not {first second : String} {path : Path} (h : EndsIn first path)
    (hne : ¬(first.toList <:+ second.toList ∨ second.toList <:+ first.toList)) :
    ¬EndsIn second path :=
  fun h' => hne (h.comparable h')

/-- Whether a place has a name that no table and no index has. -/
def IsFolder (place : Path) : Prop :=
  ¬EndsIn ".mg" place ∧ ¬IsIndex place

/-- Whether a place is not that of a schema file. -/
def IsNoSchema (place : Path) : Prop :=
  ∀ home name, Name.isValid name = true → place ≠ schemaPlace home name

/-- Whether the name of a place has no point in it. -/
def IsUndotted (place : Path) : Prop :=
  ∃ part, place.getLast? = some part ∧ '.' ∉ part.toList

theorem endsIn_table (database name : String) : EndsIn ".mg" (table database name) :=
  endsIn_below _ name (by decide)

theorem endsIn_tablePlace (home : Path) (name : String) : EndsIn ".mg" (tablePlace home name) :=
  endsIn_append home

theorem endsIn_schemaPlace (home : Path) (name : String) :
    EndsIn ".json" (schemaPlace home name) :=
  endsIn_append (home ++ ["schema"])

theorem EndsIn.isNoSchema {ending : String} {place : Path} (h : EndsIn ending place)
    (hne : ¬(ending.toList <:+ ".json".toList ∨ ".json".toList <:+ ending.toList)) :
    IsNoSchema place := by
  rintro home name - rfl
  exact h.not hne (endsIn_schemaPlace home name)

/-- A file whose name has a known ending is told by its directory and the rest of its name. -/
theorem append_ending_inj {home home' : Path} {name name' ending : String}
    (h : home ++ [name ++ ending] = home' ++ [name' ++ ending]) : home = home' ∧ name = name' := by
  obtain ⟨hhome, hname⟩ := List.append_inj' h rfl
  rw [List.cons.injEq] at hname
  have hlists := congrArg String.toList hname.1
  rw [String.toList_append, String.toList_append] at hlists
  exact ⟨hhome, String.toList_inj.1 (List.append_cancel_right hlists)⟩

theorem schemaPlace_inj {home home' : Path} {name name' : String}
    (h : schemaPlace home name = schemaPlace home' name') : home = home' ∧ name = name' := by
  obtain ⟨hhome, hname⟩ := append_ending_inj h
  exact ⟨(List.append_inj' hhome rfl).1, hname⟩

theorem IsUndotted.not_endsIn {ending : String} {place : Path} (h : IsUndotted place)
    (hpoint : '.' ∈ ending.toList) : ¬EndsIn ending place := by
  rintro ⟨other, hother, hsuffix⟩
  obtain ⟨part, hpart, hno⟩ := h
  rw [hpart, Option.some.injEq] at hother
  subst hother
  exact hno (hsuffix.subset hpoint)

theorem IsUndotted.isFolder {place : Path} (h : IsUndotted place) : IsFolder place := by
  refine ⟨h.not_endsIn (by decide), ?_⟩
  rintro ⟨kind, hkind⟩
  exact h.not_endsIn (by cases kind <;> decide) hkind

theorem IsUndotted.isNoSchema {place : Path} (h : IsUndotted place) : IsNoSchema place := by
  rintro home name - rfl
  exact h.not_endsIn (by decide) (endsIn_schemaPlace home name)

end Path

namespace Disk

/-- Every table file lists lines, and every schema file holds a sound schema of its table. -/
structure IsCatalogued (disk : Disk) : Prop where
  lines : ∀ place text, disk.at? place = some (.file text) → Path.EndsIn ".mg" place →
    ∃ lines, Text.Lists text lines
  schemas : ∀ home name text, Name.isValid name = true →
    disk.at? (Path.schemaPlace home name) = some (.file text) →
      disk.at? (home ++ ["schema"]) = some .directory ∧
      ∃ schema, (Json.ofText? text).bind TableSchema.ofJson? = some schema ∧ schema.IsSound ∧
        schema.name = name

theorem IsCatalogued.folder {disk : Disk} (h : disk.IsCatalogued) {name : String}
    (hname : Name.isValid name = true) (home : Path) (text : String)
    (hfound : disk.at? (Path.schemaPlace home name) = some (.file text)) :
    disk.at? (home ++ ["schema"]) = some .directory :=
  (h.schemas home name text hname hfound).1

/-- No directory stands where a table or an index would, and every schema has its table. -/
structure IsApart (disk : Disk) : Prop where
  folders : ∀ place, disk.at? place = some .directory → Path.IsFolder place
  tables : ∀ home name text, Name.isValid name = true →
    disk.at? (Path.schemaPlace home name) = some (.file text) →
      ∃ rows, disk.at? (Path.tablePlace home name) = some (.file rows)

/-- The disk grows, in tables by lines, and no schema is made or changed. -/
structure Keeps (apart : Prop) (disk disk' : Disk) : Prop where
  grows : Grows (fun _ => True) Path.IsNoSchema disk disk'
  lines : disk.IsCatalogued → ∀ place text, disk'.at? place = some (.file text) →
    Path.EndsIn ".mg" place → ∃ lines, Text.Lists text lines
  folders : apart → Grows Path.IsFolder (fun _ => True) disk disk'

variable {apart : Prop} {disk disk' : Disk}

theorem Keeps.schema_iff (h : Keeps apart disk disk') {home : Path} {name text : String}
    (hname : Name.isValid name = true) :
    disk'.at? (Path.schemaPlace home name) = some (.file text) ↔
      disk.at? (Path.schemaPlace home name) = some (.file text) :=
  h.grows.unwritten fun hno => hno home name hname rfl

theorem Keeps.isCatalogued (h : Keeps apart disk disk') (hdisk : disk.IsCatalogued) :
    disk'.IsCatalogued where
  lines := h.lines hdisk
  schemas home name text hname htext := by
    obtain ⟨hfolder, hschema⟩ := hdisk.schemas home name text hname ((h.schema_iff hname).1 htext)
    exact ⟨h.grows.directory hfolder, hschema⟩

theorem Keeps.isApart (h : Keeps apart disk disk') (hapart : apart) (hdisk : disk.IsApart) :
    disk'.IsApart where
  folders place hplace := by
    rcases h.folders hapart place with hsame | ⟨hmade, -, -⟩ | ⟨-, -, text, hfile⟩
    · rw [hsame] at hplace
      exact hdisk.folders place hplace
    · exact hmade
    · exact absurd (hplace.symm.trans hfile) (by simp)
  tables home name text hname htext := by
    obtain ⟨rows, hrows⟩ := hdisk.tables home name text hname ((h.schema_iff hname).1 htext)
    exact h.grows.file hrows

instance : IsPreorder Disk (Keeps apart) where
  refl disk := ⟨refl disk, fun h => h.lines, fun _ => refl disk⟩
  trans _ _ _ h h' :=
    ⟨IsTrans.trans _ _ _ h.grows h'.grows, fun hdisk => h'.lines (h.isCatalogued hdisk),
      fun hapart => IsTrans.trans _ _ _ (h.folders hapart) (h'.folders hapart)⟩

/-- Nothing is made or written that has to do with tables. -/
structure Spares (apart : Prop) (disk disk' : Disk) : Prop where
  grows : Grows (fun _ => True) (fun place => Path.IsNoSchema place ∧ Path.IsFolder place) disk disk'
  folders : apart → Grows Path.IsFolder (fun _ => True) disk disk'

instance : IsPreorder Disk (Spares apart) where
  refl disk := ⟨refl disk, fun _ => refl disk⟩
  trans _ _ _ h h' := ⟨IsTrans.trans _ _ _ h.grows h'.grows,
    fun hapart => IsTrans.trans _ _ _ (h.folders hapart) (h'.folders hapart)⟩

theorem Spares.keeps (h : Spares apart disk disk') : Keeps apart disk disk' where
  grows := h.grows.mono (fun _ _ => trivial) fun _ hwritten => hwritten.1
  lines hdisk place text htext hplace :=
    hdisk.lines place text ((h.grows.unwritten fun hno => hno.2.1 hplace).1 htext) hplace
  folders := h.folders

/-- Making directories, if their names are no names of tables or indexes. -/
theorem spares_of_made {made : Path → Prop} (h : Grows made (fun _ => False) disk disk')
    (hmade : apart → ∀ place, made place → Path.IsFolder place) : Spares apart disk disk' where
  grows := h.mono (fun _ _ => trivial) (fun _ hno => hno.elim)
  folders hapart := h.mono (hmade hapart) (fun _ hno => hno.elim)

theorem spares_put {place : Path} (hplace : disk.at? place ≠ some .directory)
    (hschema : Path.IsNoSchema place) (hfolder : Path.IsFolder place) (text : String) :
    Spares apart disk (disk.put place (.file text)) where
  grows := grows_put_file ⟨hschema, hfolder⟩ hplace text
  folders _ := grows_put_file trivial hplace text

/-- Files of other kinds, known by their endings. -/
theorem spares_writeFile {path : Path} {ending : String} (h : Path.EndsIn ending path)
    (hother : ∀ other ∈ [".json", ".mg", ".idx", ".fts"],
      ¬(ending.toList <:+ other.toList ∨ other.toList <:+ ending.toList)) (text : String) :
    Action.Within (Spares apart) (writeFile path text) := by
  intro disk
  rcases writeFile_cases path text disk with hwrite | ⟨place, hplace, hwrite⟩
  · rw [hwrite]
    exact refl disk
  · obtain ⟨before, name, home, rfl, -, -, rfl, -, -, hfree⟩ := filePlace?_eq_some hplace
    rw [hwrite]
    have hends : Path.EndsIn ending (home ++ [name]) := h.congr (by simp)
    refine spares_put hfree (hends.isNoSchema (hother _ (by simp)))
      ⟨hends.not (hother _ (by simp)), ?_⟩ text
    rintro ⟨kind, hkind⟩
    cases kind with
    | exact => exact hends.not (hother ".idx" (by simp)) hkind
    | words => exact hends.not (hother ".fts" (by simp)) hkind

/-- Writing a file keeps everything, if it is no schema and lists lines if it is a table. -/
theorem keeps_put {place : Path} {text : String} (hplace : disk.at? place ≠ some .directory)
    (hschema : Path.IsNoSchema place)
    (hlines : disk.IsCatalogued → Path.EndsIn ".mg" place → ∃ lines, Text.Lists text lines) :
    Keeps apart disk (disk.put place (.file text)) where
  grows := grows_put_file hschema hplace text
  lines hdisk other found hfound hother := by
    rw [at?_put] at hfound
    by_cases hsame : other = place
    · subst hsame
      rw [if_pos (by simp), Option.some.injEq, DiskEntry.file.injEq] at hfound
      exact hfound ▸ hlines hdisk hother
    · rw [if_neg (by simpa using hsame)] at hfound
      exact hdisk.lines other found hfound hother
  folders _ := grows_put_file trivial hplace text

theorem keeps_of_indexes (h : Grows (fun _ => False) Path.IsIndex disk disk') :
    Keeps apart disk disk' where
  grows := h.mono (fun _ hno => hno.elim) fun place ⟨kind, hkind⟩ =>
    hkind.isNoSchema (by cases kind <;> decide)
  lines hdisk place text htext hplace := by
    refine hdisk.lines place text ((h.unwritten ?_).1 htext) hplace
    rintro ⟨kind, hkind⟩
    exact hkind.not (by cases kind <;> decide) hplace
  folders _ := h.mono (fun _ hno => hno.elim) fun _ _ => trivial

end Disk

/-! ### Directories -/

namespace Path

/-- Whether a part is no name of a table or an index. -/
def isFolderName (part : String) : Bool :=
  [".mg", ".idx", ".fts"].all fun ending => !ending.toList.isSuffixOf part.toList

theorem isFolder_of_getLast? {place : Path} {part : String} (hlast : place.getLast? = some part)
    (h : isFolderName part = true) : IsFolder place := by
  have hnot {ending : String} (hending : ending ∈ [".mg", ".idx", ".fts"]) :
      ¬EndsIn ending place := by
    rintro ⟨other, hother, hsuffix⟩
    rw [hlast, Option.some.injEq] at hother
    subst hother
    have hno := List.all_eq_true.1 h ending hending
    rw [List.isSuffixOf_iff_suffix.2 hsuffix] at hno
    exact absurd hno (by simp)
  refine ⟨hnot (by simp), ?_⟩
  rintro ⟨kind, hkind⟩
  cases kind with
  | exact => exact hnot (by decide) hkind
  | words => exact hnot (by decide) hkind

end Path

/-- Whether no directory of the log has a name of a table or an index. -/
def Settings.isApart (settings : Settings) : Bool :=
  (Path.log settings).holder.all Path.isFolderName

namespace Disk

variable {apart : Prop} {disk disk' : Disk}

theorem spares_makeDirectories {path : Path} (h : apart → ∀ name ∈ path, Path.isFolderName name = true) :
    Action.Within (Spares apart) (makeDirectories path) := by
  intro disk
  have hgrows : Grows (fun place => ∃ name ∈ path, place.getLast? = some name) (fun _ => False) disk
      (makeDirectories path disk).2 :=
    within_makeDirectories (fun name hname _ place hplace => ⟨name, hname, hplace⟩) disk
  exact spares_of_made hgrows fun hapart place ⟨name, hname, hplace⟩ =>
    Path.isFolder_of_getLast? hplace (h hapart name hname)

/-- A directory made in that of a database. -/
theorem grows_makeDirectories_below {written : Path → Prop} {database name : String}
    (hdatabase : Database.require disk database = .ok ()) (hname : '.' ∉ name.toList) :
    Grows Path.IsUndotted written disk
      (makeDirectories (Path.database database ++ [name]) disk).2 := by
  obtain ⟨home, hhome⟩ := Database.liesAt_of_require hdatabase
  exact makeDirectories_below hhome fun _ hplace => ⟨name, hplace, hname⟩

theorem spares_makeDirectories_below {database name : String}
    (hdatabase : Database.require disk database = .ok ()) (hname : '.' ∉ name.toList) :
    Spares apart disk (makeDirectories (Path.database database ++ [name]) disk).2 :=
  spares_of_made (grows_makeDirectories_below hdatabase hname) fun _ _ hplace => hplace.isFolder

end Disk

section Operations

variable {apart : Prop}

theorem Database.grows_create {written : Path → Prop} (name : String) :
    Action.Within (Disk.Grows Path.IsUndotted written) (Database.create name) := by
  unfold Database.create
  intro disk
  rw [Action.ofExcept_bind]
  cases hcheck : Name.check name with
  | error failure => exact refl disk
  | ok _ =>
  dsimp only
  rw [Action.get_bind]
  split
  · exact refl disk
  · have hvalid : Name.isValid name = true := by
      unfold Name.check at hcheck
      split at hcheck
      · rename_i hvalid
        exact hvalid
      · exact absurd hcheck (by simp)
    have hslash {c : Char} (hc : Text.isNameChar c = false) (hstart : c ∉ "db_".toList) :
        c ∉ (Settings.directoryName name).toList := by
      rw [Settings.directoryName, String.toList_append, List.mem_append]
      exact fun hmem => hmem.elim hstart (Name.not_mem hvalid hc)
    refine Disk.within_makeDirectories (fun part hpart _ place hplace => ⟨part, hplace, ?_⟩) disk
    rw [Path.schemas, Path.database, Path.below_of_not_mem _ (hslash (by decide) (by decide))] at hpart
    simp only [List.nil_append, List.mem_append, List.mem_singleton] at hpart
    rcases hpart with rfl | rfl
    · exact hslash (by decide) (by decide)
    · decide

theorem Database.spares_create (name : String) :
    Action.Within (Disk.Spares apart) (Database.create name) := fun disk =>
  Disk.spares_of_made (grows_create name disk) fun _ _ hplace => hplace.isFolder

theorem View.spares_save (database name query : String) :
    Action.Within (Disk.Spares apart) (View.save database name query) :=
  .bind (.read _) fun _ =>
    Disk.spares_writeFile (Path.endsIn_below _ name (by decide)) (by decide) query

/-- The name of the file of a trigger. -/
def Trigger.fileName (definition : TriggerDefinition) : String :=
  fileStart definition.table definition.event ++ definition.name ++ ".json"

theorem Trigger.path_of_isValid {definition : TriggerDefinition} (database : String)
    (hname : Name.isValid definition.name = true) (htable : Name.isValid definition.table = true) :
    path database definition = Path.triggers database ++ [fileName definition] := by
  refine Path.below_of_not_mem _ ?_
  simp only [fileStart, String.toList_append, List.mem_append, not_or]
  refine ⟨⟨⟨⟨⟨Name.not_mem htable (by decide), by decide⟩, ?_⟩, by decide⟩,
    Name.not_mem hname (by decide)⟩, by decide⟩
  cases definition.event <;> decide

/-- A trigger is written to a file in a directory of its own kind. -/
theorem Trigger.place_of_isValid {database : String} {definition : TriggerDefinition}
    (hname : Name.isValid definition.name = true) (htable : Name.isValid definition.table = true)
    {disk : Disk} {place : Path} (h : disk.filePlace? (path database definition) = some place) :
    ∃ home stem, place = home ++ ["triggers"] ++ [stem ++ ".json"] ∧
      disk.at? place ≠ some .directory := by
  obtain ⟨before, file, folder, hpath, -, hfolder, rfl, -, -, hfree⟩ := Disk.filePlace?_eq_some h
  rw [path_of_isValid database hname htable] at hpath
  obtain ⟨rfl, hfile⟩ := List.append_inj' hpath rfl
  rw [List.cons.injEq] at hfile
  obtain ⟨rfl, -⟩ := hfile
  obtain ⟨home, -, rfl, -⟩ := Disk.locate_directory (Path.isPlain_of_length (by decide)) hfolder
  exact ⟨home, _, rfl, hfree⟩

theorem Trigger.spares_save (database : String) (trigger : Trigger)
    (hname : Name.isValid trigger.definition.name = true)
    (htable : Name.isValid trigger.definition.table = true) :
    Action.Within (Disk.Spares apart) (Trigger.save database trigger) := by
  intro disk
  unfold Trigger.save
  rw [Action.read_bind]
  cases hdatabase : Database.require disk database with
  | error failure => exact refl disk
  | ok _ =>
  dsimp only
  have hmade : Disk.Spares apart disk (Disk.makeDirectories (Path.triggers database) disk).2 :=
    Disk.spares_makeDirectories_below hdatabase (by decide)
  cases hmake : Disk.makeDirectories (Path.triggers database) disk with
  | mk result made =>
  rw [hmake] at hmade
  cases result with
  | error failure =>
    rw [Action.bind_of_error hmake]
    exact hmade
  | ok _ =>
  rw [Action.bind_of_ok hmake]
  refine IsTrans.trans _ _ _ hmade ?_
  rcases Disk.writeFile_cases (Trigger.path database trigger.definition)
    (trigger.toJson.indented 0) made with hwrite | ⟨place, hplace, hwrite⟩
  · rw [hwrite]
    exact refl made
  rw [hwrite]
  obtain ⟨home, stem, rfl, hfree⟩ := Trigger.place_of_isValid hname htable hplace
  refine Disk.spares_put hfree ?_ ⟨(Path.endsIn_append _).not (by decide), ?_⟩ _
  · intro home' name _ hsame
    have hparent := (List.append_inj' (List.append_inj' hsame rfl).1 rfl).2
    exact absurd hparent (by decide)
  · rintro ⟨kind, hkind⟩
    exact (Path.endsIn_append _).not (by cases kind <;> decide) hkind

/-! ### Tables and indexes -/

theorem Table.keeps_init (database table : String) :
    Action.Within (Disk.Keeps apart) (Table.init database table) := by
  refine .bind (.read _) fun _ disk => ?_
  rcases Disk.writeFile_cases (Path.table database table) "" disk with hwrite | ⟨place, hplace, hwrite⟩
  · rw [hwrite]
    exact refl disk
  · obtain ⟨before, name, home, hpath, -, -, rfl, -, -, hfree⟩ := Disk.filePlace?_eq_some hplace
    have hends : Path.EndsIn ".mg" (home ++ [name]) :=
      (Path.endsIn_table database table).congr (by rw [hpath]; simp)
    rw [hwrite]
    exact Disk.keeps_put hfree (hends.isNoSchema (by decide)) fun _ _ => ⟨[], Text.lists_empty⟩

/-- Building an index writes one index file. -/
theorem Index.grows_build (database table column : String) (position : Nat) (kind : IndexKind) :
    Action.Within (Disk.Grows (fun _ => False) Path.IsIndex)
      (Index.build database table column position kind) := by
  obtain ⟨other, hends⟩ := Index.isIndex_path database table column kind
  exact .bind (.read _) fun _ => .bind
    (Disk.within_writeFile _ fun place hplace => ⟨other, hends.congr hplace⟩) fun _ => .pure _

theorem Table.keeps_append (database table : String) {row : String} (hrow : Text.IsLine row) :
    Action.Within (Disk.Keeps apart) (Table.append database table row) := by
  intro disk
  unfold Table.append
  rcases Engine.appendFile_cases (.tableFileMissing table) (Path.table database table) (row ++ "\n")
    disk with ⟨failure, -, hwrite⟩ | ⟨before, place, hbefore, hplace, hwrite⟩
  · rw [hwrite]
    exact refl disk
  rw [hwrite]
  obtain ⟨place', hlocate⟩ := Disk.textAt_eq_ok.1 hbefore
  obtain rfl : place' = place := by
    have hsame := (Disk.filePlace?_of_file hlocate).symm.trans hplace
    exact Option.some.inj hsame
  obtain ⟨front, name, home, hpath, -, rfl, hentry, -⟩ := Disk.locate_file hlocate
  have hends : Path.EndsIn ".mg" (home ++ [name]) :=
    (Path.endsIn_table database table).congr (by rw [hpath]; simp)
  refine Disk.keeps_put (by rw [hentry]; simp) (hends.isNoSchema (by decide)) fun hdisk _ => ?_
  obtain ⟨lines, hlines⟩ := hdisk.lines _ _ hentry hends
  exact ⟨lines ++ [row], hlines.append hrow⟩

theorem Disk.IsCatalogued.row {disk : Disk} (h : disk.IsCatalogued) {database table : String}
    {rows : List String} (hrows : Table.rows disk database table = .ok rows) :
    ∀ row ∈ rows, Text.IsLine row ∧ Text.isFilled row = true := by
  obtain ⟨place, text, hlocate, rfl⟩ := Table.locate_of_rows hrows
  obtain ⟨front, name, home, hpath, -, rfl, hentry, -⟩ := Disk.locate_file hlocate
  obtain ⟨lines, hlines⟩ := h.lines _ _ hentry
    ((Path.endsIn_table database table).congr (by rw [hpath]; simp))
  exact fun row hrow => ⟨hlines.isLine_of_mem hrow, hlines.isFilled_of_mem hrow⟩

/-- Lines written to a table. -/
theorem Table.keeps_write (disk : Disk) (database table : String) {rows : List String}
    (h : disk.IsCatalogued → ∀ row ∈ rows, Text.IsLine row) :
    Disk.Keeps apart disk
      (Disk.writeFile (Path.table database table) (Text.ofLines rows) disk).2 := by
  rcases Disk.writeFile_cases (Path.table database table) (Text.ofLines rows) disk with
    hwrite | ⟨place, hplace, hwrite⟩
  · rw [hwrite]
    exact refl disk
  rw [hwrite]
  obtain ⟨front, name, home, hpath, -, -, rfl, -, -, hfree⟩ := Disk.filePlace?_eq_some hplace
  have hends : Path.EndsIn ".mg" (home ++ [name]) :=
    (Path.endsIn_table database table).congr (by rw [hpath]; simp)
  exact Disk.keeps_put hfree (hends.isNoSchema (by decide)) fun hdisk _ =>
    ⟨rows, Text.lists_ofLines (h hdisk)⟩

theorem Table.keeps_changeRow (database table id : String) {f : String → List String}
    (hf : ∀ row, ∀ line ∈ f row, Text.IsLine line) :
    Action.Within (Disk.Keeps apart) (Table.changeRow database table id f) := by
  intro disk
  cases hmodify : Table.changeRow database table id f disk with
  | mk result disk' =>
  rcases Engine.modify_cases hmodify with ⟨-, hdisk⟩ | ⟨rows, after, a, hrows, hchanged, -, hwrite⟩
  · rw [hdisk]
    exact refl disk
  have hkeeps : Disk.Keeps apart disk
      (Disk.writeFile (Path.table database table) (Text.ofLines after) disk).2 := by
    refine Table.keeps_write disk database table fun hdisk => ?_
    split at hchanged
    · rename_i found hfound
      have hafter := Except.ok.inj hchanged
      rw [Prod.mk.injEq] at hafter
      rw [← hafter.1]
      exact forall_of_changeFirst? hfound (fun row hrow => (hdisk.row hrows row hrow).1) hf
    · exact absurd hchanged (by simp)
  rw [hwrite] at hkeeps
  exact hkeeps

/-- An entry whose change makes a line, in a table with a name. -/
structure Log.Entry.IsSound (entry : Log.Entry) : Prop where
  table : Name.isValid entry.table = true
  row : Text.IsLine entry.row

/-- Numbering changes nothing but the number. -/
theorem Log.mem_numbered {entries : List Log.Entry} {first : Nat} {entry : Log.Entry}
    (h : entry ∈ Log.numbered first entries) :
    ∃ before ∈ entries, ∃ number, entry = { before with number } := by
  induction entries generalizing first with
  | nil => exact absurd h (by simp [Log.numbered])
  | cons before rest ih =>
    rw [Log.numbered, List.mem_cons] at h
    rcases h with rfl | h
    · exact ⟨before, by simp, first, rfl⟩
    · obtain ⟨found, hfound, number, hentry⟩ := ih h
      exact ⟨found, List.mem_cons_of_mem _ hfound, number, hentry⟩

theorem Log.Entry.keeps_perform {entry : Log.Entry} (h : entry.IsSound) :
    Action.Within (Disk.Keeps apart) entry.perform := by
  unfold Log.Entry.perform
  cases entry.operation with
  | insert => exact Table.keeps_append _ _ h.row
  | update =>
    exact Table.keeps_changeRow _ _ _ fun _ line hline => by
      rw [List.mem_singleton.1 hline]
      exact h.row
  | delete => exact Table.keeps_changeRow _ _ _ fun _ line hline => absurd hline (by simp)

theorem Log.Entry.keeps_performAll {entries : List Log.Entry} (h : ∀ entry ∈ entries, entry.IsSound)
    (disk : Disk) : Disk.Keeps apart disk (performAll entries disk).2 := by
  induction entries generalizing disk with
  | nil => exact refl disk
  | cons entry rest ih =>
    have hentry : Disk.Keeps apart disk (entry.perform disk).2 :=
      keeps_perform (h entry (by simp)) disk
    rw [performAll]
    cases hperform : entry.perform disk with
    | mk result disk' =>
    rw [hperform] at hentry
    cases result with
    | error failure => exact hentry
    | ok _ => exact IsTrans.trans _ _ _ hentry (ih (fun other hother => h other (by simp [hother])) disk')

/-! ### The log -/

theorem Log.spares_write {disk : Disk} {log : Log} {place : Path} {text : String}
    (hlog : disk.locate log.path = .ok (place, .file text)) (hends : Path.EndsIn ".log" place)
    (entries : List Entry) : Disk.Spares apart disk (log.write entries disk).2 := by
  obtain ⟨before, name, home, hpath, -, rfl, -⟩ := Disk.locate_file hlog
  have hpathEnds : Path.EndsIn ".log" log.path := hends.congr (by rw [hpath]; simp)
  unfold Log.write Disk.appendFile
  exact (Action.Within.bind (.read _) fun _ =>
    Disk.spares_writeFile hpathEnds (by decide) _) disk

/-- An open log has its file. -/
theorem Log.openAt_eq_ok {settings : Settings} {disk disk' : Disk} {log : Log}
    (h : openAt (Path.log settings) disk = (.ok log, disk')) :
    log.path = Path.log settings ∧
      (∃ place text, disk'.locate log.path = .ok (place, .file text) ∧
        Path.EndsIn ".log" place) ∧
      Disk.Spares (settings.isApart = true) disk disk' := by
  have hfolders : settings.isApart = true →
      ∀ name ∈ (Path.log settings).holder, Path.isFolderName name = true := by
    intro hapart
    exact List.all_eq_true.1 hapart
  have hmade := Disk.spares_makeDirectories hfolders disk
  unfold openAt at h
  rcases Action.bind_cases h with ⟨failure, -, hno⟩ | ⟨⟨⟩, made, hmake, h⟩
  · exact absurd hno (by simp)
  rw [hmake] at hmade
  rw [Action.get_bind] at h
  split at h
  · rw [Action.ofExcept_bind] at h
    cases hentries : Log.entries made { path := Path.log settings, next := 1 } with
    | error failure =>
      rw [hentries] at h
      exact absurd (congrArg Prod.fst h) (by simp)
    | ok found =>
      rw [hentries] at h
      have hresult := Prod.mk.inj h
      obtain rfl := Except.ok.inj hresult.1
      obtain rfl := hresult.2
      obtain ⟨text, htext, -⟩ := Action.of_bind_eq_ok hentries
      obtain ⟨place, hplace⟩ := Disk.textAt_eq_ok.1 (Disk.textOr_eq_ok.1 htext)
      obtain ⟨before, name, home, hpath, -, rfl, -, hname, -⟩ := Disk.locate_file hplace
      refine ⟨rfl, ⟨_, text, hplace, ?_⟩, hmade⟩
      exact (Path.endsIn_log hpath hname).congr (by simp only at hpath; rw [hpath]; simp)
  · rcases Disk.writeFile_cases (Path.log settings) "" made with hwrite | ⟨place, hplace, hwrite⟩
    · rw [Action.bind_of_error hwrite] at h
      exact absurd (congrArg Prod.fst h) (by simp)
    · rw [Action.bind_of_ok hwrite] at h
      have hresult := Prod.mk.inj h
      obtain rfl := Except.ok.inj hresult.1
      obtain rfl := hresult.2
      obtain ⟨before, name, home, hpath, -, -, rfl, hname, -, hfree⟩ := Disk.filePlace?_eq_some hplace
      have hends : Path.EndsIn ".log" (home ++ [name]) :=
        (Path.endsIn_log hpath hname).congr (by rw [hpath]; simp)
      refine ⟨rfl, ⟨_, "", Disk.locate_put hplace "", hends⟩, IsTrans.trans _ _ _ hmade ?_⟩
      refine Disk.spares_put hfree (hends.isNoSchema (by decide)) ⟨hends.not (by decide), ?_⟩ ""
      rintro ⟨kind, hkind⟩
      exact hends.not (by cases kind <;> decide) hkind

end Operations

end FlatFileDb
