import FlatFileDb.Proofs.Catalog

/-!
# What holds in every run

`Engine.IsSound` holds of the first engine of a run and is kept by everything that happens in one, so
it holds of the last one and of every engine that an execution found.
-/

namespace FlatFileDb

namespace Engine

/-- What lies on the disk is as it should be, and memory agrees with it. -/
structure IsSound (e : Engine) : Prop where
  disk : e.disk.IsCatalogued
  apart : e.settings.isApart = true → e.disk.IsApart
  memory : ∀ database name schema, Name.isValid name = true →
    e.schemas.get? (database, name) = some schema → readSchema e.disk database name = .ok schema
  waiting : ∀ user transaction, e.transactions.get? user = some transaction →
    ∀ entry ∈ transaction.latest, entry.IsSound ∧
      ∃ schema, readSchema e.disk entry.database entry.table = .ok schema
  log : ∃ place text, e.disk.locate e.log.path = .ok (place, .file text) ∧ Path.EndsIn ".log" place

theorem readSchema_of_keeps {apart : Prop} {disk disk' : Disk} {database name : String}
    {schema : TableSchema} (hname : Name.isValid name = true) (h : Disk.Keeps apart disk disk')
    (hread : readSchema disk database name = .ok schema) :
    readSchema disk' database name = .ok schema := by
  obtain ⟨home, text, -, hlocate, hentry, hschema⟩ := readSchema_eq_ok hname hread
  obtain ⟨text', hlocate', hentry'⟩ := h.grows.locate_file hlocate
  have hsame := hentry.symm.trans ((h.schema_iff hname).1 hentry')
  rw [Option.some.injEq, DiskEntry.file.injEq] at hsame
  subst hsame
  exact readSchema_of_text (Disk.textAt_eq_ok.2 ⟨_, hlocate'⟩) hschema

namespace IsSound

variable {e e' : Engine}

/-- What keeps the disk keeps everything, unless wrong things are put into memory. -/
theorem step (h : e.IsSound) (hsettings : e'.settings = e.settings)
    (hdisk : Disk.Keeps (e.settings.isApart = true) e.disk e'.disk)
    (hlog : e'.log.path = e.log.path)
    (hschemas : ∀ key schema, e'.schemas.get? key = some schema →
      e.schemas.get? key = some schema ∨ readSchema e.disk key.1 key.2 = .ok schema)
    (hwaiting : ∀ user transaction, e'.transactions.get? user = some transaction →
      ∀ entry ∈ transaction.latest, entry.IsSound ∧
        ∃ schema, Engine.readSchema e.disk entry.database entry.table = .ok schema) :
    e'.IsSound where
  disk := hdisk.isCatalogued h.disk
  apart hapart := by
    rw [hsettings] at hapart
    exact hdisk.isApart hapart (h.apart hapart)
  memory database name schema hname hkey := by
    refine readSchema_of_keeps hname hdisk ?_
    rcases hschemas _ _ hkey with hbefore | hread
    · exact h.memory database name schema hname hbefore
    · exact hread
  waiting user transaction hactive entry hentry := by
    obtain ⟨hsound, schema, hread⟩ := hwaiting user transaction hactive entry hentry
    exact ⟨hsound, schema, readSchema_of_keeps hsound.table hdisk hread⟩
  log := by
    obtain ⟨place, text, hlocate, hends⟩ := h.log
    obtain ⟨text', hlocate', -⟩ := hdisk.grows.locate_file hlocate
    exact ⟨place, text', by rw [hlog, hlocate'], hends⟩

theorem quiet (h : e.IsSound) (hquiet : Quiet e e') : e'.IsSound :=
  h.step hquiet.settings (by rw [hquiet.disk]; exact refl e.disk) (by rw [hquiet.log]) hquiet.read
    (by rw [hquiet.transactions]; exact h.waiting)

theorem maintains (h : e.IsSound) (hmaintains : Maintains e e') : e'.IsSound :=
  h.step hmaintains.settings (Disk.keeps_of_indexes hmaintains.disk.grows) (by rw [hmaintains.log]) hmaintains.read
    (by rw [hmaintains.transactions]; exact h.waiting)

/-- Memory and disk agree, so the known schema of a table is the one in its file. -/
theorem readSchema (h : e.IsSound) {database name : String} {schema : TableSchema}
    (hname : Name.isValid name = true) (hknown : e.knownSchema database name = .ok schema) :
    Engine.readSchema e.disk database name = .ok schema := by
  unfold knownSchema at hknown
  split at hknown
  · rename_i found hmemory
    rw [← Except.ok.inj hknown]
    exact h.memory database name found hname hmemory
  · exact hknown

/-- Steps after which only the disk differs from what reading left. -/
theorem onDisk (h : e.IsSound) (hquiet : Quiet e e') {disk : Disk}
    (hdisk : Disk.Keeps (e.settings.isApart = true) e.disk disk) :
    IsSound { e' with disk } := by
  have hquiet' := h.quiet hquiet
  refine hquiet'.step rfl ?_ rfl (fun _ _ hkey => .inl hkey) hquiet'.waiting
  rw [hquiet.settings, hquiet.disk]
  exact hdisk

theorem waitingMore (h : e.IsSound) {user : String} {transaction : Transaction}
    (hactive : e.transactions.get? user = some transaction) {entries : List Log.Entry}
    (hentries : ∀ entry ∈ entries, entry.IsSound ∧
      ∃ schema, Engine.readSchema e.disk entry.database entry.table = .ok schema)
    (hquiet : Quiet e e') : (e'.waiting user transaction entries).IsSound := by
  have hquiet' := h.quiet hquiet
  refine hquiet'.step rfl (refl e'.disk) rfl (fun _ _ hkey => .inl hkey) ?_
  intro other found hfound entry hentry
  rw [Engine.waiting, Keyed.get?_insert] at hfound
  split at hfound
  · rw [← Option.some.inj hfound, List.mem_append, List.mem_reverse] at hentry
    rw [hquiet.disk]
    rcases hentry with hentry | hentry
    · exact hentries entry hentry
    · exact h.waiting user transaction hactive entry hentry
  · exact hquiet'.waiting other found hfound entry hentry

theorem endTransaction (h : e.IsSound) (user : String) :
    IsSound { e with transactions := e.transactions.erase user } := by
  refine h.step rfl (refl e.disk) rfl (fun _ _ hkey => .inl hkey) ?_
  intro other found hfound
  rw [Keyed.get?_erase] at hfound
  split at hfound
  · exact absurd hfound (by simp)
  · exact h.waiting other found hfound

end IsSound

/-! ### Rows and entries that commands write -/

theorem isLine_of_checkRow {schema : TableSchema} {database row : String} {e : Engine}
    (h : (schema.checkRow (storedValues database) row e).1 = .ok ()) : Text.IsLine row :=
  TableSchema.isLine_of_checkFields (checkRow_eq_ok h).1

theorem PassesAs.exists_of_mem {schema : TableSchema} {assigned : List (String × String)}
    {assignments : List Assignment} (h : PassesAs schema assigned assignments) {a : Assignment}
    (ha : a ∈ assignments) :
    ∃ pair ∈ assigned, schema.columnIndex? pair.1 = some a.position ∧
      schema.columns[a.position]? = some a.column ∧ a.value = pair.2 ∧
      a.column.checkField a.value = .ok () := by
  obtain ⟨i, hi, rfl⟩ := List.getElem_of_mem ha
  have hbound : i < assigned.length := by rwa [h.length_eq]
  exact ⟨assigned[i], List.getElem_mem hbound, h.get hbound hi⟩

theorem PassesAs.isClean {schema : TableSchema} {assigned : List (String × String)}
    {assignments : List Assignment} (h : PassesAs schema assigned assignments) :
    ∀ a ∈ assignments, a.IsClean := by
  intro a ha
  obtain ⟨-, -, -, -, -, hchecked⟩ := h.exists_of_mem ha
  exact Column.clean_of_checkField hchecked

theorem isLine_update {schema : TableSchema} {assigned : List (String × String)}
    {assignments : List Assignment} {conditions : List Condition} {rows after : List String}
    {changed : List (String × String)} (hassigned : PassesAs schema assigned assignments)
    (hchange : schema.update assignments conditions rows = .ok (after, changed))
    (hrows : ∀ row ∈ rows, Text.IsLine row) :
    (∀ row ∈ after, Text.IsLine row) ∧ ∀ pair ∈ changed, Text.IsLine pair.2 := by
  obtain ⟨rfl, rfl, -⟩ := TableSchema.update_eq_ok hchange
  have hassign {row : String} (hrow : row ∈ rows) :
      Text.IsLine (schema.assign assignments row) :=
    TableSchema.isLine_assign hassigned.isClean (hrows row hrow)
  constructor
  · intro row hrow
    obtain ⟨before, hbefore, rfl⟩ := List.mem_map.1 hrow
    split
    · exact hassign hbefore
    · exact hrows before hbefore
  · intro pair hpair
    obtain ⟨before, hbefore, rfl⟩ := List.mem_map.1 hpair
    exact hassign (List.mem_filter.1 hbefore).1

theorem isSound_numbered {entries : List Log.Entry} (h : ∀ entry ∈ entries, entry.IsSound)
    (first : Nat) : ∀ entry ∈ Log.numbered first entries, entry.IsSound := by
  intro entry hentry
  obtain ⟨before, hbefore, number, rfl⟩ := Log.mem_numbered hentry
  exact ⟨(h before hbefore).table, (h before hbefore).row⟩

/-- Writing the log has nothing to do with tables. -/
theorem IsSound.spares_write {apart : Prop} {e : Engine} (h : e.IsSound) {entries : List Log.Entry}
    {logged : Disk} (hlog : e.log.write entries e.disk = (.ok (), logged)) :
    Disk.Spares apart e.disk logged := by
  obtain ⟨place, text, hlocate, hends⟩ := h.log
  have hspares : Disk.Spares apart e.disk (e.log.write entries e.disk).2 :=
    Log.spares_write hlocate hends entries
  rw [hlog] at hspares
  exact hspares

/-! ### Commands -/

/-- What a new schema finds: the directory it is put into, and nothing at its place. -/
theorem schemaPlace_of_write {disk made written : Disk} {database name text : String}
    (hfolders : ∀ home text, disk.at? (Path.schemaPlace home name) = some (.file text) →
      disk.at? (home ++ ["schema"]) = some .directory)
    (hname : Name.isValid name = true)
    (hdatabase : Database.require disk database = .ok ())
    (hnew : hasSchema disk database name = false)
    (hmake : Disk.makeDirectories (Path.schemas database) disk = (.ok (), made))
    (hwrite : Disk.writeFile (Path.schema database name) text made = (.ok (), written)) :
    ∃ home, Database.LiesAt made database home ∧
      made.at? (home ++ ["schema"]) = some .directory ∧
      made.at? (Path.schemaPlace home name) = none ∧
      made.filePlace? (Path.schema database name) = some (Path.schemaPlace home name) ∧
      written = made.put (Path.schemaPlace home name) (.file text) := by
  rcases Disk.writeFile_cases (Path.schema database name) text made with hno | ⟨place, hplace, hput⟩
  · rw [hno] at hwrite
    exact absurd (congrArg Prod.fst hwrite) (by simp)
  obtain ⟨before, part, folder, hpath, hsound, hfolder, rfl, hplain, hfits, hfree⟩ :=
    Disk.filePlace?_eq_some hplace
  rw [Path.schema_of_isValid database hname] at hpath
  obtain ⟨rfl, hpart⟩ := List.append_inj' hpath rfl
  rw [List.cons.injEq] at hpart
  obtain ⟨rfl, -⟩ := hpart
  obtain ⟨home, hhome, rfl, hthere, hfolderFits⟩ :=
    Disk.locate_directory (Path.isPlain_of_length (by decide)) hfolder
  have hlies : Database.LiesAt made database home := hhome
  refine ⟨home, hlies, hthere, ?_, hplace, ?_⟩
  · cases hentry : made.at? (Path.schemaPlace home name) with
    | none => rfl
    | some entry =>
      cases entry with
      | directory => exact absurd hentry hfree
      | file found =>
        -- The file was there before, so it would have been found.
        have hgrows : Disk.Grows (fun _ => True) (fun _ => False) disk made := by
          have hwithin : Action.Within (Disk.Grows (fun _ => True) fun _ => False)
              (Disk.makeDirectories (Path.schemas database)) :=
            Disk.within_makeDirectories fun _ _ _ _ _ => trivial
          have hgrown := hwithin disk
          rw [hmake] at hgrown
          exact hgrown
        have hbefore := (hgrows.unwritten id).1 hentry
        have hfolderBefore := hfolders home found hbefore
        obtain ⟨home', hhome'⟩ := Database.liesAt_of_require hdatabase
        obtain rfl := hlies.unique (hhome'.grows hgrows)
        have hfree := schemaPlace_of_hasSchema hhome' hname hsound hfits (fun _ _ => hfolderBefore)
          hnew
        exact absurd (hfree.symm.trans hbefore) (by simp)
  · rw [hput] at hwrite
    exact (congrArg Prod.snd hwrite).symm

theorem fits_append {stem : String} {ending longer : String}
    (hlength : ending.utf8ByteSize ≤ longer.utf8ByteSize) (h : Path.fits (stem ++ longer) = true) :
    Path.fits (stem ++ ending) = true := by
  simp only [Path.fits, decide_eq_true_eq, String.utf8ByteSize_append] at h ⊢
  omega

/-- The way to a file beside that of a table is shorter than that to its schema. -/
theorem isSound_beside {database name ending : String} (hname : Name.isValid name = true)
    (hnull : Char.ofNat 0 ∉ ending.toList) (hlength : ending.utf8ByteSize ≤ 5)
    (h : (Path.schema database name).isSound = true) :
    (Path.database database ++ [name ++ ending]).isSound = true := by
  rw [Path.schema_of_isValid database hname, Path.schemas, List.append_assoc] at h
  rw [Path.isSound_iff, Path.size_append] at h ⊢
  constructor
  · intro part hpart
    rw [List.mem_append, List.mem_singleton] at hpart
    rcases hpart with hpart | rfl
    · exact h.1 part (List.mem_append_left _ hpart)
    · rw [String.toList_append, List.mem_append]
      exact fun hmem => hmem.elim (Name.not_mem hname (by decide)) hnull
  · have hjson : (".json" : String).utf8ByteSize = 5 := by decide
    have hsize := h.2
    simp only [Path.size, List.map_append, List.map_cons, List.map_nil, List.sum_append,
      List.sum_cons, List.sum_nil, String.utf8ByteSize_append, hjson] at hsize ⊢
    omega

theorem isSound_table {database name : String} (hname : Name.isValid name = true)
    (h : (Path.schema database name).isSound = true) :
    (Path.table database name).isSound = true := by
  rw [Path.table_of_isValid database hname]
  exact isSound_beside hname (by decide) (by decide) h

section NewSchema

variable {made : Disk} {home : Path} {database table text : String} {schema : TableSchema}

theorem isCatalogued_put_schema (h : made.IsCatalogued)
    (hfolder : made.at? (home ++ ["schema"]) = some .directory)
    (hnone : made.at? (Path.schemaPlace home table) = none)
    (hread : (Json.ofText? text).bind TableSchema.ofJson? = some schema) (hsound : schema.IsSound)
    (hname : schema.name = table) :
    (made.put (Path.schemaPlace home table) (.file text)).IsCatalogued where
  lines place found hfound hends := by
    rw [Disk.at?_put, if_neg] at hfound
    · exact h.lines place found hfound hends
    · rw [beq_iff_eq]
      rintro rfl
      exact (Path.endsIn_schemaPlace home table).not (by decide) hends
  schemas home' name found hvalid hfound := by
    have hgrows : Disk.Grows (fun _ => True) (fun _ => True) made
        (made.put (Path.schemaPlace home table) (.file text)) :=
      Disk.grows_put_file trivial (by rw [hnone]; simp) text
    by_cases hsame : Path.schemaPlace home' name = Path.schemaPlace home table
    · obtain ⟨rfl, rfl⟩ := Path.schemaPlace_inj hsame
      rw [Disk.at?_put, if_pos (by simp), Option.some.injEq, DiskEntry.file.injEq] at hfound
      exact ⟨hgrows.directory hfolder, schema, hfound ▸ hread, hsound, hname⟩
    · rw [Disk.at?_put, if_neg (by simpa using hsame)] at hfound
      obtain ⟨hfolder', hschema⟩ := h.schemas home' name found hvalid hfound
      exact ⟨hgrows.directory hfolder', hschema⟩

theorem readSchema_put_schema (hnone : made.at? (Path.schemaPlace home table) = none)
    {other name : String} {found : TableSchema} (hvalid : Name.isValid name = true)
    (hread : Engine.readSchema made other name = .ok found) :
    Engine.readSchema (made.put (Path.schemaPlace home table) (.file text)) other name
      = .ok found := by
  obtain ⟨home', text', -, hlocate, hentry, hschema⟩ := readSchema_eq_ok hvalid hread
  have hgrows : Disk.Grows (fun _ => True) (fun _ => True) made
      (made.put (Path.schemaPlace home table) (.file text)) :=
    Disk.grows_put_file trivial (by rw [hnone]; simp) text
  obtain ⟨text'', hlocate', hentry'⟩ := hgrows.locate_file hlocate
  have hother : Path.schemaPlace home' name ≠ Path.schemaPlace home table := by
    intro hsame
    rw [hsame, hnone] at hentry
    exact absurd hentry (by simp)
  rw [Disk.at?_put, if_neg (by simpa using hother), hentry, Option.some.injEq,
    DiskEntry.file.injEq] at hentry'
  exact readSchema_of_text (Disk.textAt_eq_ok.2 ⟨_, hentry' ▸ hlocate'⟩) hschema

/-- Where no directory is in the way, the file of a table is made. -/
theorem init_table {disk : Disk} (hhome : Database.LiesAt disk database home)
    (hvalid : Name.isValid table = true) (hsound : (Path.table database table).isSound = true)
    (hfits : Path.fits (table ++ ".mg") = true)
    (hfree : disk.at? (Path.tablePlace home table) ≠ some .directory) :
    Table.init database table disk
      = (.ok (), disk.put (Path.tablePlace home table) (.file "")) := by
  unfold Table.init
  rw [Action.read_bind, hhome.require]
  refine Disk.writeFile_of_place ?_ ""
  rw [Path.table_of_isValid database hvalid] at hsound ⊢
  exact Disk.filePlace?_append hsound (Path.isPlain_append_of_length (by decide)) hfits hhome hfree

/-- A new schema stands in a file, and so does its table if no directory is in the way: the way to a
table is the shorter one. -/
theorem init_beside {disk : Disk} (hhome : Database.LiesAt disk database home)
    (hvalid : Name.isValid table = true) {place : Path}
    (hplace : made.filePlace? (Path.schema database table) = some place)
    (hfree : disk.at? (Path.tablePlace home table) ≠ some .directory) :
    Table.init database table disk
      = (.ok (), disk.put (Path.tablePlace home table) (.file "")) := by
  obtain ⟨before, part, folder, hpath, hsound, -, -, -, hfits, -⟩ :=
    Disk.filePlace?_eq_some hplace
  rw [Path.schema_of_isValid database hvalid] at hpath
  obtain ⟨-, hpart⟩ := List.append_inj' hpath rfl
  rw [List.cons.injEq] at hpart
  rw [← hpart.1] at hfits
  exact init_table hhome hvalid (isSound_table hvalid hsound) (fits_append (by decide) hfits) hfree

end NewSchema

/-- Making the directory for schemas makes nothing that has to do with tables. -/
theorem spares_schemas {apart : Prop} {disk made : Disk} {database : String}
    (hdatabase : Database.require disk database = .ok ())
    (hmake : Disk.makeDirectories (Path.schemas database) disk = (.ok (), made)) :
    Disk.Spares apart disk made := by
  have hspares : Disk.Spares apart disk
      (Disk.makeDirectories (Path.database database ++ ["schema"]) disk).2 :=
    Disk.spares_makeDirectories_below hdatabase (by decide)
  rw [← Path.schemas, hmake] at hspares
  exact hspares

/-- The schemas of other tables are read as before a table was made. -/
theorem IsSound.readSchema_createTable {e : Engine} (h : e.IsSound) {database table text : String}
    {made written : Disk} (htable : Name.isValid table = true)
    (hdatabase : Database.require e.disk database = .ok ())
    (hnew : hasSchema e.disk database table = false)
    (hmake : Disk.makeDirectories (Path.schemas database) e.disk = (.ok (), made))
    (hwrite : Disk.writeFile (Path.schema database table) text made = (.ok (), written))
    {other name : String} {schema : TableSchema} (hname : Name.isValid name = true)
    (hread : Engine.readSchema e.disk other name = .ok schema) :
    Engine.readSchema (Table.init database table written).2 other name = .ok schema := by
  obtain ⟨home, -, -, hnone, -, rfl⟩ :=
    schemaPlace_of_write (h.disk.folder htable) htable hdatabase hnew hmake hwrite
  have hmade : Disk.Keeps True e.disk made := (spares_schemas hdatabase hmake).keeps
  have hinit : Disk.Keeps True (made.put (Path.schemaPlace home table) (.file text))
      (Table.init database table (made.put (Path.schemaPlace home table) (.file text))).2 :=
    Table.keeps_init database table _
  exact readSchema_of_keeps hname hinit
    (readSchema_put_schema hnone hname (readSchema_of_keeps hname hmade hread))

/-- After a new schema and its table, still no directory stands where a table or an index would,
and every schema has its table. -/
theorem isApart_createTable {disk : Disk} {home place : Path} {database table text : String}
    (h : disk.IsApart) (hhome : Database.LiesAt disk database home)
    (hnone : disk.at? (Path.schemaPlace home table) = none)
    (hplace : disk.filePlace? (Path.schema database table) = some place) :
    (Table.init database table
      (disk.put (Path.schemaPlace home table) (.file text))).2.IsApart := by
  have hput : Disk.Grows Path.IsFolder (fun _ => True) disk
      (disk.put (Path.schemaPlace home table) (.file text)) :=
    Disk.grows_put_file trivial (by rw [hnone]; simp) text
  have hinit : Disk.Keeps True (disk.put (Path.schemaPlace home table) (.file text))
      (Table.init database table (disk.put (Path.schemaPlace home table) (.file text))).2 :=
    Table.keeps_init database table _
  have hfolders := IsTrans.trans _ _ _ hput (hinit.folders trivial)
  refine ⟨fun place hplace => ?_, fun home' name found hname hfound => ?_⟩
  · rcases hfolders place with hsame | ⟨hmade, -, -⟩ | ⟨-, -, text, hfile⟩
    · rw [hsame] at hplace
      exact h.folders place hplace
    · exact hmade
    · exact absurd (hplace.symm.trans hfile) (by simp)
  · have hbefore := (hinit.schema_iff hname).1 hfound
    by_cases hsame : Path.schemaPlace home' name = Path.schemaPlace home table
    · obtain ⟨rfl, rfl⟩ := Path.schemaPlace_inj hsame
      rw [init_beside (hhome.grows hput) hname hplace]
      · exact ⟨"", by simp⟩
      · intro hdirectory
        rw [Disk.at?_put] at hdirectory
        split at hdirectory
        · exact absurd hdirectory (by simp)
        · exact (h.folders _ hdirectory).1 (Path.endsIn_tablePlace home' name)
    · rw [Disk.at?_put, if_neg (by simpa using hsame)] at hbefore
      obtain ⟨rows, hrows⟩ := h.tables home' name found hname hbefore
      exact hfolders.file hrows

/-- A new table has a sound schema, which memory knows, and a file if nothing is in the way. -/
theorem IsSound.createTable {e : Engine} (h : e.IsSound) {database table definition : String}
    {columns : List Column} {permissions : Permissions} {made written : Disk}
    (htable : Name.isValid table = true)
    (hcolumns : Definition.columns definition = .ok columns)
    (hnames : ∀ column ∈ columns, Name.isValid column.name = true)
    (hdatabase : Database.require e.disk database = .ok ())
    (hnew : hasSchema e.disk database table = false)
    (hmake : Disk.makeDirectories (Path.schemas database) e.disk = (.ok (), made))
    (hwrite : Disk.writeFile (Path.schema database table)
      ((⟨database, table, columns, permissions⟩ : TableSchema).toJson.indented 0) made
        = (.ok (), written)) :
    IsSound { e with
      disk := (Table.init database table written).2
      schemas := e.schemas.insert (database, table)
        ⟨database, table, columns, permissions⟩ } := by
  have hlater {other name : String} {found : TableSchema} (hname : Name.isValid name = true)
      (hbefore : Engine.readSchema e.disk other name = .ok found) :
      Engine.readSchema (Table.init database table written).2 other name = .ok found :=
    h.readSchema_createTable htable hdatabase hnew hmake hwrite hname hbefore
  obtain ⟨home, hhome, hfolder, hnone, hplace, rfl⟩ :=
    schemaPlace_of_write (h.disk.folder htable) htable hdatabase hnew hmake hwrite
  obtain ⟨hsound, hdistinct⟩ := Definition.columns_isSound hcolumns
  have hschema : (⟨database, table, columns, permissions⟩ : TableSchema).IsSound :=
    ⟨hsound, hdistinct, hnames⟩
  have hread := TableSchema.ofText_indented hschema
  have hmade : Disk.Keeps (e.settings.isApart = true) e.disk made :=
    (spares_schemas hdatabase hmake).keeps
  generalize (TableSchema.toJson ⟨database, table, columns, permissions⟩).indented 0
    = text at *
  have hput : Disk.Grows Path.IsFolder (fun _ => True) made
      (made.put (Path.schemaPlace home table) (.file text)) :=
    Disk.grows_put_file trivial (by rw [hnone]; simp) text
  have hinit : Disk.Keeps (e.settings.isApart = true)
      (made.put (Path.schemaPlace home table) (.file text))
      (Table.init database table (made.put (Path.schemaPlace home table) (.file text))).2 :=
    Table.keeps_init database table _
  have hwritten := isCatalogued_put_schema (hmade.isCatalogued h.disk) hfolder hnone hread hschema rfl
  refine ⟨hinit.isCatalogued hwritten, fun hapart => ?_, fun other name found hname hkey => ?_,
    fun user transaction hactive entry hentry => ?_, ?_⟩
  · exact isApart_createTable (hmade.isApart hapart (h.apart hapart)) hhome hnone hplace
  · rw [Keyed.get?_insert] at hkey
    split at hkey
    · rename_i hsame
      have hpair := eq_of_beq hsame
      rw [Prod.mk.injEq] at hpair
      obtain ⟨rfl, rfl⟩ := hpair
      rw [← Option.some.inj hkey]
      exact readSchema_of_keeps hname hinit
        (readSchema_of_text (Disk.textAt_eq_ok.2 ⟨_, Disk.locate_put hplace text⟩) hread)
    · exact hlater hname (h.memory other name found hname hkey)
  · obtain ⟨hentrySound, found, hbefore⟩ := h.waiting user transaction hactive entry hentry
    exact ⟨hentrySound, found, hlater hentrySound.table hbefore⟩
  · obtain ⟨place, found, hlocate, hends⟩ := h.log
    obtain ⟨text₁, hlocate₁, -⟩ := hmade.grows.locate_file hlocate
    obtain ⟨text₂, hlocate₂, -⟩ := hput.locate_file hlocate₁
    obtain ⟨text₃, hlocate₃, -⟩ := hinit.grows.locate_file hlocate₂
    exact ⟨place, text₃, hlocate₃, hends⟩

/-- Every command but the definition of a table keeps the disk as it should be. -/
theorem IsSound.keeps_own {who : Identity} {command : Command} {e e' : Engine} {upkeep : Upkeep}
    (h : e.IsSound) (hnamed : command.isWellNamed = true) (hown : Own who command e e' upkeep)
    (hother : ∀ table definition, command ≠ .createTable table definition) :
    Disk.Keeps (e.settings.isApart = true) e.disk e'.disk := by
  have hsame {disk : Disk} (hdisk : disk = e.disk) :
      Disk.Keeps (e.settings.isApart = true) e.disk disk := by
    rw [hdisk]
    exact refl e.disk
  cases hown with
  | quiet hquiet | insertLater _ hquiet | updateLater _ hquiet | deleteLater _ hquiet =>
    exact hsame hquiet.disk
  | become | begin | rollback | commitNothing => exact refl e.disk
  | @commit _ transaction logged disk done failure hrole hactive hchanges hlog happly =>
    have hlogged : Disk.Keeps (e.settings.isApart = true) e.disk logged :=
      (h.spares_write hlog).keeps
    have happlied : Disk.Keeps (e.settings.isApart = true) logged disk := by
      have hsound := isSound_numbered (fun entry hentry =>
        (h.waiting who.user transaction hactive entry (List.mem_reverse.1 hentry)).1) e.log.next
      have hkeeps : Disk.Keeps (e.settings.isApart = true) logged
          (Log.Entry.performAll (Log.numbered e.log.next transaction.changes) logged).2 :=
        Log.Entry.keeps_performAll hsound logged
      rw [happly] at hkeeps
      exact hkeeps
    exact IsTrans.trans _ _ _ hlogged happlied
  | insert hdatabase hquiet hfree hschema hrow hwrite =>
    exact (Table.keeps_append _ _ (isLine_of_checkRow hrow)).after hwrite
  | @update database table assigned conditions _ e₁ schema assignments rows after changed disk
      hdatabase hquiet hfree hschema hassigned hrows hchange hwrite =>
    have hkeeps : Disk.Keeps (e.settings.isApart = true) e.disk
        (Disk.writeFile (Path.table database table) (Text.ofLines after) e.disk).2 :=
      Table.keeps_write e.disk database table fun hdisk => (isLine_update hassigned hchange
        fun row hrow => (hdisk.row hrows row hrow).1).1
    rw [hwrite] at hkeeps
    exact hkeeps
  | @delete database table conditions _ e₁ schema rows disk hdatabase hquiet hfree hschema hrows
      hwrite =>
    have hkeeps : Disk.Keeps (e.settings.isApart = true) e.disk
        (Disk.writeFile (Path.table database table)
          (Text.ofLines (schema.delete conditions rows).1) e.disk).2 := by
      refine Table.keeps_write e.disk database table fun hdisk row hrow => ?_
      rw [TableSchema.delete_eq] at hrow
      exact (hdisk.row hrows row (List.mem_filter.1 hrow).1).1
    rw [hwrite] at hkeeps
    exact hkeeps
  | createNothing | createTable => exact absurd rfl (hother _ _)
  | createIndex => exact Disk.keeps_of_indexes (Index.grows_build _ _ _ _ _ e.disk)
  | createView => exact (View.spares_save _ _ _ e.disk).keeps
  | @createTrigger database definition _ e₁ created hdatabase hquiet =>
    rw [Command.isWellNamed, Bool.and_eq_true] at hnamed
    exact (Trigger.spares_save database { definition, created } hnamed.1 hnamed.2 e.disk).keeps

/-- Every command keeps what holds. -/
theorem IsSound.own {who : Identity} {command : Command} {e e' : Engine} {upkeep : Upkeep}
    (h : e.IsSound) (hnamed : command.isWellNamed = true) (hown : Own who command e e' upkeep) :
    e'.IsSound := by
  have hkeeps := h.keeps_own hnamed hown
  cases hown with
  | quiet hquiet => exact h.quiet hquiet
  | become role =>
    exact h.step rfl (refl e.disk) rfl (fun _ _ hkey => .inl hkey) h.waiting
  | begin id hfree =>
    refine h.step rfl (refl e.disk) rfl (fun _ _ hkey => .inl hkey) ?_
    intro user transaction hfound entry hentry
    rw [Keyed.get?_insert] at hfound
    split at hfound
    · rw [← Option.some.inj hfound] at hentry
      exact absurd hentry (by simp)
    · exact h.waiting user transaction hfound entry hentry
  | rollback => exact h.endTransaction who.user
  | commitNothing => exact h.endTransaction who.user
  | commit =>
    exact h.step rfl (hkeeps (by simp)) rfl (fun _ _ hkey => .inl hkey)
      (h.endTransaction who.user).waiting
  | insert _ hquiet | update _ hquiet | delete _ hquiet | createIndex _ hquiet
  | createTrigger _ _ hquiet => exact h.onDisk hquiet (hkeeps (by simp))
  | insertLater hdatabase hquiet hactive hschema hrow =>
    refine h.waitingMore hactive (fun entry hentry => ?_) hquiet
    rw [List.mem_singleton.1 hentry]
    exact ⟨⟨hnamed, isLine_of_checkRow hrow⟩, _, h.readSchema hnamed hschema⟩
  | updateLater hdatabase hquiet hactive hschema hassigned hrows hchange =>
    refine h.waitingMore hactive (fun entry hentry => ?_) hquiet
    obtain ⟨pair, hpair, rfl⟩ := List.mem_map.1 hentry
    exact ⟨⟨hnamed, (isLine_update hassigned hchange fun row hrow =>
      (h.disk.row hrows row hrow).1).2 pair hpair⟩, _, h.readSchema hnamed hschema⟩
  | deleteLater hdatabase hquiet hactive hschema hrows =>
    refine h.waitingMore hactive (fun entry hentry => ?_) hquiet
    obtain ⟨row, -, rfl⟩ := List.mem_map.1 hentry
    exact ⟨⟨hnamed, by simp [pendingEntry, Text.IsLine]⟩, _, h.readSchema hnamed hschema⟩
  | createNothing hdatabase =>
    exact h.onDisk (refl e) (Disk.spares_makeDirectories_below hdatabase (by decide)).keeps
  | createTable hrole hcolumns hnames hdatabase hnew hmake hwrite =>
    exact h.createTable hnamed hcolumns hnames hdatabase hnew hmake hwrite
  | createView => exact h.onDisk (refl e) (hkeeps (by simp))

/-- A schema that can be read stays as it is. -/
theorem IsSound.readSchema_own {who : Identity} {command : Command} {e e' : Engine}
    {upkeep : Upkeep} (h : e.IsSound) (hnamed : command.isWellNamed = true)
    (hown : Own who command e e' upkeep) {database name : String} {schema : TableSchema}
    (hname : Name.isValid name = true)
    (hread : Engine.readSchema e.disk database name = .ok schema) :
    Engine.readSchema e'.disk database name = .ok schema := by
  have hkeeps := h.keeps_own hnamed hown
  cases hown with
  | quiet hquiet =>
    rw [hquiet.disk]
    exact hread
  | createNothing hdatabase =>
    exact readSchema_of_keeps hname
      (@Disk.spares_makeDirectories_below True _ _ _ hdatabase (by decide)).keeps hread
  | createTable hrole hcolumns hnames hdatabase hnew hmake hwrite =>
    exact h.readSchema_createTable hnamed hdatabase hnew hmake hwrite hname hread
  | _ => exact readSchema_of_keeps hname (hkeeps (by simp)) hread

theorem IsSound.upkeep {e : Engine} (h : e.IsSound) (upkeep : Upkeep) :
    IsSound (upkeep.step e).2 := by
  rcases upkeep_cases upkeep e with hmaintains | ⟨-, jobs, hjobs⟩
  · exact h.maintains hmaintains
  · rw [hjobs]
    exact h.step rfl (refl e.disk) rfl (fun _ _ hkey => .inl hkey) h.waiting

theorem isSound_of_openOn {settings : Settings} {clock : Nat} {disk : Disk} {e : Engine}
    (hdisk : disk.IsCatalogued) (hapart : settings.isApart = true → disk.IsApart)
    (h : openOn settings clock disk = .ok e) : e.IsSound := by
  obtain ⟨log, after, hlog, rfl⟩ := openOn_eq_ok h
  obtain ⟨-, hfile, hspares⟩ := Log.openAt_eq_ok hlog
  exact ⟨hspares.keeps.isCatalogued hdisk, fun h => hspares.keeps.isApart h (hapart h),
    fun _ _ _ _ hkey => absurd hkey (by simp), fun _ _ hfound => absurd hfound (by simp), hfile⟩

theorem Trace.isSound {first e : Engine} {executions : List Execution}
    (h : Trace first executions e) (hfirst : first.IsSound) : e.IsSound := by
  induction h with
  | start => exact hfirst
  | command h hnamed hown hafter ih => exact (ih.own hnamed hown).upkeep _
  | createDatabase h name ih => exact ih.onDisk (refl _) (Database.spares_create name _).keeps
  | reopen h hopened ih => exact isSound_of_openOn ih.disk ih.apart hopened
  | pass h nanoseconds ih =>
    exact ih.step rfl (refl _) rfl (fun _ _ hkey => .inl hkey) ih.waiting
  | maintain h hbackground hmaintains ih => exact ih.maintains hmaintains
  | queue h hbackground jobs ih =>
    exact ih.step rfl (refl _) rfl (fun _ _ hkey => .inl hkey) ih.waiting

/-- Every execution comes somewhere in a trace, and what holds in every trace held before it. -/
theorem Trace.before {first e : Engine} {executions : List Execution}
    (h : Trace first executions e) {x : Execution} (hx : x ∈ executions) :
    ∃ earlier later, executions = earlier ++ x :: later ∧ Trace first earlier x.before := by
  induction h with
  | start => exact absurd hx (by simp)
  | @command executions e e₁ who command upkeep h hnamed hown hafter ih =>
    rw [List.mem_append, List.mem_singleton] at hx
    rcases hx with hx | rfl
    · obtain ⟨earlier, later, rfl, hbefore⟩ := ih hx
      exact ⟨earlier, later ++ [⟨who, command, e⟩], by simp, hbefore⟩
    · exact ⟨executions, [], rfl, h⟩
  | createDatabase h name ih => exact ih hx
  | reopen h hopened ih => exact ih hx
  | pass h nanoseconds ih => exact ih hx
  | maintain h hbackground hmaintains ih => exact ih hx
  | queue h hbackground jobs ih => exact ih hx

end Engine

namespace Run

theorem isSound_first (run : Run) : run.first.IsSound :=
  Engine.isSound_of_openOn ⟨fun _ _ hfile => absurd hfile (by simp),
    fun _ _ _ _ hfile => absurd hfile (by simp)⟩
    (fun _ => ⟨fun _ hfile => absurd hfile (by simp), fun _ _ _ _ hfile => absurd hfile (by simp)⟩)
    run.opened

theorem isSound_last (run : Run) : run.last.IsSound :=
  run.trace.isSound run.isSound_first

theorem settings_first (run : Run) : run.first.settings = run.settings := by
  obtain ⟨log, after, -, hfirst⟩ := Engine.openOn_eq_ok run.opened
  rw [hfirst]

theorem settings_last (run : Run) : run.last.settings = run.settings :=
  run.trace.settings_eq.trans run.settings_first

end Run

end FlatFileDb
