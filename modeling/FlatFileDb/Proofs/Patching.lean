import FlatFileDb.Proofs.Posting
import FlatFileDb.Proofs.Stored

/-!
# Index files

Whatever has the name of an index is one: its file holds a proper index on a column of a table that has
a schema. Patches that come to a table through the directory of its database change what every one of
its indexes lists as `Patch.effects` says, and no other file. That takes room in the way for the name of
an index file; a way that is too long leads to none of them.
-/

namespace FlatFileDb

/-! ### Names of index files -/

theorem Text.beforeEnd?_eq_some {ending s rest : List Char} :
    beforeEnd? ending s = some rest ↔ s = rest ++ ending := by
  rw [beforeEnd?, Option.map_eq_some_iff]
  constructor
  · rintro ⟨found, hfound, rfl⟩
    rw [← List.reverse_reverse s, afterStart?_eq_some.1 hfound, List.reverse_append,
      List.reverse_reverse]
  · rintro rfl
    exact ⟨rest.reverse, afterStart?_eq_some.2 List.reverse_append, List.reverse_reverse rest⟩

namespace Index

/-- The name of the file of an index. -/
def fileName (table column : String) (kind : IndexKind) : String :=
  table ++ "." ++ column ++ "." ++ kind.extension

theorem isPlain_fileName (table column : String) (kind : IndexKind) :
    Path.IsPlain (fileName table column kind) := by
  refine Path.isPlain_of_length ?_
  rw [fileName, String.toList_append, List.length_append, String.toList_append, List.length_append]
  cases kind <;> simp [IndexKind.extension]

theorem columnOf?_eq_some {table column file : String} {kind : IndexKind} :
    columnOf? table kind file = some column ↔
      file = fileName table column kind ∧ column.toList ≠ [] ∧ '.' ∉ column.toList := by
  have hname (part : List Char) : file = fileName table (String.ofList part) kind ↔
      file.toList = (table ++ ".").toList ++ (part ++ ("." ++ kind.extension).toList) := by
    rw [← String.toList_inj]
    simp [fileName]
  simp only [columnOf?, Option.bind_eq_bind, Option.bind_eq_some_iff, Text.afterStart?_eq_some,
    Text.beforeEnd?_eq_some]
  constructor
  · rintro ⟨rest, hfile, part, rfl, hpart⟩
    split at hpart
    · exact absurd hpart (by simp)
    · rename_i hchecks
      obtain rfl := Option.some.inj hpart
      rw [hname, String.toList_ofList]
      simpa [hfile] using hchecks
  · rintro ⟨hfile, hfull, hpoint⟩
    rw [← String.ofList_toList (s := column), hname] at hfile
    refine ⟨_, hfile, column.toList, rfl, ?_⟩
    rw [if_neg (by simpa [hfull] using hpoint), String.ofList_toList]

/-! ### One index -/

/-- Changes the index of a column, if there is a change for it. -/
def patchColumn (database table : String) (kind : IndexKind)
    (change : String → Option (IndexData → Option IndexData)) (column : String) : Action Disk Unit :=
  match change column with
  | some change => patchOne database table column kind change
  | none => pure ()

variable {disk : Disk} {place : Path} {database table column text : String} {kind : IndexKind}
  {data : IndexData}

theorem load_of_locate
    (hplace : disk.locate (path database table column kind) = .ok (place, .file text))
    (hread : (Json.ofText? text).bind IndexData.ofJson? = some data) :
    load disk database table column kind = .ok data := by
  unfold load
  rw [Disk.textOr_eq_ok.2 (Disk.textAt_eq_ok.2 ⟨place, hplace⟩)]
  dsimp only [bind, Except.bind]
  rw [hread]
  rfl

/-- Patching one index writes its file anew, if it changes at all. -/
theorem patchColumn_of_locate
    (hplace : disk.locate (path database table column kind) = .ok (place, .file text))
    (hread : (Json.ofText? text).bind IndexData.ofJson? = some data)
    (change : String → Option (IndexData → Option IndexData)) :
    patchColumn database table kind change column disk
      = (.ok (), match (change column).bind fun change => change data with
        | some data' => disk.put place (.file data'.toJson.compact)
        | none => disk) := by
  unfold patchColumn
  cases change column with
  | none => rfl
  | some change =>
    dsimp only [Option.bind_some]
    unfold patchOne
    rw [Action.get_bind, load_of_locate hplace hread]
    dsimp only
    cases change data with
    | none => rfl
    | some data' => exact Disk.writeFile_of_place (Disk.filePlace?_of_file hplace) _

end Index

/-! ### Directories -/

namespace Disk

variable {disk disk' : Disk} {home place : Path} {database table column name : String}
  {kind : IndexKind}

/-- The names of what lies in the directory at a place. -/
def namesBelow (disk : Disk) (place : Path) : List String :=
  disk.entries.keys.filterMap fun (depth, other) =>
    if depth == place.length + 1 && other.dropLast == place then other.getLast? else none

theorem mem_namesBelow : name ∈ disk.namesBelow home ↔ ∃ entry, disk.at? (home ++ [name]) = some entry := by
  rw [namesBelow, List.mem_filterMap]
  constructor
  · rintro ⟨⟨depth, other⟩, hkey, hname⟩
    dsimp only at hname
    split at hname
    · rename_i hplace
      rw [Bool.and_eq_true, beq_iff_eq, beq_iff_eq] at hplace
      obtain ⟨front, rfl⟩ := List.getLast?_eq_some_iff.1 hname
      rw [List.dropLast_concat] at hplace
      obtain ⟨rfl, rfl⟩ := hplace
      have hdepth : front.length + 1 = (front ++ [name]).length := by simp
      rw [hdepth] at hkey
      exact Keyed.exists_of_mem_keys hkey
    · exact absurd hname (by simp)
  · rintro ⟨entry, hentry⟩
    refine ⟨((home ++ [name]).length, home ++ [name]), Keyed.mem_keys_of_get? hentry, ?_⟩
    simp

theorem namesIn_eq {path : Path} (hpath : disk.locate path = .ok (home, .directory)) :
    disk.namesIn path = sortTexts (disk.namesBelow home) := by
  rw [namesIn, hpath]
  rfl

theorem mem_namesIn {path : Path} (hpath : disk.locate path = .ok (home, .directory)) :
    name ∈ disk.namesIn path ↔ ∃ entry, disk.at? (home ++ [name]) = some entry := by
  rw [namesIn_eq hpath, mem_sortTexts, mem_namesBelow]

end Disk

namespace Path

theorem IsIndex.ne_tablePlace {place : Path} (h : IsIndex place) (home : Path) (table : String) :
    place ≠ tablePlace home table := by
  rintro rfl
  obtain ⟨kind, hkind⟩ := h
  exact (endsIn_tablePlace home table).not (by cases kind <;> decide) hkind

theorem IsIndex.ne_schemaPlace {place : Path} (h : IsIndex place) (home : Path) (table : String) :
    place ≠ schemaPlace home table := by
  rintro rfl
  obtain ⟨kind, hkind⟩ := h
  exact (endsIn_schemaPlace home table).not (by cases kind <;> decide) hkind

end Path

/-! ### Index files -/

/-- Whether the way of a database leaves room for every name in its directory. -/
def Database.hasRoom (database : String) : Bool :=
  (Path.database database).size ≤ 3840

namespace Disk

/-- The index in the file at a place. -/
def indexAt? (disk : Disk) (place : Path) : Option IndexData :=
  (disk.fileAt? place).bind fun text => (Json.ofText? text).bind IndexData.ofJson?

/-- What the index at a place lists. -/
def listedAt? (disk : Disk) (place : Path) : Option (Set (String × String)) :=
  (disk.indexAt? place).map IndexData.listed

/-- The position of a column in the table in a directory of a database. -/
def positionAt? (disk : Disk) (home : Path) (table column : String) : Option Nat :=
  (disk.schemaAt? home table).bind fun schema => schema.columnIndex? column

/-- The file of a proper index on a column that the table has. -/
structure IsIndexFile (disk : Disk) (home : Path) (table column : String) (kind : IndexKind)
    (data : IndexData) : Prop where
  validTable : Name.isValid table = true
  validColumn : Name.isValid column = true
  fits : Path.fits (Index.fileName table column kind) = true
  proper : data.IsProper
  entry : disk.at? (Path.indexPlace home table column kind) = some (.file data.toJson.compact)
  indexed : ∃ position, disk.positionAt? home table column = some position

/-- Whatever has the name of an index is one. -/
def HasIndexes (disk : Disk) : Prop :=
  ∀ place entry, Path.IsIndex place → disk.at? place = some entry →
    ∃ home table column kind data, place = Path.indexPlace home table column kind ∧
      disk.IsIndexFile home table column kind data

variable {disk disk' : Disk} {home : Path} {database table column : String} {kind : IndexKind}
  {data : IndexData}

theorem hasIndexes_empty : HasIndexes empty :=
  fun _ _ _ h => absurd h (by simp)

/-- An index at the place of one on a column is on that column. -/
theorem HasIndexes.file (h : disk.HasIndexes) (htable : Name.isValid table = true)
    (hcolumn : '.' ∉ column.toList) {entry : DiskEntry}
    (hentry : disk.at? (Path.indexPlace home table column kind) = some entry) :
    ∃ data, disk.IsIndexFile home table column kind data := by
  obtain ⟨home', table', column', kind', data, hplace, hfile⟩ :=
    h _ entry (Path.isIndex_indexPlace home table column kind) hentry
  obtain ⟨rfl, rfl, hrest⟩ := Path.table_of_indexPlace htable hfile.validTable hplace
  obtain ⟨hcolumns, hkinds⟩ :=
    Text.eq_of_point hcolumn (Name.not_mem hfile.validColumn (by decide)) hrest
  obtain rfl := String.toList_inj.1 hcolumns
  obtain rfl : kind = kind' := by
    revert hkinds
    cases kind <;> cases kind' <;> decide
  exact ⟨data, hfile⟩

theorem IsIndexFile.indexAt? (h : disk.IsIndexFile home table column kind data) :
    disk.indexAt? (Path.indexPlace home table column kind) = some data := by
  rw [Disk.indexAt?, fileAt?_eq_some.2 h.entry]
  exact IndexData.ofText_compact h.proper

theorem IsIndexFile.listedAt? (h : disk.IsIndexFile home table column kind data) :
    disk.listedAt? (Path.indexPlace home table column kind) = some data.listed := by
  rw [Disk.listedAt?, h.indexAt?]
  rfl

theorem listedAt?_congr {place : Path} (h : disk'.at? place = disk.at? place) :
    disk'.listedAt? place = disk.listedAt? place := by
  rw [Disk.listedAt?, Disk.listedAt?, Disk.indexAt?, Disk.indexAt?, fileAt?, fileAt?, h]

/-- What is listed is listed in the file of an index. -/
theorem HasIndexes.exists_of_listedAt? (h : disk.HasIndexes) (htable : Name.isValid table = true)
    (hcolumn : Name.isValid column = true) {listed : Set (String × String)}
    (hlisted : disk.listedAt? (Path.indexPlace home table column kind) = some listed) :
    ∃ data, disk.IsIndexFile home table column kind data ∧ data.listed = listed := by
  obtain ⟨data, hdata, rfl⟩ := Option.map_eq_some_iff.1 hlisted
  obtain ⟨text, htext, -⟩ := Option.bind_eq_some_iff.1 hdata
  obtain ⟨data', hfile⟩ :=
    h.file htable (Name.not_mem hcolumn (by decide)) (fileAt?_eq_some.1 htext)
  obtain rfl := Option.some.inj (hfile.indexAt?.symm.trans hdata)
  exact ⟨data', hfile, rfl⟩

/-! ### Leaving indexes alone -/

/-- No index is made or changed, and every schema stays. -/
structure SparesIndexes (disk disk' : Disk) : Prop where
  indexes : ∀ place, Path.IsIndex place → disk'.at? place = disk.at? place
  schemas : ∀ home name schema, Name.isValid name = true → disk.schemaAt? home name = some schema →
    disk'.schemaAt? home name = some schema

instance : IsPreorder Disk SparesIndexes where
  refl _ := ⟨fun _ _ => rfl, fun _ _ _ _ h => h⟩
  trans _ _ _ h h' := ⟨fun place hplace => (h'.indexes place hplace).trans (h.indexes place hplace),
    fun home name schema hname hschema =>
      h'.schemas home name schema hname (h.schemas home name schema hname hschema)⟩

theorem SparesIndexes.positionAt? (h : SparesIndexes disk disk') (htable : Name.isValid table = true)
    {position : Nat} (hposition : disk.positionAt? home table column = some position) :
    disk'.positionAt? home table column = some position := by
  obtain ⟨schema, hschema, hcolumn⟩ := Option.bind_eq_some_iff.1 hposition
  rw [Disk.positionAt?, h.schemas home table schema htable hschema]
  exact hcolumn

theorem SparesIndexes.hasIndexes (h : SparesIndexes disk disk') (hdisk : disk.HasIndexes) :
    disk'.HasIndexes := by
  intro place entry hplace hentry
  rw [h.indexes place hplace] at hentry
  obtain ⟨home, table, column, kind, data, rfl, hfile⟩ := hdisk place entry hplace hentry
  obtain ⟨position, hposition⟩ := hfile.indexed
  refine ⟨home, table, column, kind, data, rfl, { hfile with entry := ?_, indexed := ?_ }⟩
  · rw [h.indexes _ hplace]
    exact hfile.entry
  · exact ⟨position, h.positionAt? hfile.validTable hposition⟩

/-! ### Ways to index files -/

theorem isSound_of_hasRoom (hhome : Database.LiesAt disk database home)
    (hroom : Database.hasRoom database = true) {name : String} (hnull : Char.ofNat 0 ∉ name.toList)
    (hfits : Path.fits name = true) : (Path.database database ++ [name]).isSound = true := by
  have hsound := Path.isSound_iff.1 (locate_eq_ok hhome).1
  rw [Path.isSound_iff, Path.size_append]
  constructor
  · intro part hpart
    rw [List.mem_append, List.mem_singleton] at hpart
    rcases hpart with hpart | rfl
    · exact hsound.1 part hpart
    · exact hnull
  · have hone : Path.size [name] = name.utf8ByteSize + 1 := by simp [Path.size]
    simp only [Database.hasRoom, decide_eq_true_eq] at hroom
    simp only [Path.fits, decide_eq_true_eq] at hfits
    omega

theorem locate_index (hhome : Database.LiesAt disk database home)
    (hroom : Database.hasRoom database = true) (htable : Name.isValid table = true)
    (hcolumn : Name.isValid column = true)
    (hfits : Path.fits (Index.fileName table column kind) = true) :
    disk.locate (Index.path database table column kind)
      = match disk.at? (Path.indexPlace home table column kind) with
        | none => .error .missing
        | some entry => .ok (Path.indexPlace home table column kind, entry) := by
  have hnull : Char.ofNat 0 ∉ (Index.fileName table column kind).toList := by
    simp only [Index.fileName, String.toList_append, List.mem_append, not_or]
    refine ⟨⟨⟨⟨Name.not_mem htable (by decide), by decide⟩, Name.not_mem hcolumn (by decide)⟩,
      by decide⟩, ?_⟩
    cases kind <;> decide
  rw [Index.path_of_isValid database htable hcolumn]
  exact locate_append (isSound_of_hasRoom hhome hroom hnull hfits)
    (Index.isPlain_fileName table column kind) hfits hhome

namespace IsIndexFile

variable (h : disk.IsIndexFile home table column kind data)
  (hhome : Database.LiesAt disk database home) (hroom : Database.hasRoom database = true)

include h hhome hroom

theorem locate : disk.locate (Index.path database table column kind)
    = .ok (Path.indexPlace home table column kind, .file data.toJson.compact) := by
  rw [locate_index hhome hroom h.validTable h.validColumn h.fits, h.entry]

theorem load : Index.load disk database table column kind = .ok data :=
  Index.load_of_locate (h.locate hhome hroom) (IndexData.ofText_compact h.proper)

end IsIndexFile

/-! ### Files listed anew -/

/-- Only index files are written anew; what each of them lists changes by `effect`. -/
structure Refiles
    (effect : Path → String → String → IndexKind → Set (String × String) → Set (String × String))
    (disk disk' : Disk) : Prop where
  rewrites : Rewrites Path.IsIndex disk disk'
  indexes : disk'.HasIndexes
  listed : ∀ home table column kind, Name.isValid table = true → Name.isValid column = true →
    disk'.listedAt? (Path.indexPlace home table column kind)
      = (disk.listedAt? (Path.indexPlace home table column kind)).map (effect home table column kind)

variable {effect effect' : Path → String → String → IndexKind → Set (String × String) →
  Set (String × String)}

theorem refiles_refl (h : disk.HasIndexes) : Refiles (fun _ _ _ _ listed => listed) disk disk where
  rewrites := refl disk
  indexes := h
  listed home table column kind _ _ :=
    (Option.map_id' (x := disk.listedAt? (Path.indexPlace home table column kind))).symm

theorem Refiles.trans {disk'' : Disk} (h : Refiles effect disk disk')
    (h' : Refiles effect' disk' disk'') :
    Refiles (fun home table column kind listed =>
      effect' home table column kind (effect home table column kind listed)) disk disk'' where
  rewrites := IsTrans.trans _ _ _ h.rewrites h'.rewrites
  indexes := h'.indexes
  listed home table column kind htable hcolumn := by
    rw [h'.listed home table column kind htable hcolumn, h.listed home table column kind htable hcolumn,
      Option.map_map]
    rfl

/-- It only matters what the effect makes of what is listed. -/
theorem Refiles.congr (h : Refiles effect disk disk')
    (hsame : ∀ home table column kind listed, Name.isValid table = true → Name.isValid column = true →
      disk.listedAt? (Path.indexPlace home table column kind) = some listed →
        effect' home table column kind listed = effect home table column kind listed) :
    Refiles effect' disk disk' where
  rewrites := h.rewrites
  indexes := h.indexes
  listed home table column kind htable hcolumn := by
    rw [h.listed home table column kind htable hcolumn]
    cases hlisted : disk.listedAt? (Path.indexPlace home table column kind) with
    | none => rfl
    | some listed => exact congrArg some (hsame _ _ _ _ _ htable hcolumn hlisted).symm

/-- Steps taken one after the other change what is listed one after the other. -/
theorem refiles_forM {α : Type} {items : List α} {step : α → Action Disk Unit}
    {effectOf : α → Path → String → String → IndexKind → Set (String × String) →
      Set (String × String)}
    (hdisk : disk.HasIndexes)
    (hstep : ∀ a ∈ items, ∀ before : Disk, Rewrites Path.IsIndex disk before → before.HasIndexes →
      ∃ after, step a before = (.ok (), after) ∧ Refiles (effectOf a) before after) :
    ∃ last, items.forM step disk = (.ok (), last) ∧
      Refiles (fun home table column kind listed =>
        items.foldl (fun listed a => effectOf a home table column kind listed) listed) disk last := by
  induction items generalizing disk with
  | nil => exact ⟨disk, rfl, refiles_refl hdisk⟩
  | cons first rest ih =>
    obtain ⟨hfirst, hrest⟩ := List.forall_mem_cons.1 hstep
    obtain ⟨next, hnext, hone⟩ := hfirst disk (refl disk) hdisk
    obtain ⟨last, hlast, hothers⟩ := ih hone.indexes fun a ha before hbefore =>
      hrest a ha before (IsTrans.trans _ _ _ hone.rewrites hbefore)
    exact ⟨last, (Action.forM_cons_of_ok hnext rest).trans hlast, hone.trans hothers⟩

theorem schemaAt?_of_rewrites (h : Rewrites Path.IsIndex disk disk') (home : Path) (table : String) :
    disk'.schemaAt? home table = disk.schemaAt? home table := by
  rw [schemaAt?, schemaAt?, fileAt?, fileAt?, h.at?_eq fun hno => hno.ne_schemaPlace home table rfl]

theorem rowsAt?_of_rewrites (h : Rewrites Path.IsIndex disk disk') (home : Path) (table : String) :
    disk'.rowsAt? home table = disk.rowsAt? home table := by
  rw [rowsAt?, rowsAt?, fileAt?, fileAt?, h.at?_eq fun hno => hno.ne_tablePlace home table rfl]

theorem positionAt?_of_rewrites (h : Rewrites Path.IsIndex disk disk') (home : Path)
    (table column : String) : disk'.positionAt? home table column = disk.positionAt? home table column := by
  rw [positionAt?, positionAt?, schemaAt?_of_rewrites h]

theorem positionAt?_put_index {place : Path} (hplace : Path.IsIndex place) (entry : DiskEntry)
    (home : Path) (table column : String) :
    (disk.put place entry).positionAt? home table column = disk.positionAt? home table column := by
  rw [positionAt?, positionAt?, schemaAt?, schemaAt?, fileAt?, fileAt?, at?_put,
    if_neg (by simpa using (hplace.ne_schemaPlace home table).symm)]

/-- An index file is written, new or not. -/
theorem HasIndexes.put (hdisk : disk.HasIndexes) {entry : DiskEntry}
    (hfile : (disk.put (Path.indexPlace home table column kind) entry).IsIndexFile home table column
      kind data) : (disk.put (Path.indexPlace home table column kind) entry).HasIndexes := by
  intro place found hplace hfound
  by_cases hsame : place = Path.indexPlace home table column kind
  · exact ⟨home, table, column, kind, data, hsame, hfile⟩
  · rw [at?_put, if_neg (by simpa using hsame)] at hfound
    obtain ⟨home', table', column', kind', other, rfl, hother⟩ := hdisk place found hplace hfound
    refine ⟨home', table', column', kind', other, rfl, { hother with entry := ?_, indexed := ?_ }⟩
    · rw [at?_put, if_neg (by simpa using hsame)]
      exact hother.entry
    · rw [positionAt?_put_index (Path.isIndex_indexPlace home table column kind)]
      exact hother.indexed

/-- One index is written anew. -/
theorem IsIndexFile.refiles_put (h : disk.IsIndexFile home table column kind data)
    (hdisk : disk.HasIndexes) {data' : IndexData} (hproper : data'.IsProper)
    {f : Set (String × String) → Set (String × String)} (hlisted : data'.listed = f data.listed) :
    Refiles (fun home' table' column' kind' listed =>
        if home' = home ∧ table' = table ∧ column' = column ∧ kind' = kind then f listed else listed)
      disk
      (disk.put (Path.indexPlace home table column kind) (.file data'.toJson.compact)) := by
  have hfile : (disk.put (Path.indexPlace home table column kind)
      (.file data'.toJson.compact)).IsIndexFile home table column kind data' :=
    { h with
      proper := hproper
      entry := by simp
      indexed := by
        rw [positionAt?_put_index (Path.isIndex_indexPlace home table column kind)]
        exact h.indexed }
  refine ⟨rewrites_put (Path.isIndex_indexPlace home table column kind) h.entry _, hdisk.put hfile,
    fun home' table' column' kind' htable hcolumn => ?_⟩
  by_cases hsame : Path.indexPlace home' table' column' kind'
      = Path.indexPlace home table column kind
  · obtain ⟨rfl, rfl, rfl, rfl⟩ :=
      Path.indexPlace_inj htable h.validTable hcolumn h.validColumn hsame
    rw [hfile.listedAt?, h.listedAt?, hlisted]
    simp
  · have hother : ¬(home' = home ∧ table' = table ∧ column' = column ∧ kind' = kind) := by
      rintro ⟨rfl, rfl, rfl, rfl⟩
      exact hsame rfl
    simp only [if_neg hother, Option.map_id']
    exact listedAt?_congr (by rw [at?_put, if_neg (by simpa using hsame)])

end Disk

/-! ### Patching -/

namespace Index

/-- A change of proper indexes, if there is one, does to what they list what `f` says. -/
def Makes (change : Option (IndexData → Option IndexData))
    (f : Set (String × String) → Set (String × String)) : Prop :=
  ∀ data : IndexData, data.IsProper →
    match change.bind fun change => change data with
    | some data' => data'.IsProper ∧ data'.listed = f data.listed
    | none => f data.listed = data.listed

variable {disk : Disk} {home : Path} {database table column : String} {kind : IndexKind}

theorem mem_columns (hhome : Database.LiesAt disk database home) (hcolumn : column.toList ≠ [])
    (hpoint : '.' ∉ column.toList) :
    column ∈ columns disk database table kind ↔
      ∃ entry, disk.at? (Path.indexPlace home table column kind) = some entry := by
  rw [columns, mem_sortTexts, List.mem_filterMap]
  simp only [columnOf?_eq_some, Disk.mem_namesIn hhome]
  constructor
  · rintro ⟨file, hentry, rfl, -⟩
    exact hentry
  · exact fun hentry => ⟨fileName table column kind, hentry, rfl, hcolumn, hpoint⟩

theorem of_mem_columns (h : column ∈ columns disk database table kind) :
    column.toList ≠ [] ∧ '.' ∉ column.toList := by
  rw [columns, mem_sortTexts, List.mem_filterMap] at h
  obtain ⟨file, -, hcolumn⟩ := h
  exact (columnOf?_eq_some.1 hcolumn).2

variable (hhome : Database.LiesAt disk database home) (hroom : Database.hasRoom database = true)
  (htable : Name.isValid table = true)

include hhome hroom htable

omit htable in
/-- The index of one column is patched. -/
theorem refiles_column {change : String → Option (IndexData → Option IndexData)}
    {f : Set (String × String) → Set (String × String)} (hmakes : Makes (change column) f)
    (hdisk : disk.HasIndexes) {data : IndexData}
    (hfile : disk.IsIndexFile home table column kind data) :
    ∃ disk', patchColumn database table kind change column disk = (.ok (), disk') ∧
      Disk.Refiles (fun home' table' column' kind' listed =>
        if home' = home ∧ table' = table ∧ column' = column ∧ kind' = kind then f listed else listed)
        disk disk' := by
  have hdata := hmakes data hfile.proper
  refine ⟨_, patchColumn_of_locate (hfile.locate hhome hroom) (IndexData.ofText_compact hfile.proper)
    change, ?_⟩
  cases hnew : (change column).bind fun change => change data with
  | none =>
    rw [hnew] at hdata
    refine (Disk.refiles_refl hdisk).congr fun _ _ _ _ listed _ _ hlisted => ?_
    split
    · rename_i hplace
      obtain ⟨rfl, rfl, rfl, rfl⟩ := hplace
      rw [← Option.some.inj (hfile.listedAt?.symm.trans hlisted), hdata]
    · rfl
  | some data' =>
    rw [hnew] at hdata
    exact hfile.refiles_put hdisk hdata.1 hdata.2

/-- All indexes of one kind are patched; it would not matter if one of them were patched again. -/
theorem refiles_kind {change : String → Option (IndexData → Option IndexData)}
    {f : String → Set (String × String) → Set (String × String)}
    (hmakes : ∀ column position, disk.positionAt? home table column = some position →
      Makes (change column) (f column))
    (hagain : ∀ column listed, f column (f column listed) = f column listed)
    (hdisk : disk.HasIndexes) :
    ∃ disk', (columns disk database table kind).forM (patchColumn database table kind change) disk
        = (.ok (), disk') ∧
      Disk.Refiles (fun home' table' column kind' listed =>
        if home' = home ∧ table' = table ∧ kind' = kind then f column listed else listed)
        disk disk' := by
  have hcolumns : ∀ column ∈ columns disk database table kind, ∀ before : Disk,
      Disk.Rewrites Path.IsIndex disk before → before.HasIndexes →
        ∃ after, patchColumn database table kind change column before = (.ok (), after) ∧
          Disk.Refiles (fun home' table' other kind' listed =>
            if home' = home ∧ table' = table ∧ other = column ∧ kind' = kind then f column listed
            else listed) before after := by
    intro column hcolumn before hbefore hindexes
    obtain ⟨hfull, hpoint⟩ := of_mem_columns hcolumn
    obtain ⟨entry, hentry⟩ := (mem_columns hhome hfull hpoint).1 hcolumn
    obtain ⟨entry', hentry'⟩ := hbefore.exists_at? hentry
    obtain ⟨data, hfile⟩ := hindexes.file htable hpoint hentry'
    obtain ⟨position, hposition⟩ := hfile.indexed
    rw [Disk.positionAt?_of_rewrites hbefore] at hposition
    exact refiles_column (hhome.grows hbefore.grows) hroom (hmakes column position hposition) hindexes
      hfile
  obtain ⟨disk', hrun, hrefiles⟩ := Disk.refiles_forM hdisk hcolumns
  refine ⟨disk', hrun, hrefiles.congr fun home' table' column kind' listed hvalid hcolumn hlisted => ?_⟩
  by_cases hplace : home' = home ∧ table' = table ∧ kind' = kind
  · obtain ⟨rfl, rfl, rfl⟩ := hplace
    obtain ⟨data, hfile, -⟩ := hdisk.exists_of_listedAt? hvalid hcolumn hlisted
    have hmem : column ∈ columns disk database table' kind' :=
      (mem_columns hhome (Name.toList_ne_nil hcolumn) (Name.not_mem hcolumn (by decide))).2
        ⟨_, hfile.entry⟩
    have hfold (listed : Set (String × String)) (columns : List String) :
        columns.foldl (fun listed other => if column = other then f other listed else listed) listed
          = if column ∈ columns then f column listed else listed := by
      induction columns generalizing listed with
      | nil => simp
      | cons first rest ih =>
        rw [List.foldl_cons, ih]
        by_cases hfirst : column = first
        · subst hfirst
          by_cases hrest : column ∈ rest <;> simp [hrest, hagain]
        · simp [hfirst]
    simp [hfold, hmem]
  · rw [if_neg hplace]
    refine (List.foldl_fixed' (fun other => if_neg ?_) _).symm
    rintro ⟨rfl, rfl, -, rfl⟩
    exact hplace ⟨rfl, rfl, rfl⟩

/-- Patching reaches every index of the table. -/
theorem refiles_patch {change : IndexKind → String → Option (IndexData → Option IndexData)}
    {f : IndexKind → String → Set (String × String) → Set (String × String)}
    (hmakes : ∀ kind column position, disk.positionAt? home table column = some position →
      Makes (change kind column) (f kind column))
    (hagain : ∀ kind column listed, f kind column (f kind column listed) = f kind column listed)
    (hdisk : disk.HasIndexes) :
    ∃ disk', patch database table change disk = (.ok (), disk') ∧
      Disk.Refiles (fun home' table' column kind listed =>
        if home' = home ∧ table' = table then f kind column listed else listed) disk disk' := by
  have hkinds : ∀ kind ∈ kinds, ∀ before : Disk,
      Disk.Rewrites Path.IsIndex disk before → before.HasIndexes →
        ∃ after, (do
            (columns (← Action.get) database table kind).forM
              (patchColumn database table kind (change kind)) : Action Disk Unit) before
            = (.ok (), after) ∧
          Disk.Refiles (fun home' table' column kind' listed =>
            if home' = home ∧ table' = table ∧ kind' = kind then f kind column listed else listed)
            before after := by
    refine fun kind _ before hbefore hindexes => refiles_kind (hhome.grows hbefore.grows) hroom htable
      (fun column position hposition => hmakes kind column position ?_) (hagain kind) hindexes
    rwa [Disk.positionAt?_of_rewrites hbefore] at hposition
  obtain ⟨disk', hrun, hrefiles⟩ := Disk.refiles_forM hdisk hkinds
  refine ⟨disk', hrun, hrefiles.congr fun home' table' column kind listed _ _ _ => ?_⟩
  by_cases hplace : home' = home ∧ table' = table
  · obtain ⟨rfl, rfl⟩ := hplace
    cases kind <;> simp [kinds]
  · rw [if_neg hplace]
    refine (List.foldl_fixed' (fun other => if_neg ?_) _).symm
    rintro ⟨rfl, rfl, -⟩
    exact hplace ⟨rfl, rfl⟩

end Index

/-! ### What a patch makes of an index -/

theorem TableSchema.findIdx?_fieldNames {schema : TableSchema} {column : String} {position : Nat}
    (h : schema.columnIndex? column = some position) :
    schema.fieldNames.findIdx? (fun name => name == column) = some position := by
  rw [fieldNames, List.findIdx?_map]
  exact h

namespace Patch

variable {names : List String} {column : String} {kind : IndexKind} {position : Nat}

/-- What a patch changes in the index of a column. -/
def change (names : List String) (kind : IndexKind) (column : String) :
    Patch → Option (IndexData → Option IndexData)
  | remove id => some fun data =>
    let rest := data.removeId id
    if rest.size == data.size then none else some rest
  | add row => (Index.fieldOf? names row column).map fun field data =>
    some (data.addRow kind (Row.id row) field)

/-- Makes a patch in all indexes of a table with the given columns. -/
def perform (database table : String) (names : List String) : Patch → Action Disk Unit
  | remove id => Index.removeRow database table id
  | add row => Index.addRow database table names row

theorem perform_eq (database table : String) (names : List String) (patch : Patch) :
    patch.perform database table names
      = Index.patch database table fun kind column => patch.change names kind column := by
  cases patch <;> rfl

/-- A patch changes the index of a column that has a name as it should. -/
theorem makes_change (hposition : names.findIdx? (fun name => name == column) = some position)
    (patch : Patch) :
    Index.Makes (patch.change names kind column) fun listed => patch.effect kind position listed := by
  intro data hproper
  cases patch with
  | remove id =>
    rw [change, Option.bind_some]
    by_cases hsize : (data.removeId id).size = data.size
    · simp only [hsize, beq_self_eq_true, if_true]
      exact IndexData.listed_of_size_removeId hsize
    · simp only [beq_eq_false_iff_ne.2 hsize]
      exact ⟨hproper.removeId id, IndexData.listed_removeId hproper id⟩
  | add row =>
    have hfield : Index.fieldOf? names row column = (Row.fields row)[position]? := by
      rw [Index.fieldOf?, hposition, Option.bind_some]
    rw [change, hfield]
    cases hthere : (Row.fields row)[position]? with
    | none => exact effect_add_of_none hthere
    | some field =>
      exact ⟨hproper.addRow kind (Row.id row) field,
        (IndexData.listed_addRow hproper kind (Row.id row) field).trans (effect_add hthere).symm⟩

end Patch

/-! ### Patches by table -/

/-- Patches of one table and of no other. -/
def Patch.of (home : Path) (table : String) (patches : List Patch) (home' : Path) (table' : String) :
    List Patch :=
  if home' = home ∧ table' = table then patches else []

theorem Patch.of_append (home : Path) (table : String) (patches others : List Patch) :
    Patch.of home table (patches ++ others) = fun home' table' =>
      Patch.of home table patches home' table' ++ Patch.of home table others home' table' := by
  funext home' table'
  unfold Patch.of
  split <;> rfl

theorem Patch.of_self (home : Path) (table : String) (patches : List Patch) :
    Patch.of home table patches home table = patches :=
  if_pos ⟨rfl, rfl⟩

theorem Patch.mem_of {home home' : Path} {table table' : String} {patches : List Patch} {patch : Patch}
    (h : patch ∈ Patch.of home table patches home' table') :
    home' = home ∧ table' = table ∧ patch ∈ patches := by
  unfold Patch.of at h
  split at h
  · rename_i hsame
    exact ⟨hsame.1, hsame.2, h⟩
  · exact absurd h (by simp)

namespace Disk

variable {disk disk' : Disk} {home : Path} {database table : String}
  {patches others : Path → String → List Patch}

/-- What indexes list after the patches of their tables. -/
def patched (disk : Disk) (patches : Path → String → List Patch) (home : Path)
    (table column : String) (kind : IndexKind) (listed : Set (String × String)) :
    Set (String × String) :=
  match disk.positionAt? home table column with
  | some position => Patch.effects kind position (patches home table) listed
  | none => listed

theorem patched_of_rewrites (h : Rewrites Path.IsIndex disk disk') :
    disk'.patched patches = disk.patched patches := by
  funext home table column kind listed
  rw [patched, patched, positionAt?_of_rewrites h]

/-- Patches of one table, each in a step of its own. -/
theorem refiles_forM_patches {α : Type} {items : List α} {step : α → Action Disk Unit}
    (patchOf : α → Patch) (hdisk : disk.HasIndexes)
    (hstep : ∀ a ∈ items, ∀ before : Disk, Rewrites Path.IsIndex disk before → before.HasIndexes →
      ∃ after, step a before = (.ok (), after) ∧
        Refiles (before.patched (Patch.of home table [patchOf a])) before after) :
    ∃ last, items.forM step disk = (.ok (), last) ∧
      Refiles (disk.patched (Patch.of home table (items.map patchOf))) disk last := by
  obtain ⟨last, hrun, hrefiles⟩ := refiles_forM hdisk fun a ha before hbefore hindexes =>
    patched_of_rewrites hbefore ▸ hstep a ha before hbefore hindexes
  refine ⟨last, hrun, hrefiles.congr fun home' table' column kind listed _ _ _ => ?_⟩
  unfold patched Patch.of
  cases disk.positionAt? home' table' column with
  | none => exact (List.foldl_fixed' (fun _ => rfl) _).symm
  | some position =>
    by_cases hplace : home' = home ∧ table' = table
    · simp only [if_pos hplace, Patch.effects, List.foldl_map, List.foldl_cons, List.foldl_nil]
    · simp only [if_neg hplace, Patch.effects, List.foldl_nil]
      exact (List.foldl_fixed' (fun _ => rfl) _).symm

theorem refiles_none (h : disk.HasIndexes) : Refiles (disk.patched fun _ _ => []) disk disk :=
  (refiles_refl h).congr fun home table column kind listed _ _ _ => by
    unfold patched
    split <;> rfl

/-- More patches come behind those before. -/
theorem Refiles.patch {disk'' : Disk} (h : Refiles (disk.patched patches) disk disk')
    (h' : Refiles (disk'.patched others) disk' disk'') :
    Refiles (disk.patched fun home table => patches home table ++ others home table) disk disk'' :=
  (h.trans h').congr fun home table column kind listed _ _ _ => by
    unfold patched
    rw [positionAt?_of_rewrites h.rewrites]
    split
    · exact Patch.effects_append
    · rfl

end Disk

namespace Index

variable {disk : Disk} {home : Path} {database table : String}

variable (hhome : Database.LiesAt disk database home) (hroom : Database.hasRoom database = true)
  (htable : Name.isValid table = true)

include hhome hroom htable

/-- A patch is made in every index of its table. -/
theorem refiles_perform (hdisk : disk.HasIndexes) (patch : Patch) {names : List String}
    (hnames : ∀ schema, disk.schemaAt? home table = some schema → names = schema.fieldNames) :
    ∃ disk', patch.perform database table names disk = (.ok (), disk') ∧
      Disk.Refiles (disk.patched (Patch.of home table [patch])) disk disk' := by
  have hpatched {column : String} {position : Nat}
      (hposition : disk.positionAt? home table column = some position) (kind : IndexKind) :
      disk.patched (Patch.of home table [patch]) home table column kind
        = fun listed => patch.effect kind position listed := by
    funext listed
    rw [Disk.patched, hposition, Patch.of_self]
    rfl
  have hmakes (kind : IndexKind) (column : String) (position : Nat)
      (hposition : disk.positionAt? home table column = some position) :
      Makes (patch.change names kind column)
        (disk.patched (Patch.of home table [patch]) home table column kind) := by
    obtain ⟨schema, hschema, hcolumn⟩ := Option.bind_eq_some_iff.1 hposition
    rw [hpatched hposition, hnames schema hschema]
    exact Patch.makes_change (TableSchema.findIdx?_fieldNames hcolumn) patch
  have hagain (kind : IndexKind) (column : String) (listed : Set (String × String)) :
      disk.patched (Patch.of home table [patch]) home table column kind
          (disk.patched (Patch.of home table [patch]) home table column kind listed)
        = disk.patched (Patch.of home table [patch]) home table column kind listed := by
    cases hposition : disk.positionAt? home table column with
    | none => simp only [Disk.patched, hposition]
    | some position =>
      rw [hpatched hposition]
      exact Patch.effect_again patch
  obtain ⟨disk', hrun, hrefiles⟩ := refiles_patch hhome hroom htable hmakes hagain hdisk
  rw [Patch.perform_eq]
  refine ⟨disk', hrun, hrefiles.congr fun home' table' column kind listed _ _ _ => ?_⟩
  by_cases hplace : home' = home ∧ table' = table
  · obtain ⟨rfl, rfl⟩ := hplace
    rw [if_pos ⟨rfl, rfl⟩]
  · rw [if_neg hplace, Disk.patched, Patch.of, if_neg hplace]
    split <;> rfl

theorem refiles_removeRow (hdisk : disk.HasIndexes) (id : String) :
    ∃ disk', removeRow database table id disk = (.ok (), disk') ∧
      Disk.Refiles (disk.patched (Patch.of home table [.remove id])) disk disk' :=
  @refiles_perform _ _ _ _ hhome hroom htable hdisk (.remove id)
    ((disk.schemaAt? home table).elim [] TableSchema.fieldNames) fun schema hschema => by
      rw [hschema, Option.elim_some]

theorem refiles_addRow (hdisk : disk.HasIndexes) {schema : TableSchema}
    (hschema : disk.schemaAt? home table = some schema) (row : String) :
    ∃ disk', addRow database table schema.fieldNames row disk = (.ok (), disk') ∧
      Disk.Refiles (disk.patched (Patch.of home table [.add row])) disk disk' :=
  refiles_perform hhome hroom htable hdisk (.add row) fun schema' hschema' => by
    rw [Option.some.inj (hschema.symm.trans hschema')]

end Index

/-- The patches for one change of a commit. -/
def Log.Entry.patches (entry : Log.Entry) : List Patch :=
  (if entry.operation = .insert then [] else [.remove entry.rowId])
    ++ if entry.operation = .delete then [] else [.add entry.row]

/-! ### Jobs -/

/-- A loop of steps on the disk is a loop on the disk. -/
theorem Engine.forM_onDisk {α : Type} {items : List α} {step : α → Action Disk Unit} {e : Engine}
    {disk : Disk} (h : items.forM step e.disk = (.ok (), disk)) :
    (items.forM fun a => onDisk (step a)) e = (.ok (), { e with disk }) := by
  induction items generalizing e with
  | nil =>
    obtain rfl : e.disk = disk := congrArg Prod.snd h
    rfl
  | cons first rest ih =>
    rw [List.forM_eq_forM, List.forM_cons] at h
    rcases Action.bind_cases h with ⟨failure, -, hno⟩ | ⟨⟨⟩, next, hfirst, hrest⟩
    · exact absurd hno (by simp)
    have hstep : onDisk (step first) e = (.ok (), { e with disk := next }) := by
      rw [onDisk, Action.onPart_apply, hfirst]
    rw [List.forM_eq_forM, List.forM_cons, Action.bind_of_ok hstep]
    exact ih (e := { e with disk := next }) hrest

namespace Job

variable {e : Engine} {home : Path} {database : String} {schema : TableSchema}

/-- Patching a table succeeds. -/
theorem refiles_patchTable (hhome : Database.LiesAt e.disk database home)
    (hroom : Database.hasRoom database = true) (htable : Name.isValid schema.name = true)
    (hschema : e.disk.schemaAt? home schema.name = some schema) (hdisk : e.disk.HasIndexes)
    (removed added : List String) :
    ∃ disk, patchTable database schema removed added e = (.ok (), { e with disk }) ∧
      Disk.Refiles (e.disk.patched (Patch.of home schema.name
        (removed.map (fun row => .remove (Row.id row)) ++ added.map .add))) e.disk disk := by
  have hpersists {before : Disk} (hbefore : Disk.Rewrites Path.IsIndex e.disk before) :
      Database.LiesAt before database home ∧ before.schemaAt? home schema.name = some schema :=
    ⟨hhome.grows hbefore.grows, (Disk.schemaAt?_of_rewrites hbefore home schema.name).trans hschema⟩
  obtain ⟨next, hremove, hfirst⟩ := Disk.refiles_forM_patches (fun row => .remove (Row.id row)) hdisk
    fun row (_ : row ∈ removed) before hbefore hindexes =>
      Index.refiles_removeRow (hpersists hbefore).1 hroom htable hindexes (Row.id row)
  obtain ⟨last, hadd, hsecond⟩ := Disk.refiles_forM_patches .add hfirst.indexes
    fun row (_ : row ∈ added) before hbefore hindexes => by
      obtain ⟨hhome', hschema'⟩ := hpersists (IsTrans.trans _ _ _ hfirst.rewrites hbefore)
      exact Index.refiles_addRow hhome' hroom htable hindexes hschema' row
  refine ⟨last, ?_, ?_⟩
  · unfold patchTable
    rw [Action.bind_of_ok (Engine.forM_onDisk hremove)]
    exact Engine.forM_onDisk hadd
  · rw [Patch.of_append]
    exact hfirst.patch hsecond

/-- Patching for a change of a commit succeeds. -/
theorem refiles_patchEntry (he : e.IsSound) {entry : Log.Entry}
    (hhome : Database.LiesAt e.disk entry.database home)
    (hroom : Database.hasRoom entry.database = true) (htable : Name.isValid entry.table = true)
    (hschema : Engine.readSchema e.disk entry.database entry.table = .ok schema)
    (hdisk : e.disk.HasIndexes) :
    ∃ e', patchEntry entry e = (.ok (), e') ∧
      Disk.Refiles (e.disk.patched (Patch.of home entry.table entry.patches)) e.disk e'.disk := by
  have hremove : ∃ e', Engine.onDisk (Index.removeRow entry.database entry.table entry.rowId) e
        = (.ok (), e') ∧
      Disk.Refiles (e.disk.patched (Patch.of home entry.table [.remove entry.rowId])) e.disk
        e'.disk := by
    obtain ⟨disk, hrun, hrefiles⟩ :=
      Index.refiles_removeRow hhome hroom htable hdisk entry.rowId
    exact ⟨{ e with disk }, by rw [Engine.onDisk, Action.onPart_apply, hrun], hrefiles⟩
  have hadd {e : Engine} (he : e.IsSound) (hhome : Database.LiesAt e.disk entry.database home)
      (hschema : Engine.readSchema e.disk entry.database entry.table = .ok schema)
      (hdisk : e.disk.HasIndexes) :
      ∃ e', (do
          let schema ← Engine.schema entry.database entry.table
          Engine.onDisk (Index.addRow entry.database entry.table schema.fieldNames entry.row)) e
            = (.ok (), e') ∧
        Disk.Refiles (e.disk.patched (Patch.of home entry.table [.add entry.row])) e.disk e'.disk := by
    obtain ⟨e₁, hread, hquiet⟩ := Engine.schema_apply entry.database entry.table e
    rw [he.knownSchema_of_readSchema htable hschema] at hread
    obtain ⟨disk, hrun, hrefiles⟩ := Index.refiles_addRow hhome hroom htable hdisk
      (Disk.schemaAt?_of_readSchema htable hhome hschema) entry.row
    rw [← hquiet.disk] at hrun
    exact ⟨{ e₁ with disk }, by rw [Action.bind_of_ok hread, Engine.onDisk, Action.onPart_apply, hrun],
      hrefiles⟩
  unfold patchEntry Log.Entry.patches
  cases hoperation : entry.operation with
  | insert => exact hadd he hhome hschema hdisk
  | delete =>
    obtain ⟨e₁, hrun, hrefiles⟩ := hremove
    exact ⟨e₁, Action.bind_of_ok hrun, hrefiles⟩
  | update =>
    obtain ⟨e₁, hrun, hfirst⟩ := hremove
    have hmaintains : Engine.Maintains e e₁ :=
      (Engine.maintains_onDisk (Index.rewrites_patch _ _ _)).after hrun
    obtain ⟨e₂, hrun', hsecond⟩ := hadd (he.maintains hmaintains)
      (hhome.grows hfirst.rewrites.grows)
      ((Engine.readSchema_of_rewrites hfirst.rewrites _ _ _).2 hschema) hfirst.indexes
    refine ⟨e₂, (Action.bind_of_ok hrun).trans hrun', ?_⟩
    have hpatches : Patch.of home entry.table
          ((if Operation.update = .insert then [] else [Patch.remove entry.rowId])
            ++ if Operation.update = .delete then [] else [.add entry.row])
        = fun home' table' => Patch.of home entry.table [.remove entry.rowId] home' table'
          ++ Patch.of home entry.table [.add entry.row] home' table' := Patch.of_append _ _ _ _
    rw [hpatches]
    exact hfirst.patch hsecond

end Job

end FlatFileDb
