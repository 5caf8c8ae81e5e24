import FlatFileDb.Proofs.Effect
import FlatFileDb.Proofs.Layout

/-!
# Patching indexes

Patching writes index files anew where they are and does nothing else on the disk; of the engine it
changes at most which schemas are in memory. So no schema, row or log entry is touched by it, and
`Maintains` is the frame of all patching.
-/

namespace FlatFileDb

/-- Whether a place is that of an index file. -/
def Path.IsIndex (place : Path) : Prop :=
  ∃ kind : IndexKind, EndsIn ("." ++ kind.extension) place

theorem Path.isIndex_below (path : Path) (stem : String) (kind : IndexKind) :
    IsIndex (below path (stem ++ "." ++ kind.extension)) := by
  refine ⟨kind, ?_⟩
  rw [String.append_assoc]
  refine endsIn_below path stem ?_
  cases kind <;> decide

namespace Path

/-- The place of an index file in the directory of its database. -/
def indexPlace (home : Path) (table column : String) (kind : IndexKind) : Path :=
  home ++ [table ++ "." ++ column ++ "." ++ kind.extension]

variable {home home' : Path} {table table' column column' : String} {kind kind' : IndexKind}

theorem isIndex_indexPlace (home : Path) (table column : String) (kind : IndexKind) :
    IsIndex (indexPlace home table column kind) := by
  refine ⟨kind, ?_⟩
  rw [indexPlace, String.append_assoc]
  exact endsIn_append home

theorem table_of_indexPlace (htable : Name.isValid table = true) (htable' : Name.isValid table' = true)
    (h : indexPlace home table column kind = indexPlace home' table' column' kind') :
    home = home' ∧ table = table' ∧
      column.toList ++ '.' :: kind.extension.toList
        = column'.toList ++ '.' :: kind'.extension.toList := by
  obtain ⟨hhome, hpart⟩ := List.append_inj' h rfl
  have hlists := congrArg String.toList (List.cons.inj hpart).1
  simp only [String.toList_append, List.append_assoc] at hlists
  obtain ⟨hname, hrest⟩ := Name.eq_of_point htable htable' hlists
  exact ⟨hhome, hname, hrest⟩

theorem indexPlace_inj (htable : Name.isValid table = true) (htable' : Name.isValid table' = true)
    (hcolumn : Name.isValid column = true) (hcolumn' : Name.isValid column' = true)
    (h : indexPlace home table column kind = indexPlace home' table' column' kind') :
    home = home' ∧ table = table' ∧ column = column' ∧ kind = kind' := by
  obtain ⟨hhome, hname, hrest⟩ := table_of_indexPlace htable htable' h
  obtain ⟨hcolumns, hkinds⟩ := Name.eq_of_point hcolumn hcolumn' hrest
  refine ⟨hhome, hname, hcolumns, ?_⟩
  revert hkinds
  cases kind <;> cases kind' <;> decide

end Path

theorem Index.path_of_isValid (database : String) {table column : String}
    (htable : Name.isValid table = true) (hcolumn : Name.isValid column = true) (kind : IndexKind) :
    path database table column kind
      = Path.database database ++ [table ++ "." ++ column ++ "." ++ kind.extension] := by
  refine Path.below_of_not_mem _ ?_
  simp only [String.toList_append, List.mem_append, not_or]
  refine ⟨⟨⟨⟨Name.not_mem htable (by decide), by decide⟩, Name.not_mem hcolumn (by decide)⟩,
    by decide⟩, ?_⟩
  cases kind <;> decide

/-- The file of an index lies in the directory of its database. -/
theorem Index.filePlace_of_liesAt {disk : Disk} {home place : Path} {database table column : String}
    {kind : IndexKind} (hhome : Database.LiesAt disk database home)
    (htable : Name.isValid table = true) (hcolumn : Name.isValid column = true)
    (h : disk.filePlace? (path database table column kind) = some place) :
    place = Path.indexPlace home table column kind := by
  obtain ⟨before, name, folder, hpath, -, hfolder, rfl, -⟩ := Disk.filePlace?_eq_some h
  rw [path_of_isValid database htable hcolumn] at hpath
  obtain ⟨rfl, hname⟩ := List.append_inj' hpath rfl
  obtain ⟨rfl, -⟩ := List.cons.inj hname
  obtain rfl := hhome.unique hfolder
  rfl

/-- Building an index writes its file anew from the rows, or fails and changes nothing. -/
theorem Index.build_cases (database table column : String) (position : Nat) (kind : IndexKind)
    (disk : Disk) :
    (∃ failure, build database table column position kind disk = (.error failure, disk)) ∨
      ∃ rows place keys, Table.rows disk database table = .ok rows ∧
        disk.filePlace? (path database table column kind) = some place ∧
        build database table column position kind disk = (.ok keys, disk.put place
          (.file (IndexData.build kind position rows).toJson.compact)) := by
  unfold build save
  rw [Action.read_bind]
  cases hrows : Table.rows disk database table with
  | error failure => exact .inl ⟨failure, rfl⟩
  | ok rows =>
  dsimp only
  rcases Disk.writeFile_cases (path database table column kind)
    (IndexData.build kind position rows).toJson.compact disk with hwrite | ⟨place, hplace, hwrite⟩
  · exact .inl ⟨.fileFailure, Action.bind_of_error hwrite⟩
  · exact .inr ⟨rows, place, _, rfl, hplace, Action.bind_of_ok hwrite⟩

namespace Disk

/-- Nothing changed but the texts of files that are there, at places `written`. -/
structure Rewrites (written : Path → Prop) (disk disk' : Disk) : Prop where
  keys : disk'.entries.keys = disk.entries.keys
  place : ∀ place, disk'.at? place = disk.at? place ∨
    (written place ∧ ∃ text text', disk.at? place = some (.file text) ∧
      disk'.at? place = some (.file text'))

variable {written : Path → Prop} {disk disk' : Disk}

instance : IsPreorder Disk (Rewrites written) where
  refl _ := ⟨rfl, fun _ => .inl rfl⟩
  trans first second third h h' := by
    refine ⟨h'.keys.trans h.keys, fun place => ?_⟩
    rcases h.place place with hsame | ⟨hwritten, text, text', hfirst, hsecond⟩
    · rw [← hsame]
      exact h'.place place
    · rcases h'.place place with hsame | ⟨-, -, text'', -, hthird⟩
      · exact .inr ⟨hwritten, text, text', hfirst, hsame.trans hsecond⟩
      · exact .inr ⟨hwritten, text, text'', hfirst, hthird⟩

theorem Rewrites.symm (h : Rewrites written disk disk') : Rewrites written disk' disk := by
  refine ⟨h.keys.symm, fun place => ?_⟩
  rcases h.place place with hsame | ⟨hwritten, text, text', hbefore, hafter⟩
  · exact .inl hsame.symm
  · exact .inr ⟨hwritten, text', text, hafter, hbefore⟩

theorem Rewrites.mono {written' : Path → Prop} (h : Rewrites written disk disk')
    (hle : ∀ place, written place → written' place) : Rewrites written' disk disk' := by
  refine ⟨h.keys, fun place => ?_⟩
  rcases h.place place with hsame | ⟨hwritten, htexts⟩
  · exact .inl hsame
  · exact .inr ⟨hle place hwritten, htexts⟩

theorem Rewrites.at?_eq (h : Rewrites written disk disk') {place : Path} (hplace : ¬written place) :
    disk'.at? place = disk.at? place :=
  (h.place place).resolve_right fun hno => hplace hno.1

theorem Rewrites.exists_at? (h : Rewrites written disk disk') {place : Path} {entry : DiskEntry}
    (hentry : disk.at? place = some entry) : ∃ entry', disk'.at? place = some entry' := by
  rcases h.place place with hsame | ⟨-, -, text, -, hafter⟩
  · exact ⟨entry, hsame.trans hentry⟩
  · exact ⟨_, hafter⟩

theorem Rewrites.grows (h : Rewrites written disk disk') :
    Grows (fun _ => False) written disk disk' := by
  intro place
  rcases h.place place with hsame | ⟨hwritten, text, text', hbefore, hafter⟩
  · exact .inl hsame
  · exact .inr (.inr ⟨hwritten, by rw [hbefore]; simp, text', hafter⟩)

theorem Rewrites.textAt_iff (h : Rewrites written disk disk') {path : Path}
    (hwritten : ∀ place, place.getLast? = path.getLast? → ¬written place) {text : String} :
    disk'.textAt path = .ok text ↔ disk.textAt path = .ok text :=
  ⟨fun htext => h.symm.grows.textAt htext hwritten, fun htext => h.grows.textAt htext hwritten⟩

/-- A way that leads nowhere leads nowhere for the same reason. -/
theorem Rewrites.follow_error (h : Rewrites written disk disk') {way : List String} {here : Path}
    {failure : DiskFailure} (hway : disk.follow here way = .error failure) :
    disk'.follow here way = .error failure := by
  induction way generalizing here with
  | nil => exact absurd hway (by simp [Disk.follow])
  | cons part rest ih =>
    rcases Path.part_cases part with hstays | rfl | rfl | hplain
    · rw [follow_stays hstays] at hway ⊢
      exact ih hway
    · rw [follow_root] at hway ⊢
      exact ih hway
    · rw [follow_upwards] at hway ⊢
      exact ih hway
    · rw [follow_plain hplain] at hway ⊢
      by_cases hfits : Path.fits part = true
      · rw [if_pos hfits] at hway ⊢
        rcases h.place (here ++ [part]) with hsame | ⟨-, text, text', hbefore, hafter⟩
        · rw [hsame]
          cases hentry : disk.at? (here ++ [part]) with
          | none => rwa [hentry] at hway
          | some entry =>
            rw [hentry] at hway
            cases entry with
            | directory => exact ih hway
            | file text => exact hway
        · rw [hbefore] at hway
          rw [hafter]
          dsimp only at hway ⊢
          split at hway
          · exact absurd hway (by simp)
          · rename_i hrest
            rw [if_neg hrest]
            exact hway
      · rw [if_neg hfits] at hway ⊢
        exact hway

theorem Rewrites.locate_error (h : Rewrites written disk disk') {path : Path}
    {failure : DiskFailure} (hpath : disk.locate path = .error failure) :
    disk'.locate path = .error failure := by
  unfold locate at hpath ⊢
  by_cases hsound : path.isSound = true
  · rw [if_pos hsound] at hpath ⊢
    exact h.follow_error hpath
  · rw [if_neg hsound] at hpath ⊢
    exact hpath

theorem Rewrites.namesIn (h : Rewrites written disk disk') (path : Path) :
    disk'.namesIn path = disk.namesIn path := by
  unfold Disk.namesIn
  cases hpath : disk.locate path with
  | error failure => rw [h.locate_error hpath]
  | ok found =>
    obtain ⟨place, entry⟩ := found
    cases entry with
    | directory => rw [h.grows.locate hpath, h.keys]
    | file text =>
      obtain ⟨text', hpath', -⟩ := h.grows.locate_file hpath
      rw [hpath']

/-- What is read at a path is the same, unless it lies at a place written to. -/
theorem Rewrites.textAt_eq (h : Rewrites written disk disk') {path : Path}
    (hwritten : ∀ place, place.getLast? = path.getLast? → ¬written place) :
    disk'.textAt path = disk.textAt path := by
  cases hpath : disk.locate path with
  | error failure =>
    unfold textAt entryAt
    rw [h.locate_error hpath, hpath]
  | ok found =>
    obtain ⟨place, entry⟩ := found
    cases entry with
    | directory =>
      unfold textAt entryAt
      rw [h.grows.locate hpath, hpath]
    | file text =>
      have htext := textAt_eq_ok.2 ⟨place, hpath⟩
      rw [htext, h.textAt_iff hwritten]
      exact htext

/-- A file that is there is written anew in its place. -/
theorem rewrites_put {place : Path} {text : String} (hwritten : written place)
    (hthere : disk.at? place = some (.file text)) (text' : String) :
    Rewrites written disk (disk.put place (.file text')) := by
  refine ⟨Keyed.keys_insert_of_get? hthere _, fun other => ?_⟩
  rw [at?_put]
  by_cases hother : other = place
  · subst hother
    exact .inr ⟨hwritten, text, text', hthere, by simp⟩
  · exact .inl (by simp [hother])

theorem rewrites_writeFile {path place : Path} {text : String} (hwritten : written place)
    (hthere : disk.locate path = .ok (place, .file text)) (text' : String) :
    Rewrites written disk (writeFile path text' disk).2 := by
  obtain ⟨-, -, -, -, -, -, hentry, -⟩ := locate_file hthere
  rw [writeFile_of_place (filePlace?_of_file hthere)]
  exact rewrites_put hwritten hentry text'

end Disk

/-! ### Two disks side by side -/

theorem Keyed.keys_insert {κ α : Type} [BEq κ] [LawfulBEq κ] (m : Keyed κ α) (key : κ) (value : α) :
    (m.insert key value).keys = if key ∈ m.keys then m.keys else m.keys ++ [key] := by
  split
  · rename_i hkey
    exact keys_alterEntries_of_mem _ hkey
  · rename_i hkey
    rw [keys, insert, alter, alterEntries_of_not_mem key _ m.entries hkey, List.map_append]
    rfl

namespace Disk

variable {written : Path → Prop} {disk disk' : Disk}

/-- The same is put at one place of both disks. -/
theorem Rewrites.put (h : Rewrites written disk disk') (place : Path) (entry : DiskEntry) :
    Rewrites written (disk.put place entry) (disk'.put place entry) := by
  refine ⟨?_, fun other => ?_⟩
  · rw [Disk.put, Disk.put, Keyed.keys_insert, Keyed.keys_insert, h.keys]
  · rw [at?_put, at?_put]
    split
    · exact .inl rfl
    · exact h.place other

/-- A path leads nowhere for the same reason, to the same directory, or to a file at the same place. -/
theorem Rewrites.locate_cases (h : Rewrites written disk disk') (path : Path) :
    disk'.locate path = disk.locate path ∨ ∃ place text text',
      disk.locate path = .ok (place, .file text) ∧ disk'.locate path = .ok (place, .file text') := by
  cases hpath : disk.locate path with
  | error failure => exact .inl (h.locate_error hpath)
  | ok found =>
    obtain ⟨place, entry⟩ := found
    cases entry with
    | directory => exact .inl (h.grows.locate hpath)
    | file text =>
      obtain ⟨text', hpath', -⟩ := h.grows.locate_file hpath
      exact .inr ⟨place, text, text', rfl, hpath'⟩

theorem Rewrites.hasEntry_eq (h : Rewrites written disk disk') (path : Path) :
    disk'.hasEntry path = disk.hasEntry path := by
  unfold hasEntry entryAt
  rcases h.locate_cases path with hsame | ⟨place, text, text', hpath, hpath'⟩
  · rw [hsame]
  · rw [hpath, hpath']
    rfl

theorem Rewrites.hasDirectory_eq (h : Rewrites written disk disk') (path : Path) :
    disk'.hasDirectory path = disk.hasDirectory path := by
  unfold hasDirectory entryAt
  rcases h.locate_cases path with hsame | ⟨place, text, text', hpath, hpath'⟩
  · rw [hsame]
  · rw [hpath, hpath']
    rfl

theorem Rewrites.hasFile_eq (h : Rewrites written disk disk') (path : Path) :
    disk'.hasFile path = disk.hasFile path := by
  unfold hasFile entryAt
  rcases h.locate_cases path with hsame | ⟨place, text, text', hpath, hpath'⟩
  · rw [hsame]
  · rw [hpath, hpath']
    rfl

theorem Rewrites.textOr_eq (h : Rewrites written disk disk') {path : Path}
    (hwritten : ∀ place, place.getLast? = path.getLast? → ¬written place) (missing : Error) :
    disk'.textOr missing path = disk.textOr missing path := by
  rw [textOr, textOr, h.textAt_eq hwritten]

theorem Rewrites.filePlace?_eq (h : Rewrites written disk disk') (path : Path) :
    disk'.filePlace? path = disk.filePlace? path := by
  unfold filePlace?
  rw [h.hasDirectory_eq]
  rcases h.locate_cases path.dropLast with hsame | ⟨place, text, text', hpath, hpath'⟩
  · rw [hsame]
  · rw [hpath, hpath']
    cases path.getLast? <;> rfl

theorem alike_writeFile (path : Path) (text : String) :
    Action.Alike (Rewrites written) (writeFile path text) := by
  intro disk disk' h
  unfold writeFile
  rw [h.filePlace?_eq]
  cases disk.filePlace? path with
  | none => exact ⟨rfl, h⟩
  | some place => exact ⟨rfl, h.put place (.file text)⟩

theorem alike_appendFile (missing : Error) {path : Path}
    (hwritten : ∀ place, place.getLast? = path.getLast? → ¬written place) (text : String) :
    Action.Alike (Rewrites written) (appendFile missing path text) :=
  .bind (.read fun _ _ h => h.textOr_eq hwritten missing) fun _ => alike_writeFile path _

theorem alike_makeDirectoriesFrom (here : Path) (way : List String) :
    Action.Alike (Rewrites written) (makeDirectoriesFrom here way) := by
  induction way generalizing here with
  | nil => exact .pure ()
  | cons part rest ih =>
    intro disk disk' h
    rcases Path.part_cases part with hstays | rfl | rfl | hplain
    · rw [makeDirectoriesFrom_stays hstays, makeDirectoriesFrom_stays hstays]
      exact ih here disk disk' h
    · rw [makeDirectoriesFrom_root, makeDirectoriesFrom_root]
      exact ih _ disk disk' h
    · rw [makeDirectoriesFrom_upwards, makeDirectoriesFrom_upwards]
      exact ih _ disk disk' h
    · rw [makeDirectoriesFrom_plain hplain, makeDirectoriesFrom_plain hplain]
      rcases h.place (here ++ [part]) with hsame | ⟨-, text, text', hentry, hentry'⟩
      · rw [hsame]
        cases disk.at? (here ++ [part]) with
        | none =>
          dsimp only
          split
          · exact ih _ _ _ (h.put _ .directory)
          · exact ⟨rfl, h⟩
        | some entry =>
          cases entry with
          | directory => exact ih _ disk disk' h
          | file text => exact ⟨rfl, h⟩
      · rw [hentry, hentry']
        exact ⟨rfl, h⟩

theorem alike_makeDirectories (path : Path) :
    Action.Alike (Rewrites written) (makeDirectories path) :=
  .ite (alike_makeDirectoriesFrom [] path) (.throw _)

end Disk

/-- The rows of a table are the same, if those in its file are. -/
theorem Table.rows_of_rewrites {written : Path → Prop} {disk disk' : Disk}
    (h : Disk.Rewrites written disk disk') {database table : String}
    (hsame : ∀ place text text',
      disk.locate (Path.table database table) = .ok (place, .file text) →
        disk'.at? place = some (.file text') → Text.filledLines text' = Text.filledLines text) :
    rows disk' database table = rows disk database table := by
  unfold rows Disk.textOr Disk.textAt Disk.entryAt
  cases hpath : disk.locate (Path.table database table) with
  | error failure => rw [h.locate_error hpath]
  | ok found =>
    obtain ⟨place, entry⟩ := found
    cases entry with
    | directory => rw [h.grows.locate hpath]
    | file text =>
      obtain ⟨text', hpath', hthere⟩ := h.grows.locate_file hpath
      rw [hpath']
      exact congrArg Except.ok (hsame place text text' hpath hthere)

/-- The triggers are the same, unless files of their kind are written. -/
theorem Trigger.forEvent_of_rewrites {written : Path → Prop} {disk disk' : Disk}
    (h : Disk.Rewrites written disk disk')
    (hwritten : ∀ place, written place → ¬Path.EndsIn ".json" place) (database table : String)
    (event : Operation) : forEvent disk' database table event = forEvent disk database table event := by
  unfold forEvent
  rw [h.namesIn]
  have hload : ∀ files : List String, (∀ file ∈ files, mayHold table event file = true) →
      files.mapM (load disk' database) = files.mapM (load disk database) := by
    intro files hfiles
    induction files with
    | nil => rfl
    | cons file rest ih =>
      have hfile : load disk' database file = load disk database file := by
        have hends : ".json".toList <:+ file.toList := by
          have hhold := hfiles file (by simp)
          rw [mayHold, Bool.and_eq_true] at hhold
          exact List.isSuffixOf_iff_suffix.1 hhold.2
        unfold load Disk.textOr
        rw [h.textAt_eq fun place hplace hno => hwritten place hno ⟨file, ?_, hends⟩]
        rw [hplace]
        simp
      rw [List.mapM_cons, List.mapM_cons, hfile,
        ih fun other hother => hfiles other (List.mem_cons_of_mem file hother)]
  dsimp only
  rw [hload _ fun file hfile => (List.mem_filter.1 hfile).2]

/-! ### Index files -/

namespace Index

variable {disk : Disk} {database table column : String} {kind : IndexKind}

theorem load_eq_ok {data : IndexData} (h : load disk database table column kind = .ok data) :
    ∃ place text, disk.locate (path database table column kind) = .ok (place, .file text) ∧
      (Json.ofText? text).bind IndexData.ofJson? = some data := by
  obtain ⟨text, htext, hread⟩ := Action.of_bind_eq_ok h
  obtain ⟨place, hplace⟩ := Disk.textAt_eq_ok.1 (Disk.textOr_eq_ok.1 htext)
  refine ⟨place, text, hplace, ?_⟩
  split at hread
  · rename_i found hfound
    rw [← Except.ok.inj hread]
    exact hfound
  · exact absurd hread Action.throw_ne_ok

theorem isIndex_path (database table column : String) (kind : IndexKind) :
    Path.IsIndex (path database table column kind) := by
  have hname : table ++ "." ++ column ++ "." ++ kind.extension
      = (table ++ "." ++ column) ++ "." ++ kind.extension := rfl
  exact Path.isIndex_below _ _ kind

theorem rewrites_patchOne (database table column : String) (kind : IndexKind)
    (change : IndexData → Option IndexData) :
    Action.Within (Disk.Rewrites Path.IsIndex) (patchOne database table column kind change) := by
  intro disk
  unfold patchOne
  rw [Action.get_bind]
  cases hload : load disk database table column kind with
  | error failure => cases failure <;> exact refl disk
  | ok data =>
    dsimp only
    cases change data with
    | none => exact refl disk
    | some data' =>
      obtain ⟨place, text, hplace, -⟩ := load_eq_ok hload
      obtain ⟨before, name, home, hpath, -, rfl, -⟩ := Disk.locate_file hplace
      refine Disk.rewrites_writeFile ?_ hplace _
      obtain ⟨kind', hkind⟩ := isIndex_path database table column kind
      rw [hpath] at hkind
      exact ⟨kind', hkind.congr (by simp)⟩

theorem rewrites_patch (database table : String)
    (change : IndexKind → String → Option (IndexData → Option IndexData)) :
    Action.Within (Disk.Rewrites Path.IsIndex) (patch database table change) := by
  refine .forM fun kind _ => .bind .get fun disk => .forM fun column _ => ?_
  split
  · exact rewrites_patchOne _ _ _ _ _
  · exact .pure ()

end Index

namespace Engine

/-! ### The frame of patching -/

/-- Nothing happened but that index files were written anew and schemas on the disk read. -/
structure Maintains (before after : Engine) : Prop where
  settings : after.settings = before.settings
  disk : Disk.Rewrites Path.IsIndex before.disk after.disk
  log : after.log = before.log
  transactions : after.transactions = before.transactions
  role : after.role = before.role
  latestJobs : after.latestJobs = before.latestJobs
  clock : after.clock = before.clock
  kept : ∀ key schema, before.schemas.get? key = some schema →
    after.schemas.get? key = some schema
  read : ∀ key schema, after.schemas.get? key = some schema →
    before.schemas.get? key = some schema ∨ readSchema before.disk key.1 key.2 = .ok schema

/-- Where the text of a schema is the same, so is the schema. -/
theorem readSchema_of_textAt {disk disk' : Disk} {database table : String}
    (h : ∀ text, disk.textAt (Path.schema database table) = .ok text →
      disk'.textAt (Path.schema database table) = .ok text) {schema : TableSchema}
    (hread : readSchema disk database table = .ok schema) :
    readSchema disk' database table = .ok schema := by
  obtain ⟨text, htext, hread⟩ := Action.of_bind_eq_ok hread
  unfold readSchema
  rw [Disk.textOr_eq_ok.2 (h text (Disk.textOr_eq_ok.1 htext))]
  exact hread

theorem readSchema_eq_of_rewrites {disk disk' : Disk} (h : Disk.Rewrites Path.IsIndex disk disk')
    (database table : String) : readSchema disk' database table = readSchema disk database table := by
  unfold readSchema
  rw [h.textOr_eq fun place hplace => ?_]
  rintro ⟨kind, hkind⟩
  have hjson : Path.EndsIn ".json" place :=
    (Path.endsIn_below (Path.schemas database) table (by decide)).congr hplace
  have hends := hjson.comparable hkind
  cases kind <;> revert hends <;> decide

theorem readSchema_of_rewrites {disk disk' : Disk} (h : Disk.Rewrites Path.IsIndex disk disk')
    (database table : String) (schema : TableSchema) :
    readSchema disk' database table = .ok schema ↔
      readSchema disk database table = .ok schema := by
  rw [readSchema_eq_of_rewrites h]

instance : IsPreorder Engine Maintains where
  refl e := ⟨rfl, refl e.disk, rfl, rfl, rfl, rfl, rfl, fun _ _ h => h, fun _ _ h => .inl h⟩
  trans first second third h h' := {
    settings := h'.settings.trans h.settings
    disk := IsTrans.trans _ _ _ h.disk h'.disk
    log := h'.log.trans h.log
    transactions := h'.transactions.trans h.transactions
    role := h'.role.trans h.role
    latestJobs := h'.latestJobs.trans h.latestJobs
    clock := h'.clock.trans h.clock
    kept := fun key schema hkey => h'.kept key schema (h.kept key schema hkey)
    read := fun key schema hkey => by
      rcases h'.read key schema hkey with hsecond | hdisk
      · exact h.read key schema hsecond
      · exact .inr ((readSchema_of_rewrites h.disk _ _ _).1 hdisk) }

theorem Quiet.maintains {before after : Engine} (h : Quiet before after) :
    Maintains before after where
  settings := h.settings
  disk := by rw [h.disk]; exact refl before.disk
  log := h.log
  transactions := h.transactions
  role := h.role
  latestJobs := h.latestJobs
  clock := h.clock
  kept := h.kept
  read := h.read

theorem maintains_onDisk {α : Type} {step : Action Disk α}
    (h : Action.Within (Disk.Rewrites Path.IsIndex) step) :
    Action.Within Maintains (onDisk step) := by
  intro e
  rw [onDisk, Action.onPart_apply]
  exact ⟨rfl, h e.disk, rfl, rfl, rfl, rfl, rfl, fun _ _ h => h, fun _ _ h => .inl h⟩

theorem maintains_patchTable (database : String) (schema : TableSchema)
    (removed added : List String) :
    Action.Within Maintains (Job.patchTable database schema removed added) :=
  .bind (.forM fun _ _ => maintains_onDisk (Index.rewrites_patch _ _ _)) fun _ =>
    .forM fun _ _ => maintains_onDisk (Index.rewrites_patch _ _ _)

theorem maintains_patchEntry (entry : Log.Entry) :
    Action.Within Maintains (Job.patchEntry entry) := by
  have hadd : Action.Within Maintains (do
      let schema ← schema entry.database entry.table
      onDisk (Index.addRow entry.database entry.table schema.fieldNames entry.row)) :=
    .bind ((observes_schema _ _).quiet.mono fun _ _ h => h.maintains) fun _ =>
      maintains_onDisk (Index.rewrites_patch _ _ _)
  have hrest : Action.Within Maintains (if entry.operation != .delete then do
      let schema ← schema entry.database entry.table
      onDisk (Index.addRow entry.database entry.table schema.fieldNames entry.row)
      else pure ()) := .ite (fun _ => hadd) fun _ => .pure ()
  unfold Job.patchEntry
  exact .ite (fun _ => .bind (maintains_onDisk (Index.rewrites_patch _ _ _)) fun _ => hrest)
    fun _ => hrest

/-- Patching is done at once, or a job for it waits. -/
theorem upkeep_cases (upkeep : Upkeep) (e : Engine) :
    Maintains e (upkeep.step e).2 ∨
      e.settings.background = true ∧ ∃ jobs, (upkeep.step e).2 = { e with latestJobs := jobs } := by
  have hdispatch {job : Job} {step : Action Engine Unit} (hstep : Action.Within Maintains step) :
      Maintains e (dispatch job step e).2 ∨ e.settings.background = true ∧
        ∃ jobs, (dispatch job step e).2 = { e with latestJobs := jobs } := by
    unfold dispatch
    rw [Action.get_bind]
    cases hbackground : e.settings.background with
    | true => exact .inr ⟨rfl, job :: e.latestJobs, rfl⟩
    | false => exact .inl (hstep e)
  cases upkeep with
  | none => exact .inl (refl e)
  | rows database schema removed added => exact hdispatch (maintains_patchTable _ _ _ _)
  | applied entries =>
    rw [Upkeep.step, patchCommitted]
    split
    · exact .inl (refl e)
    · exact hdispatch (.forM fun entry _ => maintains_patchEntry entry)

theorem rewrites_of_upkeep (upkeep : Upkeep) (e : Engine) :
    Disk.Rewrites Path.IsIndex e.disk (upkeep.step e).2.disk := by
  rcases upkeep_cases upkeep e with h | ⟨-, jobs, h⟩
  · exact h.disk
  · rw [h]
    exact refl e.disk

end Engine

end FlatFileDb
