import FlatFileDb.Proofs.Reopening

/-!
# Tables from the log

A log is replayed entry by entry, and a transaction of which a change cannot be made is left at that
change, as its commit left it. Replayed on empty tables, a log makes all tables what they are where this
was so before a commit and the commit is replayed behind it, and where it was so before a table was
made: a change depends on the file of its table alone, and no entry is one of a table that is new.
-/

namespace FlatFileDb

/-! ### Empty tables -/

namespace Disk

variable {disk disk' : Disk} {place : Path} {written : Path → Prop}

/-- Whether a place is that of a file of a table. -/
def isOfTable (place : Path) : Bool :=
  place.getLast?.any fun part => ".mg".toList.isSuffixOf part.toList

theorem isOfTable_iff : isOfTable place = true ↔ Path.EndsIn ".mg" place := by
  rw [isOfTable, Option.any_eq_true]
  exact exists_congr fun _ => and_congr_right fun _ => List.isSuffixOf_iff_suffix

/-- What lies at a place, without rows if it is a table. -/
def emptiedAt (place : Path) : DiskEntry → DiskEntry
  | .file text => .file (if isOfTable place then "" else text)
  | .directory => .directory

/-- The disk with all tables empty. -/
def emptied (disk : Disk) : Disk :=
  ⟨⟨disk.entries.entries.map fun entry => (entry.1, emptiedAt entry.1.2 entry.2)⟩⟩

theorem at?_emptied (disk : Disk) (place : Path) :
    disk.emptied.at? place = (disk.at? place).map (emptiedAt place) := by
  obtain ⟨⟨entries⟩⟩ := disk
  change (entries.map _).lookup _ = (entries.lookup _).map _
  induction entries with
  | nil => rfl
  | cons entry rest ih =>
    rw [List.map_cons, List.lookup_cons, List.lookup_cons, ih]
    cases hkey : (place.length, place) == entry.1 with
    | true => rw [← eq_of_beq hkey]; rfl
    | false => rfl

theorem emptiedAt_of_not (h : ¬Path.EndsIn ".mg" place) (entry : DiskEntry) :
    emptiedAt place entry = entry := by
  cases entry with
  | file text => rw [emptiedAt, if_neg fun hno => h (isOfTable_iff.1 hno)]
  | directory => rfl

theorem emptiedAt_of_endsIn (h : Path.EndsIn ".mg" place) (text : String) :
    emptiedAt place (.file text) = .file "" := by
  rw [emptiedAt, if_pos (isOfTable_iff.2 h)]

theorem rewrites_emptied (disk : Disk) : Rewrites (Path.EndsIn ".mg") disk disk.emptied := by
  refine ⟨by simp [emptied, Keyed.keys], fun place => ?_⟩
  rw [at?_emptied]
  cases hentry : disk.at? place with
  | none => exact .inl rfl
  | some entry =>
    by_cases hends : Path.EndsIn ".mg" place
    · cases entry with
      | directory => exact .inl rfl
      | file text =>
        exact .inr ⟨hends, text, "", rfl, by rw [Option.map_some, emptiedAt_of_endsIn hends]⟩
    · exact .inl (by rw [Option.map_some, emptiedAt_of_not hends])

/-- Once emptied, a table that can be read has no rows. -/
theorem rows_emptied {database table : String} {rows : List String} (htable : Name.isValid table = true)
    (h : Table.rows disk database table = .ok rows) :
    Table.rows disk.emptied database table = .ok [] := by
  obtain ⟨home, text, -, hlocate, hthere, -⟩ := Table.rows_eq_ok htable h
  obtain ⟨text', hlocate', hthere'⟩ := (rewrites_emptied disk).grows.locate_file hlocate
  rw [at?_emptied, hthere, Option.map_some, emptiedAt_of_endsIn (Path.endsIn_tablePlace home table),
    Option.some.injEq, DiskEntry.file.injEq] at hthere'
  rw [Table.rows_of_locate hlocate', ← hthere', Text.lists_empty.filledLines]
  rfl

/-- What is written to tables is not seen once they are empty. -/
theorem Rewrites.emptied
    (h : Rewrites (fun place => written place ∨ Path.EndsIn ".mg" place) disk disk') :
    Rewrites written disk.emptied disk'.emptied := by
  refine ⟨?_, fun place => ?_⟩
  · exact ((rewrites_emptied disk').keys.trans h.keys).trans (rewrites_emptied disk).keys.symm
  rw [at?_emptied, at?_emptied]
  rcases h.place place with hsame | ⟨hplace, text, text', hbefore, hafter⟩
  · exact .inl (by rw [hsame])
  · rw [hbefore, hafter, Option.map_some, Option.map_some]
    by_cases hends : Path.EndsIn ".mg" place
    · exact .inl (by rw [emptiedAt_of_endsIn hends, emptiedAt_of_endsIn hends])
    · rw [emptiedAt_of_not hends, emptiedAt_of_not hends]
      exact .inr ⟨hplace.resolve_right hends, text, text', rfl, rfl⟩

end Disk

/-! ### Replaying a log -/

namespace Log

/-- A disk on which a log is replayed, and the transactions of which a change could not be made. -/
structure Replayer where
  stopped : List String
  disk : Disk

/-- Makes one more change, unless one before it in its transaction could not be made. -/
def Replayer.next (state : Replayer) (entry : Entry) : Replayer :=
  if entry.transaction ∈ state.stopped then state
  else
    match entry.perform state.disk with
    | (.ok (), disk) => { state with disk }
    | (.error _, _) => { state with stopped := entry.transaction :: state.stopped }

/-- Makes the changes of a log one after the other. Behind the first change of a transaction that
cannot be made, the rest of that transaction is passed over. -/
def replay (entries : List Entry) (disk : Disk) : Replayer :=
  entries.foldl Replayer.next ⟨[], disk⟩

namespace Replayer

variable {state state' : Replayer} {entry : Entry} {entries : List Entry} {disk : Disk}

theorem next_of_mem (h : entry.transaction ∈ state.stopped) : state.next entry = state := if_pos h

theorem next_of_ok (h : entry.transaction ∉ state.stopped)
    (hperform : entry.perform state.disk = (.ok (), disk)) :
    state.next entry = { state with disk } := by
  rw [next, if_neg h, hperform]

theorem next_of_error (h : entry.transaction ∉ state.stopped) {failure : Error}
    (hperform : entry.perform state.disk = (.error failure, disk)) :
    state.next entry = { state with stopped := entry.transaction :: state.stopped } := by
  rw [next, if_neg h, hperform]

theorem rewrites_next (state : Replayer) (entry : Entry) :
    Disk.Rewrites (Path.EndsIn ".mg") state.disk (state.next entry).disk := by
  by_cases hstopped : entry.transaction ∈ state.stopped
  · rw [next_of_mem hstopped]
    exact refl state.disk
  have hrewrites := Entry.rewrites_perform entry state.disk
  rcases hperform : entry.perform state.disk with ⟨_ | _, disk⟩
  · rw [next_of_error hstopped hperform]
    exact refl state.disk
  · rw [next_of_ok hstopped hperform]
    rwa [hperform] at hrewrites

theorem rewrites_foldl (entries : List Entry) (state : Replayer) :
    Disk.Rewrites (Path.EndsIn ".mg") state.disk (entries.foldl next state).disk := by
  induction entries generalizing state with
  | nil => exact refl state.disk
  | cons entry rest ih => exact IsTrans.trans _ _ _ (rewrites_next state entry) (ih _)

/-- A transaction that is stopped has an entry in the log. -/
theorem mem_stopped {id : String} (h : id ∈ (entries.foldl next state).stopped) :
    id ∈ state.stopped ∨ ∃ entry ∈ entries, entry.transaction = id := by
  induction entries generalizing state with
  | nil => exact .inl h
  | cons entry rest ih =>
    rcases ih h with hbefore | ⟨other, hother, hid⟩
    · by_cases hstopped : entry.transaction ∈ state.stopped
      · rw [next_of_mem hstopped] at hbefore
        exact .inl hbefore
      · rcases hperform : entry.perform state.disk with ⟨_ | _, disk⟩
        · rw [next_of_error hstopped hperform, List.mem_cons] at hbefore
          exact hbefore.symm.imp_right fun hid => ⟨entry, by simp, hid.symm⟩
        · rw [next_of_ok hstopped hperform] at hbefore
          exact .inl hbefore
    · exact .inr ⟨other, List.mem_cons_of_mem _ hother, hid⟩

/-- Disks that differ in the log only go alike. -/
theorem foldl_alike (hstopped : state'.stopped = state.stopped)
    (hdisk : Disk.Rewrites (Path.EndsIn ".log") state.disk state'.disk) (entries : List Entry) :
    (entries.foldl next state').stopped = (entries.foldl next state).stopped ∧
      Disk.Rewrites (Path.EndsIn ".log") (entries.foldl next state).disk
        (entries.foldl next state').disk := by
  induction entries generalizing state state' with
  | nil => exact ⟨hstopped, hdisk⟩
  | cons entry rest ih =>
    by_cases hmem : entry.transaction ∈ state.stopped
    · rw [List.foldl_cons, List.foldl_cons, next_of_mem hmem, next_of_mem (hstopped ▸ hmem)]
      exact ih hstopped hdisk
    have hmem' : entry.transaction ∉ state'.stopped := hstopped ▸ hmem
    obtain ⟨hresult, hafter⟩ := Entry.perform_alike entry state.disk state'.disk hdisk
    rcases hperform : entry.perform state.disk with ⟨failure | _, disk⟩ <;>
      rcases hperform' : entry.perform state'.disk with ⟨failure' | _, disk'⟩ <;>
      rw [hperform, hperform'] at hresult hafter
    · rw [List.foldl_cons, List.foldl_cons, next_of_error hmem hperform,
        next_of_error hmem' hperform']
      exact ih (congrArg (List.cons entry.transaction) hstopped) hdisk
    · exact absurd hresult (by simp)
    · exact absurd hresult (by simp)
    · rw [List.foldl_cons, List.foldl_cons, next_of_ok hmem hperform, next_of_ok hmem' hperform']
      exact ih hstopped hafter

theorem foldl_of_stopped {id : String} (h : id ∈ state.stopped)
    (hentries : ∀ entry ∈ entries, entry.transaction = id) : entries.foldl next state = state := by
  induction entries with
  | nil => rfl
  | cons entry rest ih =>
    obtain ⟨hentry, hrest⟩ := List.forall_mem_cons.1 hentries
    rw [List.foldl_cons, next_of_mem (hentry ▸ h), ih hrest]

/-- The changes of one transaction are replayed as they are committed. -/
theorem foldl_transaction {id : String} (h : id ∉ state.stopped)
    (hentries : ∀ entry ∈ entries, entry.transaction = id) :
    (entries.foldl next state).disk = (Entry.performAll entries state.disk).2 := by
  induction entries generalizing state with
  | nil => rfl
  | cons entry rest ih =>
    obtain ⟨hentry, hrest⟩ := List.forall_mem_cons.1 hentries
    have hmem : entry.transaction ∉ state.stopped := hentry ▸ h
    rw [List.foldl_cons, Entry.performAll]
    rcases hperform : entry.perform state.disk with ⟨failure | _, disk⟩
    · rw [next_of_error hmem hperform, foldl_of_stopped (by rw [hentry]; exact List.mem_cons_self) hrest]
      exact (Entry.perform_error hperform).symm
    · rw [next_of_ok hmem hperform]
      exact @ih ⟨state.stopped, disk⟩ h hrest

end Replayer

/-! ### More tables -/

namespace Entry

variable {entry : Entry} {disk : Disk} {place : Path} {text : String}

/-- The text of the file of a table after a change; none if the change does not find its row. -/
def textAfter? (entry : Entry) (text : String) : Option String :=
  match entry.operation with
  | .insert => some (text ++ (entry.row ++ "\n"))
  | .update =>
    (Table.changeFirst? entry.rowId (fun _ => [entry.row]) (Text.filledLines text)).map Text.ofLines
  | .delete =>
    (Table.changeFirst? entry.rowId (fun _ => []) (Text.filledLines text)).map Text.ofLines

/-- What a change does depends on the file of its table alone. -/
theorem perform_of_file
    (h : disk.locate (Path.table entry.database entry.table) = .ok (place, .file text)) :
    entry.perform disk = match entry.textAfter? text with
      | some after => (.ok (), disk.put place (.file after))
      | none => (.error (.unknownRow entry.table entry.rowId), disk) := by
  unfold perform textAfter?
  cases entry.operation with
  | insert => exact Table.append_of_locate h entry.row
  | update =>
    refine (Table.changeRow_of_locate h entry.rowId _).trans ?_
    cases Table.changeFirst? entry.rowId (fun _ => [entry.row]) (Text.filledLines text) <;> rfl
  | delete =>
    refine (Table.changeRow_of_locate h entry.rowId _).trans ?_
    cases Table.changeFirst? entry.rowId (fun _ => []) (Text.filledLines text) <;> rfl

theorem perform_of_no_file
    (h : ∀ place text,
      disk.locate (Path.table entry.database entry.table) ≠ .ok (place, .file text)) :
    ∃ failure, entry.perform disk = (.error failure, disk) := by
  rcases hperform : entry.perform disk with ⟨failure | _, after⟩
  · exact ⟨failure, by rw [perform_error hperform]⟩
  · obtain ⟨place, text, hlocate⟩ := locate_of_perform hperform
    exact absurd hlocate (h place text)

end Entry

end Log

/-- The way to the file of a table is the same in two disks where the database lies in one directory. -/
theorem Database.LiesAt.locate_table_of_at?_eq {disk disk' : Disk} {database name text : String}
    {home place : Path} (h : LiesAt disk database home) (h' : LiesAt disk' database home)
    (hname : Name.isValid name = true)
    (hsame : disk'.at? (Path.tablePlace home name) = disk.at? (Path.tablePlace home name))
    (hlocate : disk.locate (Path.table database name) = .ok (place, .file text)) :
    place = Path.tablePlace home name ∧
      disk'.locate (Path.table database name) = .ok (place, .file text) := by
  have hsound := (Disk.locate_eq_ok hlocate).1
  obtain ⟨before, part, folder, hpath, hfolder, rfl, hfile, -, hfits⟩ := Disk.locate_file hlocate
  rw [Path.table_of_isValid database hname] at hpath
  obtain ⟨rfl, hpart⟩ := List.append_inj' hpath rfl
  rw [List.cons.injEq] at hpart
  obtain ⟨rfl, -⟩ := hpart
  obtain rfl := h.unique hfolder
  have hthere : disk.at? (Path.tablePlace folder name) = some (.file text) := hfile
  refine ⟨rfl, ?_⟩
  rw [h'.locate_table hname hsound hfits, hsame, hthere]
  rfl

namespace Log.Replayer

/-- Two replays side by side, the second on a disk that may have more on it: on the tables that are
kept both do the same, and the second leaves all else alone. -/
structure Beside (kept : Path → Prop) (start start' : Disk) (state state' : Replayer) : Prop where
  stopped : state'.stopped = state.stopped
  lies : ∀ database home, Database.LiesAt start database home →
    Database.LiesAt state.disk database home ∧ Database.LiesAt state'.disk database home
  same : ∀ place, kept place → state'.disk.at? place = state.disk.at? place
  others : ∀ place, ¬kept place → state'.disk.at? place = start'.at? place

variable {kept : Path → Prop} {start start' : Disk} {state state' : Replayer} {entry : Entry}
  {entries : List Entry} {home : Path}

theorem Beside.put (h : Beside kept start start' state state') {place : Path} {text : String}
    (hplace : kept place) (hfree : state.disk.at? place ≠ some .directory) :
    Beside kept start start' { state with disk := state.disk.put place (.file text) }
      { state' with disk := state'.disk.put place (.file text) } where
  stopped := h.stopped
  lies database home hhome := by
    have hgrows {disk : Disk} (hfree : disk.at? place ≠ some .directory) :
        Disk.Grows (fun _ => True) (fun _ => True) disk (disk.put place (.file text)) :=
      Disk.grows_put_file trivial hfree text
    exact ⟨(h.lies database home hhome).1.grows (hgrows hfree),
      (h.lies database home hhome).2.grows (hgrows (by rwa [h.same place hplace]))⟩
  same other hother := by
    dsimp only
    rw [Disk.at?_put, Disk.at?_put, h.same other hother]
  others other hother := by
    dsimp only
    rw [Disk.at?_put, if_neg (by rintro hsame; exact hother (eq_of_beq hsame ▸ hplace)),
      h.others other hother]

theorem Beside.next (h : Beside kept start start' state state')
    (htable : Name.isValid entry.table = true)
    (hhome : Database.LiesAt start entry.database home)
    (hkept : kept (Path.tablePlace home entry.table)) :
    Beside kept start start' (state.next entry) (state'.next entry) := by
  by_cases hmem : entry.transaction ∈ state.stopped
  · rw [next_of_mem hmem, next_of_mem (h.stopped ▸ hmem)]
    exact h
  have hmem' : entry.transaction ∉ state'.stopped := h.stopped ▸ hmem
  have hfails {failure failure' : Error} {disk disk' : Disk}
      (hperform : entry.perform state.disk = (.error failure, disk))
      (hperform' : entry.perform state'.disk = (.error failure', disk')) :
      Beside kept start start' (state.next entry) (state'.next entry) := by
    rw [next_of_error hmem hperform, next_of_error hmem' hperform']
    exact ⟨congrArg (List.cons entry.transaction) h.stopped, h.lies, h.same, h.others⟩
  obtain ⟨hlies, hlies'⟩ := h.lies _ _ hhome
  have hsame := h.same _ hkept
  by_cases hfile : ∃ place text,
      state.disk.locate (Path.table entry.database entry.table) = .ok (place, .file text)
  · obtain ⟨place, text, hlocate⟩ := hfile
    obtain ⟨rfl, hlocate'⟩ := hlies.locate_table_of_at?_eq hlies' htable hsame hlocate
    have hperform := Entry.perform_of_file hlocate
    have hperform' := Entry.perform_of_file hlocate'
    cases hafter : entry.textAfter? text with
    | none =>
      rw [hafter] at hperform hperform'
      exact hfails hperform hperform'
    | some after =>
      rw [hafter] at hperform hperform'
      rw [next_of_ok hmem hperform, next_of_ok hmem' hperform']
      obtain ⟨-, -, -, -, -, -, hthere, -⟩ := Disk.locate_file hlocate
      exact h.put hkept (by rw [hthere]; simp)
  · have hnone : ∀ place text, state.disk.locate (Path.table entry.database entry.table)
        ≠ .ok (place, .file text) := fun place text hno => hfile ⟨place, text, hno⟩
    have hnone' : ∀ place text, state'.disk.locate (Path.table entry.database entry.table)
        ≠ .ok (place, .file text) := fun place text hno =>
      hfile ⟨place, text, (hlies'.locate_table_of_at?_eq hlies htable hsame.symm hno).2⟩
    obtain ⟨failure, hperform⟩ := Entry.perform_of_no_file hnone
    obtain ⟨failure', hperform'⟩ := Entry.perform_of_no_file hnone'
    exact hfails hperform hperform'

theorem Beside.foldl (h : Beside kept start start' state state')
    (hentries : ∀ entry ∈ entries, Name.isValid entry.table = true ∧ ∃ home,
      Database.LiesAt start entry.database home ∧ kept (Path.tablePlace home entry.table)) :
    Beside kept start start' (entries.foldl Replayer.next state)
      (entries.foldl Replayer.next state') := by
  induction entries generalizing state state' with
  | nil => exact h
  | cons entry rest ih =>
    obtain ⟨⟨htable, home, hhome, hkept⟩, hrest⟩ := List.forall_mem_cons.1 hentries
    exact ih (h.next htable hhome hkept) hrest

end Log.Replayer

namespace Disk

variable {disk disk' logged : Disk} {entries changes : List Log.Entry} {id : String}

/-- Of the files of tables only those of new tables are written, and without rows. -/
structure AddsTables (disk disk' : Disk) : Prop where
  grows : Grows (fun _ => True) (fun _ => True) disk disk'
  tables : ∀ place, Path.EndsIn ".mg" place → disk'.at? place = disk.at? place ∨
    disk'.at? place = some (.file "") ∧
      ∀ home table, place = Path.tablePlace home table → disk.at? (Path.schemaPlace home table) = none

/-- Whether the entries are changes of tables. -/
def Knows (disk : Disk) (entries : List Log.Entry) : Prop :=
  ∀ entry ∈ entries, entry.IsSound ∧
    ∃ schema, Engine.readSchema disk entry.database entry.table = .ok schema

theorem Knows.append (h : disk.Knows entries) (hmore : disk.Knows changes) :
    disk.Knows (entries ++ changes) := fun entry hentry =>
  (List.mem_append.1 hentry).elim (h entry) (hmore entry)

theorem Knows.keeps (h : disk.Knows entries)
    (hschemas : ∀ {database name schema}, Name.isValid name = true →
      Engine.readSchema disk database name = .ok schema →
        Engine.readSchema disk' database name = .ok schema) : disk'.Knows entries := by
  intro entry hentry
  obtain ⟨hsound, schema, hschema⟩ := h entry hentry
  exact ⟨hsound, schema, hschemas hsound.table hschema⟩

/-- Whether replaying the entries brings empty tables to what all tables are. -/
def IsRebuilt (disk : Disk) (entries : List Log.Entry) : Prop :=
  ∀ place, Path.EndsIn ".mg" place →
    (Log.replay entries disk.emptied).disk.at? place = disk.at? place

theorem IsRebuilt.rewrites (h : disk.IsRebuilt entries) :
    Rewrites (fun _ => False) disk (Log.replay entries disk.emptied).disk := by
  have hreplay : Rewrites (Path.EndsIn ".mg") disk (Log.replay entries disk.emptied).disk :=
    IsTrans.trans _ _ _ (rewrites_emptied disk)
      (Log.Replayer.rewrites_foldl entries ⟨[], disk.emptied⟩)
  refine ⟨hreplay.keys, fun place => .inl ?_⟩
  by_cases hends : Path.EndsIn ".mg" place
  · exact h place hends
  · exact hreplay.at?_eq hends

theorem IsRebuilt.rows (h : disk.IsRebuilt entries) (database table : String) :
    Table.rows (Log.replay entries disk.emptied).disk database table
      = Table.rows disk database table :=
  Table.rows_alike (fun _ hno => hno.elim) h.rewrites database table

theorem isRebuilt_nil
    (h : ∀ place text, Path.EndsIn ".mg" place → disk.at? place ≠ some (.file text)) :
    disk.IsRebuilt [] := by
  intro place hends
  change disk.emptied.at? place = disk.at? place
  rw [at?_emptied]
  rcases hentry : disk.at? place with _ | (text | _)
  · rfl
  · exact absurd hentry (h place text hends)
  · rfl

/-- A table that is new is none of those in the log. -/
theorem IsRebuilt.addsTables (h : disk.IsRebuilt entries) (hknown : disk.Knows entries)
    (hadds : AddsTables disk disk') : disk'.IsRebuilt entries := by
  let kept : Path → Prop := fun place =>
    Path.EndsIn ".mg" place ∧ disk'.at? place = disk.at? place
  have hlies {disk : Disk} {database : String} {home : Path} :
      Database.LiesAt disk database home ↔ Database.LiesAt disk.emptied database home :=
    ⟨fun h => h.grows (rewrites_emptied disk).grows,
      fun h => h.grows (rewrites_emptied disk).symm.grows⟩
  have hbeside : Log.Replayer.Beside kept disk.emptied disk'.emptied
      (Log.replay entries disk.emptied) (Log.replay entries disk'.emptied) := by
    refine Log.Replayer.Beside.foldl ⟨rfl, fun database home hhome => ?_, fun place hplace => ?_,
      fun _ _ => rfl⟩ fun entry hentry => ?_
    · exact ⟨hhome, hlies.1 ((hlies.2 hhome).grows hadds.grows)⟩
    · dsimp only
      rw [at?_emptied, at?_emptied, hplace.2]
    · obtain ⟨hsound, schema, hschema⟩ := hknown entry hentry
      obtain ⟨home, text, hhome, -, hthere, -⟩ := Engine.readSchema_eq_ok hsound.table hschema
      have hends := Path.endsIn_tablePlace home entry.table
      refine ⟨hsound.table, home, hlies.1 hhome, hends, (hadds.tables _ hends).resolve_right ?_⟩
      rintro ⟨-, hnew⟩
      exact absurd ((hnew home entry.table rfl).symm.trans hthere) (by simp)
  intro place hends
  by_cases hsame : disk'.at? place = disk.at? place
  · rw [hbeside.same place ⟨hends, hsame⟩, h place hends, hsame]
  · have hempty := ((hadds.tables place hends).resolve_left hsame).1
    rw [hbeside.others place fun hkept => hsame hkept.2, at?_emptied, hempty, Option.map_some,
      emptiedAt_of_endsIn hends]

/-- The changes of a commit are replayed behind those before it. -/
theorem IsRebuilt.commit (h : disk.IsRebuilt entries)
    (hlogged : Rewrites (Path.EndsIn ".log") disk logged)
    (hid : ∀ change ∈ changes, change.transaction = id)
    (hfresh : ∀ entry ∈ entries, entry.transaction ≠ id) :
    (Log.Entry.performAll changes logged).2.IsRebuilt (entries ++ changes) := by
  set after := (Log.Entry.performAll changes logged).2 with hafter
  have hwritten :
      Rewrites (fun place => Path.EndsIn ".log" place ∨ Path.EndsIn ".mg" place) disk after :=
    IsTrans.trans _ _ _ (hlogged.mono fun _ => .inl)
      ((Log.Entry.rewrites_performAll changes logged).mono fun _ => .inr)
  -- What is replayed of the entries before leads to the disk that the commit finds.
  obtain ⟨-, hbefore⟩ := @Log.Replayer.foldl_alike ⟨[], disk.emptied⟩ ⟨[], after.emptied⟩ rfl
    hwritten.emptied entries
  have hfound : Rewrites (Path.EndsIn ".log") logged (Log.replay entries after.emptied).disk :=
    IsTrans.trans _ _ _ hlogged.symm
      (IsTrans.trans _ _ _ (h.rewrites.mono fun _ hno => hno.elim) hbefore)
  have hid' : id ∉ (Log.replay entries after.emptied).stopped := by
    intro hmem
    rcases Log.Replayer.mem_stopped hmem with hno | ⟨entry, hentry, hsame⟩
    · exact absurd hno (by simp)
    · exact hfresh entry hentry hsame
  have hreplay : (Log.replay (entries ++ changes) after.emptied).disk
      = (Log.Entry.performAll changes (Log.replay entries after.emptied).disk).2 := by
    rw [Log.replay, List.foldl_append]
    exact Log.Replayer.foldl_transaction hid' hid
  intro place hends
  rw [hreplay]
  exact (Log.Entry.performAll_alike hfound changes).2.at?_eq (hends.not (by decide))

end Disk

end FlatFileDb
