import FlatFileDb.Proofs.TableFiles

/-!
# Catalog and storage

Schemas, tables, views and indexes are written by different commands, each with its own look at what
is there already. Still, after every run, whatever failed in it, a table has a schema and a schema
has a table and columns, an index is on a column of a table, no name is that of both a table and a
view, and no statement misses the file of a table.

There are two exceptions, and both are matters of places. Where the log lies in a directory that has
the name of a table's file, a schema is stored without its table. And a way with needless slashes in
it may be short enough to lead to a view, but too long to lead to a schema of the same name.
-/

namespace FlatFileDb

/-- Tables, schemas and indexes belong together. -/
structure Disk.IsConsistent (disk : Disk) : Prop where
  /-- Every table has a schema. -/
  tables : ∀ home name, (disk.fileAt? (Path.tablePlace home name)).isSome = true →
    (disk.fileAt? (Path.schemaPlace home name)).isSome = true
  /-- Every schema can be read and has columns, all of different names, and where its table has its
  place there is something. -/
  schemas : ∀ home name, (disk.fileAt? (Path.schemaPlace home name)).isSome = true →
    disk.at? (Path.tablePlace home name) ≠ none ∧
      ∃ schema, disk.schemaAt? home name = some schema ∧ schema.columns ≠ [] ∧
        schema.fieldNames.Nodup
  /-- Every index is one on a column of a table. -/
  indexes : ∀ place, Path.IsIndex place → (disk.fileAt? place).isSome = true →
    ∃ home table column kind schema, place = Path.indexPlace home table column kind ∧
      disk.schemaAt? home table = some schema ∧ column ∈ schema.fieldNames

namespace Disk

variable {disk : Disk} {home : Path} {name : String}

theorem isSome_fileAt? {place : Path} :
    (disk.fileAt? place).isSome = true ↔ ∃ text, disk.at? place = some (.file text) := by
  rw [Option.isSome_iff_exists]
  exact exists_congr fun text => fileAt?_eq_some

theorem IsFurnished.isConsistent (h : disk.IsFurnished) (hcatalogued : disk.IsCatalogued) :
    disk.IsConsistent where
  tables home name htable := by
    obtain ⟨text, htext⟩ := isSome_fileAt?.1 htable
    obtain ⟨home', name', text', hplace, hschema⟩ :=
      h.tables _ text (Path.endsIn_tablePlace home name) htext
    obtain ⟨rfl, rfl⟩ := Path.tablePlace_inj hplace
    exact isSome_fileAt?.2 ⟨text', hschema⟩
  schemas home name hschema := by
    obtain ⟨text, htext⟩ := isSome_fileAt?.1 hschema
    obtain ⟨-, schema, hread, hsound, -⟩ :=
      hcatalogued.schemas home name text (h.named home name text htext) htext
    have hfound : disk.schemaAt? home name = some schema := by
      rw [schemaAt?, fileAt?_eq_some.2 htext]
      exact hread
    exact ⟨h.placed home name text htext, schema, hfound,
      (h.usable home name schema hfound).columns, hsound.distinct⟩
  indexes place hindex hfile := by
    obtain ⟨text, htext⟩ := isSome_fileAt?.1 hfile
    obtain ⟨home, table, column, kind, position, hplace, -, hposition⟩ :=
      h.indexes place text hindex htext
    obtain ⟨schema, hschema, hcolumn⟩ := Option.bind_eq_some_iff.1 hposition
    obtain ⟨hbound, hname, -⟩ := List.findIdx?_eq_some_iff_getElem.1 hcolumn
    refine ⟨home, table, column, kind, schema, hplace, hschema, ?_⟩
    rw [← eq_of_beq hname]
    exact List.mem_map_of_mem (List.getElem_mem hbound)

end Disk

namespace Run

theorem isFurnished_before (run : Run) {x : Execution} (hx : x ∈ run.executions) :
    x.before.IsFurnished ∧ x.command.isWellNamed = true := by
  obtain ⟨earlier, later, hexecutions, htrace⟩ := run.trace.before hx
  exact ⟨⟨htrace.isSound run.isSound_first, htrace.isFurnished run.isSound_first
    (Engine.isOpen_openOn run.opened) run.isFurnished_first⟩, run.trace.isWellNamed x hx⟩

/-- What has a schema has a table, unless a directory of the log has the name of the table's
file. -/
theorem isTable_or_directory (run : Run) {home : Path} {name text : String}
    (hschema : run.last.disk.at? (Path.schemaPlace home name) = some (.file text)) :
    (∃ rows, run.last.disk.at? (Path.tablePlace home name) = some (.file rows)) ∨
      run.first.disk.at? (Path.tablePlace home name) = some .directory := by
  cases hplace : run.last.disk.at? (Path.tablePlace home name) with
  | none => exact absurd hplace (run.isFurnished_last.placed home name text hschema)
  | some entry =>
  cases entry with
  | file rows => exact .inl ⟨rows, rfl⟩
  | directory =>
    have hundotted := run.trace.undotted run.isSound_first (Engine.isOpen_openOn run.opened)
    have hdotted : ¬Path.IsUndotted (Path.tablePlace home name) :=
      fun hno => hno.not_endsIn (by decide) (Path.endsIn_tablePlace home name)
    exact .inr ((hundotted.unmade hdotted).1 hplace)

/-- After every run tables, schemas and indexes belong together. A schema has a table, unless a
directory of the log was there first, and a name is not that of both a table and a view, unless a
view was stored where there was no room for a schema. No statement misses the file of a table, and
neither does one that a trigger executes. -/
theorem isConsistent_last (run : Run) :
    run.last.disk.IsConsistent ∧
      (∀ home name, (run.last.disk.fileAt? (Path.schemaPlace home name)).isSome = true →
        (run.last.disk.fileAt? (Path.tablePlace home name)).isSome = true ∨
          run.first.disk.at? (Path.tablePlace home name) = some .directory) ∧
      (∀ home name, (∀ x ∈ run.executions, x.leavesRoom name = true) →
        (run.last.disk.fileAt? (Path.viewPlace home name)).isSome = true →
          (run.last.disk.fileAt? (Path.schemaPlace home name)).isSome = false) ∧
      (∀ x ∈ run.executions, ∀ budget failure after,
        Engine.executeWithin budget x.who x.command x.before = (.error failure, after) →
          failure.lacksTable = false) ∧
      ∀ session text failure after,
        Engine.run session text run.last = (.error failure, after) →
          failure.lacksTable = false := by
  have hsound := run.isSound_last
  have hfurnished := run.isFurnished_last
  refine ⟨hfurnished.isConsistent hsound.disk, fun home name hschema => ?_,
    fun home name hroom hview => ?_, fun x hx budget failure after hfails => ?_,
    fun session text failure after hfails => ?_⟩
  · obtain ⟨text, htext⟩ := Disk.isSome_fileAt?.1 hschema
    exact (run.isTable_or_directory htext).imp_left Disk.isSome_fileAt?.2
  · obtain ⟨text, htext⟩ := Disk.isSome_fileAt?.1 hview
    rw [← Bool.not_eq_true, Disk.isSome_fileAt?]
    rintro ⟨found, hfound⟩
    have hname := hfurnished.named home name found hfound
    have hnone := run.hasOwnViews_last hname hroom home text htext
    exact absurd (hfound.symm.trans hnone) (by simp)
  · obtain ⟨hbefore, hnamed⟩ := run.isFurnished_before hx
    exact hbefore.failsAs_executeWithin budget x.who hnamed failure (congrArg Prod.fst hfails)
  · exact Engine.IsFurnished.failsAs_run ⟨hsound, hfurnished⟩ session text failure
      (congrArg Prod.fst hfails)

/-- A table, an index, and a view. -/
def furnished : Run :=
  .script "asep" "kantor"
    ["CREATE TABLE t id:INT:PK, nama:STRING", "INSERT t 1|a", "INDEX t ON nama",
      "CREATE VIEW v AS SELECT * FROM t"]

theorem isConsistent_last_furnished :
    furnished.last.disk.IsConsistent ∧
      (furnished.last.disk.fileAt? (Path.tablePlace ["db_kantor"] "t")).isSome = true ∧
      (furnished.last.disk.fileAt? (Path.schemaPlace ["db_kantor"] "v")).isSome = false ∧
      (Engine.run (some author) "INSERT v 1" furnished.last).1 = .error (.unknownTable "v") ∧
      (Error.unknownTable "v").lacksTable = false := by
  have hrun : (∀ x ∈ furnished.executions, x.leavesRoom "v" = true) ∧
      (furnished.last.disk.fileAt? (Path.schemaPlace ["db_kantor"] "t")).isSome = true ∧
      furnished.first.disk.at? (Path.tablePlace ["db_kantor"] "t") = none ∧
      (furnished.last.disk.fileAt? (Path.viewPlace ["db_kantor"] "v")).isSome = true ∧
      (Engine.run (some author) "INSERT v 1" furnished.last).1 = .error (.unknownTable "v") := by
    decide +kernel
  obtain ⟨hroom, hschema, hfree, hview, hfails⟩ := hrun
  obtain ⟨hconsistent, htables, hviews, -, hfinds⟩ := furnished.isConsistent_last
  have htable := (htables ["db_kantor"] "t" hschema).resolve_right (by simp [hfree])
  have hnone := hviews ["db_kantor"] "v" hroom hview
  generalize furnished.last = e at *
  exact ⟨hconsistent, htable, hnone, hfails,
    hfinds (some author) "INSERT v 1" _ _ (Prod.ext hfails rfl)⟩

end Run

/-! ### A way that is too long

Slashes behind the name of a database lead nowhere else, but they make the way longer. With as many
of them as there may be before the name of a view, the schema of that name is out of reach.
-/

/-- The name of the database with slashes behind it. -/
def Database.slashed (count : Nat) : String :=
  "kantor" ++ String.ofList (List.replicate count '/')

namespace Path

open Database

theorem splitOn_append_replicate {s : List Char} (h : '/' ∉ s) (count : Nat) :
    (s ++ List.replicate count '/').splitOn '/' = s :: List.replicate count [] := by
  induction s with
  | nil =>
    induction count with
    | zero => rfl
    | succ count ih =>
      rw [List.nil_append] at ih
      rw [List.nil_append, List.replicate_succ, List.splitOn_cons_eq_if_modifyHead,
        if_pos (by decide), ih]
      rfl
  | cons c rest ih =>
    rw [List.mem_cons, not_or] at h
    rw [List.cons_append, List.splitOn_cons_eq_if_modifyHead, if_neg (by simpa using Ne.symm h.1),
      ih h.2]
    rfl

theorem database_slashed (count : Nat) :
    database (slashed count) = "db_kantor" :: List.replicate count "" := by
  have hlist : (Settings.directoryName (slashed count)).toList
      = "db_kantor".toList ++ List.replicate count '/' := by
    simp [Settings.directoryName, slashed]
  have hhead : ¬((Settings.directoryName (slashed count)).toList.head? == some '/') = true := by
    rw [hlist]
    simp
  rw [database, below, if_neg hhead, ofName, hlist, splitOn_append_replicate (by decide)]
  simp

theorem size_slashed (count : Nat) (rest : Path) :
    (database (slashed count) ++ rest).size = 10 + count + rest.size := by
  have hname : "db_kantor".utf8ByteSize = 9 := by decide
  simp [database_slashed, size, hname, List.sum_append]
  omega

theorem isSound_slashed {count : Nat} {rest : Path}
    (hrest : ∀ part ∈ rest, Char.ofNat 0 ∉ part.toList) :
    (database (slashed count) ++ rest).isSound = true ↔ 10 + count + rest.size ≤ 4096 := by
  rw [isSound_iff, size_slashed]
  refine ⟨And.right, fun hsize => ⟨fun part hpart => ?_, hsize⟩⟩
  rw [database_slashed, List.cons_append, List.mem_cons, List.mem_append,
    List.mem_replicate] at hpart
  rcases hpart with rfl | ⟨-, rfl⟩ | hpart
  · decide
  · decide
  · exact hrest part hpart

end Path

section Slashed

open Database

variable {disk : Disk} {count : Nat}

theorem Disk.follow_replicate (disk : Disk) (here : Path) (count : Nat) :
    disk.follow here (List.replicate count "") = .ok (here, .directory) := by
  induction count with
  | zero => rfl
  | succ count ih =>
    rw [List.replicate_succ, follow, if_pos (by decide)]
    exact ih

theorem Database.liesAt_slashed (hcount : 10 + count ≤ 4096)
    (hhome : disk.at? ["db_kantor"] = some .directory) :
    LiesAt disk (slashed count) ["db_kantor"] := by
  have hsound : (Path.database (slashed count)).isSound = true := by
    have hiff := @Path.isSound_slashed count [] (by simp)
    rw [List.append_nil] at hiff
    exact hiff.2 hcount
  rw [LiesAt, Disk.locate, if_pos hsound, Path.database_slashed, Disk.follow, if_neg (by decide)]
  rw [if_neg (by decide), if_neg (by decide), if_pos (by decide), List.nil_append, hhome]
  exact Disk.follow_replicate disk _ count

/-- Whatever lies there, no schema is seen. -/
theorem Engine.hasSchema_slashed (hcount : 4072 < count) (disk : Disk) :
    hasSchema disk (slashed count) "v" = false := by
  have hlong : (Path.schema (slashed count) "v").isSound = false := by
    have hsize : Path.size (["schema"] ++ ["v" ++ ".json"]) = 14 := by decide
    rw [Path.schema_of_isValid _ (by decide), Path.schemas, List.append_assoc, ← Bool.not_eq_true,
      Path.isSound_slashed (by decide)]
    omega
  unfold hasSchema Disk.hasEntry Disk.entryAt Disk.locate
  rw [hlong]
  rfl

theorem View.save_slashed (hcount : count ≤ 4079)
    (hhome : disk.at? ["db_kantor"] = some .directory)
    (hfree : disk.at? (Path.viewPlace ["db_kantor"] "v") = none) (query : String) :
    save (slashed count) "v" query disk
      = (.ok (), disk.put (Path.viewPlace ["db_kantor"] "v") (.file query)) := by
  have hhere := @liesAt_slashed disk count (by omega) hhome
  have hplace : disk.filePlace? (Path.view (slashed count) "v")
      = some (Path.viewPlace ["db_kantor"] "v") := by
    have hsize : Path.size ["v" ++ ".view"] = 7 := by decide
    have hdirectory : disk.at? (["db_kantor"] ++ ["v" ++ ".view"]) ≠ some .directory := by
      rw [Path.viewPlace] at hfree
      rw [hfree]
      simp
    rw [Path.view_of_isValid _ (by decide)]
    exact Disk.filePlace?_append ((Path.isSound_slashed (by decide)).2 (by omega))
      (Path.isPlain_of_length (by decide)) (by decide) hhere hdirectory
  rw [save, Action.read_bind, hhere.require]
  exact Disk.writeFile_of_place hplace query

end Slashed

namespace Engine

variable {e : Engine}

/-- What stores a view where none of its name has a schema. -/
theorem effect_of_save (executing : Executing) {who : Identity} {database name query : String}
    {disk : Disk} (hauthorize : authorize who (.createView name query) e.role = .ok ())
    (hdatabase : who.requireDatabase = .ok database)
    (hnew : hasSchema e.disk database name = false)
    (hsave : View.save database name query e.disk = (.ok (), disk)) :
    ∃ outcome, effect executing who (.createView name query) e
      = (.ok (.ofOutcome outcome), { e with disk }) := by
  have hstep : onDisk (View.save database name query) e = (.ok (), { e with disk }) := by
    rw [onDisk, Action.onPart_apply, hsave]
  have hcreate : ∃ outcome, createView database name query e = (.ok outcome, { e with disk }) := by
    rw [createView, look_bind, hnew, if_neg (by simp)]
    exact ⟨_, Action.bind_of_ok hstep⟩
  obtain ⟨outcome, hcreate⟩ := hcreate
  refine ⟨outcome, ?_⟩
  rw [effect_of_authorize hauthorize hdatabase (by simp) (by simp), effectIn, Action.map_apply,
    hcreate]
  rfl

end Engine

namespace Run

/-- The author, who writes slashes behind the name of the database. -/
def roundabout (count : Nat) : Identity :=
  ⟨"asep", .supermaung, some (Database.slashed count)⟩

/-- A table. -/
def oneTable : Run :=
  .script "asep" "kantor" ["CREATE TABLE v id:INT"]

/-- A table, then a view of its name. -/
def viewOfTable (count : Nat) : Run :=
  .standard (oneTable.events
    ++ [.statement (some (roundabout count)) "CREATE VIEW v AS SELECT * FROM v"])

theorem disk_viewOfTable {count : Nat} (hcount : 4072 < count ∧ count ≤ 4079) :
    (viewOfTable count).last.disk
      = oneTable.last.disk.put (Path.viewPlace ["db_kantor"] "v") (.file "SELECT * FROM v") := by
  have hrun : Statement.parse "CREATE VIEW v AS SELECT * FROM v"
        = .ok (.createView "v" "SELECT * FROM v") ∧
      oneTable.last.role = .master ∧ oneTable.last.disk.at? ["db_kantor"] = some .directory ∧
      oneTable.last.disk.at? (Path.viewPlace ["db_kantor"] "v") = none := by
    decide +kernel
  obtain ⟨hparse, hrole, hhome, hfree⟩ := hrun
  have hlast : (viewOfTable count).last = (Engine.run (some (roundabout count))
      "CREATE VIEW v AS SELECT * FROM v" oneTable.last).2 := by
    simp only [Run.last, Run.afterEvents, viewOfTable, standard, List.foldl_append,
      List.foldl_cons, List.foldl_nil]
    rfl
  rw [hlast]
  generalize oneTable.last = e at *
  have hdatabase : (roundabout count).requireDatabase = .ok (Database.slashed count) := by
    rw [roundabout, Identity.requireDatabase]
    simp [Database.slashed]
  have hauthorize : Engine.authorize (roundabout count) (.createView "v" "SELECT * FROM v") e.role
      = .ok () := by
    rw [hrole]
    unfold Engine.authorize
    rw [hdatabase]
    rfl
  obtain ⟨outcome, hdone⟩ := Engine.effect_of_save
    (Engine.executeWithin e.settings.nestingLimit) hauthorize hdatabase
    (Engine.hasSchema_slashed hcount.1 e.disk)
    (View.save_slashed hcount.2 hhome hfree "SELECT * FROM v")
  have hnone : (Engine.effect (Engine.executeWithin e.settings.nestingLimit) (roundabout count)
      (.createView "v" "SELECT * FROM v") e).1.map Engine.Effect.firing = .ok none := by
    rw [hdone]
    rfl
  rw [Engine.run_of_parse hparse, (Engine.perform_of_ok hnone (by simp)).2, hdone]

/-- A schema may be without its table, and a name be that of both a table and a view. -/
theorem not_isConsistent_last :
    (¬∀ (run : Run) (home : Path) (name : String),
      (run.last.disk.fileAt? (Path.schemaPlace home name)).isSome = true →
        (run.last.disk.fileAt? (Path.tablePlace home name)).isSome = true) ∧
    ¬∀ (run : Run) (home : Path) (name : String),
      (run.last.disk.fileAt? (Path.viewPlace home name)).isSome = true →
        (run.last.disk.fileAt? (Path.schemaPlace home name)).isSome = false := by
  constructor
  · intro h
    have hrun : (logInTable.last.disk.fileAt? (Path.schemaPlace ["db_kantor"] "t")).isSome = true ∧
        (logInTable.last.disk.fileAt? (Path.tablePlace ["db_kantor"] "t")).isSome = false := by
      decide +kernel
    obtain ⟨hschema, htable⟩ := hrun
    exact absurd (h logInTable _ _ hschema) (by simp [htable])
  · intro h
    have hdisk := @disk_viewOfTable 4075 (by omega)
    have hrun : (oneTable.last.disk.fileAt? (Path.schemaPlace ["db_kantor"] "v")).isSome
        = true := by
      decide +kernel
    have hschema := h (viewOfTable 4075) ["db_kantor"] "v" (by rw [hdisk]; simp [Disk.fileAt?_put])
    rw [hdisk, Disk.fileAt?_put, if_neg (by decide), hrun] at hschema
    cases hschema

end Run

end FlatFileDb
