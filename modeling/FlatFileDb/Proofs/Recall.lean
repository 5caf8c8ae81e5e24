import FlatFileDb.Proofs.Prefix

/-!
# Schemas that stay as they were read

A schema that was read once may be read from its file or from memory ever after: no file that holds
one is written again. The only other files with the ending of a schema are those of triggers, and
none of these can be taken for a schema, whatever way leads to it. `Disk.Recalls` says so of one
operation, and every operation of the engine is placed in it.
-/

namespace FlatFileDb

/-- A trigger is no schema: it has no database. -/
theorem Trigger.ofJson?_toJson (trigger : Trigger) :
    (Json.ofText? (trigger.toJson.indented 0)).bind TableSchema.ofJson? = none := by
  have hwhole : Json.isWhole trigger.toJson = true := by
    simp [toJson, Json.isWhole, Json.membersAreWhole]
  rw [Json.ofText?_indented hwhole]
  rfl

namespace Disk

/-- Schema files lie in directories, and no trigger file holds a schema. -/
structure IsFiled (disk : Disk) : Prop where
  folders : ∀ home name text, disk.at? (Path.schemaPlace home name) = some (.file text) →
    disk.at? (home ++ ["schema"]) = some .directory
  triggers : ∀ home file text, Path.EndsIn ".json" (home ++ ["triggers"] ++ [file]) →
    disk.at? (home ++ ["triggers"] ++ [file]) = some (.file text) →
      (Json.ofText? text).bind TableSchema.ofJson? = none

theorem isFiled_empty : IsFiled empty :=
  ⟨fun _ _ _ h => absurd h (by simp), fun _ _ _ _ h => absurd h (by simp)⟩

/-- Every schema that could be read can still be read, and is the same. -/
structure Recalls (disk disk' : Disk) : Prop where
  filed : disk.IsFiled → disk'.IsFiled
  schema : disk.IsFiled → ∀ database table schema,
    Engine.readSchema disk database table = .ok schema →
      Engine.readSchema disk' database table = .ok schema

instance : IsPreorder Disk Recalls where
  refl _ := ⟨id, fun _ _ _ _ h => h⟩
  trans _ _ _ h h' := ⟨fun hfiled => h'.filed (h.filed hfiled), fun hfiled database table schema hread =>
    h'.schema (h.filed hfiled) database table schema (h.schema hfiled database table schema hread)⟩

variable {disk disk' : Disk}

theorem Recalls.of_isFiled (h : disk.IsFiled → Recalls disk disk') : Recalls disk disk' :=
  ⟨fun hfiled => (h hfiled).filed hfiled, fun hfiled => (h hfiled).schema hfiled⟩

/-- No file with the ending of schemas and triggers is written. -/
def SparesDefinitions : Disk → Disk → Prop :=
  Grows (fun _ => True) fun place => ¬Path.EndsIn ".json" place

instance : IsPreorder Disk SparesDefinitions :=
  inferInstanceAs (IsPreorder Disk (Grows _ _))

theorem Grows.sparesDefinitions {made written : Path → Prop} (h : Grows made written disk disk')
    (hwritten : ∀ place, written place → ¬Path.EndsIn ".json" place) :
    SparesDefinitions disk disk' :=
  h.mono (fun _ _ => trivial) hwritten

/-- Files with other endings do not matter. -/
theorem SparesDefinitions.recalls (h : SparesDefinitions disk disk') : Recalls disk disk' where
  filed hfiled :=
    { folders := fun home name text htext => h.directory <| hfiled.folders home name text <|
        (h.unwritten fun hno => hno (Path.endsIn_schemaPlace home name)).1 htext
      triggers := fun home file text hends htext => hfiled.triggers home file text hends <|
        (h.unwritten fun hno => hno hends).1 htext }
  schema _ database table schema hread :=
    Engine.readSchema_of_textAt (fun text htext => h.textAt htext fun place hplace hno =>
      hno ((Path.endsIn_below _ table (by decide)).congr hplace)) hread

theorem recalls_of_spares {α : Type} {step : Action Disk α}
    (h : Action.Within SparesDefinitions step) : Action.Within Recalls step :=
  h.mono fun _ _ hspares => hspares.recalls

theorem Rewrites.sparesDefinitions {written : Path → Prop} (h : Rewrites written disk disk')
    (hwritten : ∀ place, written place → ¬Path.EndsIn ".json" place) :
    SparesDefinitions disk disk' :=
  h.grows.sparesDefinitions hwritten

/-- A file with the ending of a schema may be written where no schema is. -/
theorem recalls_put {place : Path} {text : String} (hplace : disk.at? place ≠ some .directory)
    (hold : disk.IsFiled → ∀ old, disk.at? place = some (.file old) →
      (Json.ofText? old).bind TableSchema.ofJson? = none)
    (hschema : ∀ home name, place = Path.schemaPlace home name →
      disk.at? (home ++ ["schema"]) = some .directory)
    (htrigger : ∀ home file, place = home ++ ["triggers"] ++ [file] →
      (Json.ofText? text).bind TableSchema.ofJson? = none) :
    Recalls disk (disk.put place (.file text)) := by
  have hgrows : Grows (fun _ => False) (fun _ => True) disk (disk.put place (.file text)) :=
    grows_put_file trivial hplace text
  refine ⟨fun hfiled => ⟨fun home name found hfound => ?_, fun home file found hends hfound => ?_⟩,
    fun hfiled database table schema hread => ?_⟩
  · by_cases hsame : Path.schemaPlace home name = place
    · exact hgrows.directory (hschema home name hsame.symm)
    · rw [at?_put, if_neg (by simpa using hsame)] at hfound
      exact hgrows.directory (hfiled.folders home name found hfound)
  · by_cases hsame : home ++ ["triggers"] ++ [file] = place
    · rw [at?_put, if_pos (by simpa using hsame), Option.some.injEq, DiskEntry.file.injEq] at hfound
      exact hfound ▸ htrigger home file hsame.symm
    · rw [at?_put, if_neg (by simpa using hsame)] at hfound
      exact hfiled.triggers home file found hends hfound
  · obtain ⟨old, hold', hread'⟩ := Action.of_bind_eq_ok hread
    obtain ⟨found, hlocate⟩ := textAt_eq_ok.1 (textOr_eq_ok.1 hold')
    obtain ⟨-, -, -, -, -, -, hthere, -⟩ := locate_file hlocate
    have hother : found ≠ place := by
      rintro rfl
      rw [hold hfiled old hthere] at hread'
      exact absurd hread' Action.throw_ne_ok
    obtain ⟨text', hlocate', hthere'⟩ := hgrows.locate_file hlocate
    rw [at?_put, if_neg (by simpa using hother), hthere, Option.some.injEq,
      DiskEntry.file.injEq] at hthere'
    exact Engine.readSchema_of_textAt (fun text htext => by
      rw [textAt_eq_ok.2 ⟨found, hlocate⟩, Except.ok.injEq] at htext
      exact textAt_eq_ok.2 ⟨found, htext ▸ hthere' ▸ hlocate'⟩) hread

theorem sparesDefinitions_makeDirectories (path : Path) :
    Action.Within SparesDefinitions (makeDirectories path) :=
  within_makeDirectories fun _ _ _ _ _ => trivial

/-- Files of other kinds, known by their endings. -/
theorem sparesDefinitions_writeFile {path : Path} {ending : String} (h : Path.EndsIn ending path)
    (hother : ¬(ending.toList <:+ ".json".toList ∨ ".json".toList <:+ ending.toList))
    (text : String) : Action.Within SparesDefinitions (writeFile path text) :=
  within_writeFile text fun _ hplace => (h.congr hplace).not hother

theorem sparesDefinitions_appendFile {missing : Error} {path : Path} {ending : String}
    (h : Path.EndsIn ending path)
    (hother : ¬(ending.toList <:+ ".json".toList ∨ ".json".toList <:+ ending.toList))
    (text : String) : Action.Within SparesDefinitions (appendFile missing path text) :=
  .bind (.read _) fun _ => sparesDefinitions_writeFile h hother _

end Disk

/-! ### What the engine does to its disk -/

theorem Database.sparesDefinitions_create (name : String) :
    Action.Within Disk.SparesDefinitions (Database.create name) := by
  unfold Database.create
  refine .bind (.ofExcept _) fun _ => .bind .get fun disk => ?_
  split
  · exact .throw _
  · exact Disk.sparesDefinitions_makeDirectories _

theorem Table.sparesDefinitions_init (database table : String) :
    Action.Within Disk.SparesDefinitions (Table.init database table) :=
  .bind (.read _) fun _ =>
    Disk.sparesDefinitions_writeFile (Path.endsIn_table database table) (by decide) _

theorem Table.sparesDefinitions_append (database table row : String) :
    Action.Within Disk.SparesDefinitions (Table.append database table row) :=
  Disk.sparesDefinitions_appendFile (Path.endsIn_table database table) (by decide) _

theorem Table.sparesDefinitions_modify {α : Type} (database table : String)
    (f : List String → Except Error (List String × α)) :
    Action.Within Disk.SparesDefinitions (Table.modify database table f) :=
  .bind (.read _) fun _ => .bind (.ofExcept _) fun _ =>
    .bind (Disk.sparesDefinitions_writeFile (Path.endsIn_table database table) (by decide) _)
      fun _ => .pure _

theorem Index.not_endsIn_json {place : Path} (h : Path.IsIndex place) :
    ¬Path.EndsIn ".json" place := by
  obtain ⟨kind, hkind⟩ := h
  cases kind <;> exact hkind.not (by decide)

theorem Index.sparesDefinitions_build (database table column : String) (position : Nat)
    (kind : IndexKind) :
    Action.Within Disk.SparesDefinitions (Index.build database table column position kind) :=
  (Index.grows_build database table column position kind).mono
    fun _ _ h => h.sparesDefinitions fun _ => not_endsIn_json

theorem Index.sparesDefinitions_patch (database table : String)
    (change : IndexKind → String → Option (IndexData → Option IndexData)) :
    Action.Within Disk.SparesDefinitions (Index.patch database table change) :=
  (Index.rewrites_patch database table change).mono
    fun _ _ h => h.sparesDefinitions fun _ => not_endsIn_json

theorem View.sparesDefinitions_save (database name query : String) :
    Action.Within Disk.SparesDefinitions (View.save database name query) :=
  .bind (.read _) fun _ =>
    Disk.sparesDefinitions_writeFile (Path.endsIn_below _ name (by decide)) (by decide) query

theorem Trigger.recalls_save (database : String) (trigger : Trigger)
    (hname : Name.isValid trigger.definition.name = true)
    (htable : Name.isValid trigger.definition.table = true) :
    Action.Within Disk.Recalls (Trigger.save database trigger) := by
  refine .bind (.read _) fun _ =>
    .bind (Disk.recalls_of_spares (Disk.sparesDefinitions_makeDirectories _)) fun _ disk => ?_
  rcases Disk.writeFile_cases (Trigger.path database trigger.definition)
    (trigger.toJson.indented 0) disk with hwrite | ⟨place, hplace, hwrite⟩
  · rw [hwrite]
    exact refl disk
  rw [hwrite]
  obtain ⟨home, stem, rfl, hfree⟩ := Trigger.place_of_isValid hname htable hplace
  refine Disk.recalls_put hfree (fun hfiled old hold => ?_) (fun home' name hsame => ?_)
    fun _ _ _ => trigger.ofJson?_toJson
  · exact hfiled.triggers home _ old (Path.endsIn_append _) hold
  · have hparent := (List.append_inj' (List.append_inj' hsame rfl).1 rfl).2
    exact absurd hparent (by decide)

theorem Log.sparesDefinitions_write {log : Log} {settings : Settings}
    (hpath : log.path = Path.log settings) (entries : List Entry) :
    Action.Within Disk.SparesDefinitions (log.write entries) := by
  intro disk
  rcases Engine.appendFile_cases .fileFailure log.path (Text.ofLines (entries.map Log.line)) disk
    with ⟨failure, -, hwrite⟩ | ⟨before, place, -, hplace, -⟩
  · rw [Log.write, hwrite]
    exact refl disk
  · obtain ⟨front, name, home, hname, -, -, -, hplain, -⟩ := Disk.filePlace?_eq_some hplace
    rw [hpath] at hname
    exact Disk.sparesDefinitions_appendFile (hpath ▸ Path.endsIn_log hname hplain) (by decide) _ disk

theorem Log.Entry.sparesDefinitions_performAll (entries : List Log.Entry) (disk : Disk) :
    Disk.SparesDefinitions disk (performAll entries disk).2 :=
  (Log.Entry.rewrites_performAll entries disk).sparesDefinitions fun _ hends => hends.not (by decide)

/-- To open the log nothing but a log is written. -/
theorem Log.grows_openAt (settings : Settings) :
    Action.Within (Disk.Grows (fun _ => True) (Path.EndsIn ".log")) (Log.openAt (Path.log settings)) := by
  unfold Log.openAt
  refine .bind (Disk.within_makeDirectories fun _ _ _ _ _ => trivial) fun _ => .bind .get fun _ => ?_
  split
  · exact .bind (.ofExcept _) fun _ => .pure _
  · refine .bind (fun disk => ?_) fun _ => .pure _
    rcases Disk.writeFile_cases (Path.log settings) "" disk with hwrite | ⟨place, hplace, -⟩
    · rw [hwrite]
      exact refl disk
    · obtain ⟨front, name, home, hname, -, -, -, hplain, -⟩ := Disk.filePlace?_eq_some hplace
      exact Disk.within_writeFile "" (fun _ hlast => (Path.endsIn_log hname hplain).congr hlast) disk

theorem Log.sparesDefinitions_openAt (settings : Settings) :
    Action.Within Disk.SparesDefinitions (Log.openAt (Path.log settings)) :=
  (Log.grows_openAt settings).mono fun _ _ h => h.sparesDefinitions fun _ hlog => hlog.not (by decide)

theorem Run.grows_first (run : Run) :
    Disk.Grows (fun _ => True) (Path.EndsIn ".log") .empty run.first.disk := by
  obtain ⟨log, after, hlog, hfirst⟩ := Engine.openOn_eq_ok run.opened
  rw [hfirst]
  exact (Log.grows_openAt run.settings).after hlog

namespace Engine

/-- The part of the definition of a table that is done on the disk. -/
def storeSchema (database table : String) (columns : List Column) (permissions : Permissions) :
    Action Disk TableSchema := do
  Action.ofExcept (Name.check table)
  Action.ofExcept (columns.forM fun column => Name.check column.name)
  Action.read (Database.require · database)
  if ← Action.read fun disk => .ok (hasSchema disk database table) then throw (.tableExists table)
  let schema : TableSchema := { database, name := table, columns, permissions }
  Disk.makeDirectories (Path.schemas database)
  Disk.writeFile (Path.schema database table) (schema.toJson.indented 0)
  return schema

theorem onDisk_seq {α β : Type} (step : Action Disk α) (next : α → Action Disk β) :
    onDisk (step >>= next) = onDisk step >>= fun a => onDisk (next a) := by
  funext e
  rw [Action.bind_apply, onDisk, onDisk, Action.onPart_apply, Action.onPart_apply,
    Action.bind_apply]
  cases step e.disk with
  | mk result disk => cases result <;> rfl

/-- A schema is stored, then remembered. -/
theorem createSchema_eq (database table : String) (columns : List Column)
    (permissions : Permissions) :
    createSchema database table columns permissions
      = onDisk (storeSchema database table columns permissions) >>= fun schema => do
          remember database table schema
          return schema := by
  have hexcept {α : Type} (result : Except Error α) :
      onDisk (Action.ofExcept result) = Action.ofExcept result := rfl
  have hread {α : Type} (f : Disk → Except Error α) : onDisk (Action.read f) = readDisk f := rfl
  have hlook : readDisk (fun disk => .ok (hasSchema disk database table))
    = look (hasSchema · database table) := rfl
  unfold createSchema storeSchema
  simp only [onDisk_seq, hexcept, hread, hlook, bind_assoc]
  refine congrArg _ (funext fun _ => congrArg _ (funext fun _ => congrArg _ (funext fun _ =>
    congrArg _ (funext fun there => ?_))))
  cases there with
  | true => rfl
  | false =>
    simp only [Bool.false_eq_true, if_false, onDisk_seq, bind_assoc]
    rfl

theorem recalls_storeSchema (database table : String) (columns : List Column)
    (permissions : Permissions) :
    Action.Within Disk.Recalls (storeSchema database table columns permissions) := by
  intro disk
  unfold storeSchema
  rw [Action.ofExcept_bind]
  cases hname : Name.check table with
  | error failure => exact refl disk
  | ok _ =>
  dsimp only
  rw [Action.ofExcept_bind]
  cases columns.forM fun column => Name.check column.name with
  | error failure => exact refl disk
  | ok _ =>
  dsimp only
  rw [Action.read_bind]
  cases hdatabase : Database.require disk database with
  | error failure => exact refl disk
  | ok _ =>
  dsimp only
  rw [Action.read_bind]
  cases hnew : hasSchema disk database table with
  | true => exact refl disk
  | false =>
  dsimp only
  rw [if_neg (by simp)]
  refine .of_isFiled fun hfiled => ?_
  have hmade := (Disk.sparesDefinitions_makeDirectories (Path.schemas database) disk).recalls
  cases hmake : Disk.makeDirectories (Path.schemas database) disk with
  | mk result made =>
  rw [hmake] at hmade
  cases result with
  | error failure =>
    rw [Action.bind_of_error hmake]
    exact hmade
  | ok _ =>
  rw [Action.bind_of_ok hmake]
  refine IsTrans.trans _ _ _ hmade ?_
  cases hwrite : Disk.writeFile (Path.schema database table)
    ((⟨database, table, columns, permissions⟩ : TableSchema).toJson.indented 0) made with
  | mk result written =>
  cases result with
  | error failure =>
    rw [Action.bind_of_error hwrite, writeFile_error hwrite]
    exact refl made
  | ok _ =>
  rw [Action.bind_of_ok hwrite]
  have hvalid : Name.isValid table = true := by
    unfold Name.check at hname
    split at hname
    · assumption
    · exact absurd hname (by simp)
  obtain ⟨home, -, hfolder, hnone, -, rfl⟩ := schemaPlace_of_write
    (fun home text => hfiled.folders home table text) hvalid hdatabase hnew hmake hwrite
  refine Disk.recalls_put (by rw [hnone]; simp) (fun _ old hold => ?_) (fun home' name hsame => ?_)
    fun home' file hsame => ?_
  · exact absurd (hnone.symm.trans hold) (by simp)
  · obtain ⟨rfl, -⟩ := Path.schemaPlace_inj hsame
    exact hfolder
  · have hparent := (List.append_inj' (List.append_inj' hsame rfl).1 rfl).2
    exact absurd hparent (by decide)

end Engine

end FlatFileDb
