import FlatFileDb.Proofs.Stored

/-!
# What holds of every schema

Only the definition of a table writes a schema, and no command changes one. So what holds of every schema
as it is defined holds of every schema that is stored: whoever may read one table may read them all.
-/

namespace FlatFileDb

namespace Disk

/-- What holds of the schema of every table. -/
def AllSchemas (P : TableSchema → Prop) (disk : Disk) : Prop :=
  ∀ home name schema, Name.isValid name = true → disk.schemaAt? home name = some schema → P schema

variable {P : TableSchema → Prop} {disk disk' : Disk}

theorem AllSchemas.congr (h : disk.AllSchemas P)
    (hsame : ∀ home name schema, Name.isValid name = true → disk'.schemaAt? home name = some schema →
      disk.schemaAt? home name = some schema) : disk'.AllSchemas P :=
  fun home name schema hname hschema => h home name schema hname (hsame home name schema hname hschema)

theorem Keeps.schemaAt? {apart : Prop} (h : Keeps apart disk disk') {home : Path} {name : String}
    (hname : Name.isValid name = true) : disk'.schemaAt? home name = disk.schemaAt? home name := by
  rw [Disk.schemaAt?, Disk.schemaAt?]
  exact congrArg (Option.bind · _) (fileAt?_congr fun text => h.schema_iff hname)

theorem AllSchemas.keeps {apart : Prop} (h : disk.AllSchemas P) (hkeeps : Keeps apart disk disk') :
    disk'.AllSchemas P :=
  h.congr fun _ _ _ hname hschema => (hkeeps.schemaAt? hname).symm.trans hschema

theorem allSchemas_empty : empty.AllSchemas P := by
  intro home name schema _ hschema
  obtain ⟨text, htext, -⟩ := Option.bind_eq_some_iff.1 hschema
  exact absurd (fileAt?_eq_some.1 htext) (by simp)

end Disk

namespace Engine

variable {P : TableSchema → Prop} {who : Identity} {command : Command} {e e' : Engine}
  {upkeep : Upkeep}

/-- What holds of the schemas before a command and of the one that it defines holds after it. -/
theorem IsSound.allSchemas_own (h : e.IsSound) (hnamed : command.isWellNamed = true)
    (hown : Own who command e e' upkeep) (hall : e.disk.AllSchemas P)
    (hdefined : ∀ database table definition columns, command = .createTable table definition →
      Definition.columns definition = .ok columns → P ⟨database, table, columns, .standard⟩) :
    e'.disk.AllSchemas P := by
  have hother := h.keeps_own hnamed hown
  cases hown with
  | quiet hquiet =>
    rw [hquiet.disk]
    exact hall
  | createNothing hdatabase =>
    exact hall.keeps (@Disk.spares_makeDirectories_below True _ _ _ hdatabase (by decide)).keeps
  | @createTable database table definition _ columns made written hrole hcolumns hnames hdatabase hnew
      hmake hwrite =>
    obtain ⟨home, hhome, hfolder, hnone, hplace, rfl⟩ :=
      schemaPlace_of_write (h.disk.folder hnamed) hnamed hdatabase hnew hmake hwrite
    let schema : TableSchema := ⟨database, table, columns, .standard⟩
    obtain ⟨hsound, hdistinct⟩ := Definition.columns_isSound hcolumns
    have hread : (Json.ofText? (schema.toJson.indented 0)).bind TableSchema.ofJson? = some schema :=
      TableSchema.ofText_indented ⟨hsound, hdistinct, hnames⟩
    have hmade : made.AllSchemas P := hall.keeps (@spares_schemas True _ _ _ hdatabase hmake).keeps
    have hinit : Disk.Keeps True (made.put (Path.schemaPlace home table) (.file (schema.toJson.indented 0)))
        (Table.init database table
          (made.put (Path.schemaPlace home table) (.file (schema.toJson.indented 0)))).2 :=
      Table.keeps_init database table _
    intro home' name found hname hfound
    rw [hinit.schemaAt? hname, Disk.schemaAt?, Disk.fileAt?_put] at hfound
    split at hfound
    · rw [Option.bind_some, hread] at hfound
      rw [← Option.some.inj hfound]
      exact hdefined database table definition columns rfl hcolumns
    · exact hmade home' name found hname hfound
  | _ => exact hall.keeps (hother (by simp))

theorem allSchemas_openOn {settings : Settings} {clock : Nat} {disk : Disk} (h : disk.AllSchemas P)
    (hopened : openOn settings clock disk = .ok e) : e.disk.AllSchemas P := by
  obtain ⟨log, after, hlog, rfl⟩ := openOn_eq_ok hopened
  obtain ⟨-, -, hspares⟩ := Log.openAt_eq_ok hlog
  exact h.keeps hspares.keeps

/-- What holds of every schema that is defined holds of every schema in every trace. -/
theorem Trace.allSchemas {first : Engine} {executions : List Execution}
    (h : Trace first executions e) (hsound : first.IsSound) (hfirst : first.disk.AllSchemas P)
    (hdefined : ∀ database table columns, P ⟨database, table, columns, .standard⟩) :
    e.disk.AllSchemas P := by
  induction h with
  | start => exact hfirst
  | @command executions e e₁ who command upkeep h hnamed hown hafter ih =>
    have hdone := (h.isSound hsound).allSchemas_own hnamed hown ih
      fun database table _ columns _ _ => hdefined database table columns
    exact hdone.keeps (@Disk.keeps_of_indexes True _ _ (rewrites_of_upkeep upkeep e₁).grows)
  | createDatabase h name ih => exact ih.keeps (@Database.spares_create True name _).keeps
  | reopen h hopened ih => exact allSchemas_openOn ih hopened
  | pass h nanoseconds ih => exact ih
  | maintain h hbackground hmaintains ih =>
    exact ih.keeps (@Disk.keeps_of_indexes True _ _ hmaintains.disk.grows)
  | queue h hbackground jobs ih => exact ih

end Engine

/-- In every run the permissions of every table are the standard ones. -/
theorem Run.permissions_of_readSchema (run : Run) {database table : String} {schema : TableSchema}
    (htable : Name.isValid table = true)
    (hschema : Engine.readSchema run.last.disk database table = .ok schema) :
    schema.permissions = .standard := by
  have hfirst : run.first.disk.AllSchemas fun schema => schema.permissions = .standard :=
    Engine.allSchemas_openOn Disk.allSchemas_empty run.opened
  have hall := run.trace.allSchemas run.isSound_first hfirst fun _ _ _ => rfl
  obtain ⟨home, text, hhome, -⟩ := Engine.readSchema_eq_ok htable hschema
  exact hall home table schema htable (Disk.schemaAt?_of_readSchema htable hhome hschema)

end FlatFileDb
