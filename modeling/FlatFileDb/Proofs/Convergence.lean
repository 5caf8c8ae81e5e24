import FlatFileDb.Proofs.Capture
import FlatFileDb.Proofs.Defining
import FlatFileDb.Proofs.Form
import FlatFileDb.Proofs.Lockstep
import FlatFileDb.Proofs.Tracking
import FlatFileDb.Proofs.Unique

/-!
# Indexes that catch up

Where maintenance waits, an index is behind its table, and it may be built anew from rows whose patches
still wait. `Engine.CatchesUp` says that the patches that wait, made in order, bring every index to the
rows of its table, and that they do so over an index of these rows as well. Every command that stands
alone keeps that, and so does each job that runs. In a table that begins with its primary key no two
rows share their identifier; so with an empty queue two engines that go through the same commands, one
of them at once and the other in the background, have the same indexes.
-/

namespace FlatFileDb

/-! ### Tables that begin with their key -/

/-- The first column of a table is its primary key and may not be missing. -/
def TableSchema.HasKey (schema : TableSchema) : Prop :=
  ∃ column, schema.columns[0]? = some column ∧ column.primaryKey = true ∧ column.notNull = true

theorem Row.getElem?_fields_zero (row : String) : (Row.fields row)[0]? = some (Row.id row) := by
  have hhead (s : List Char) :
      (s.splitOn Row.delimiter).head? = some (s.takeWhile fun c => c != Row.delimiter) := by
    induction s with
    | nil => rfl
    | cons c rest ih =>
      rw [List.splitOn_cons_eq_if_modifyHead, List.takeWhile_cons]
      cases hc : c == Row.delimiter with
      | true => rw [if_pos rfl, bne, hc, if_neg (by simp), List.head?_cons]
      | false =>
        rw [if_neg (by simp), bne, hc, if_pos (by simp), List.head?_modifyHead, ih]
        rfl
  rw [Row.fields, List.getElem?_map, ← List.head?_eq_getElem?, hhead]
  rfl

/-- Rows with a primary key in front have identifiers of their own. -/
theorem TableSchema.HasKey.nodup_ids {schema : TableSchema} {rows : List String}
    (h : schema.HasKey) (hunique : schema.IsUnique rows) (htaken : Engine.AllTaken schema rows) :
    (rows.map Row.id).Nodup := by
  obtain ⟨column, hcolumn, hkey, hthere⟩ := h
  rw [List.Nodup, List.pairwise_map]
  refine (hunique 0 column hcolumn (.inr hkey)).imp_of_mem fun {first second} hfirst _ hne hsame => ?_
  have hvalue := Row.getElem?_fields_zero first
  have htakes := (htaken first hfirst).fields 0 column _ hcolumn hvalue
  cases hnull : Field.isNull (Row.id first) with
  | true => exact absurd (hthere.symm.trans (htakes.null hnull)) (by simp)
  | false => exact hne _ hnull ⟨hvalue, hsame ▸ Row.getElem?_fields_zero second⟩

namespace Disk

/-- Every table begins with its primary key. -/
def HasKeys (disk : Disk) : Prop :=
  ∀ home name schema, Name.isValid name = true → disk.schemaAt? home name = some schema → schema.HasKey

variable {disk disk' : Disk}

theorem HasKeys.congr (h : disk.HasKeys)
    (hsame : ∀ home name schema, Name.isValid name = true → disk'.schemaAt? home name = some schema →
      disk.schemaAt? home name = some schema) : disk'.HasKeys :=
  fun home name schema hname hschema => h home name schema hname (hsame home name schema hname hschema)

/-- What holds of the rows of every table holds of those in a directory. -/
theorem Holds.rowsAt? {P : TableSchema → List String → Prop} (h : disk.Holds P) {home : Path}
    {name : String} {schema : TableSchema} {rows : List String} (hname : Name.isValid name = true)
    (hschema : disk.schemaAt? home name = some schema) (hrows : disk.rowsAt? home name = some rows) :
    P schema rows := by
  obtain ⟨text, htext, hread⟩ := Option.bind_eq_some_iff.1 hschema
  obtain ⟨lines, hlines, rfl⟩ := Option.map_eq_some_iff.1 hrows
  exact h home name text schema lines hname (fileAt?_eq_some.1 htext) hread (fileAt?_eq_some.1 hlines)

end Disk

/-- Whether a command that defines a table defines its first column as the primary key. -/
def Command.definesKey : Command → Bool
  | .createTable _ definition =>
    (Definition.columns definition).toOption.all fun columns => columns.head?.any Column.primaryKey
  | _ => true

theorem TableSchema.hasKey_of_definesKey {schema : TableSchema} {table definition : String}
    (hcolumns : Definition.columns definition = .ok schema.columns)
    (h : (Command.createTable table definition).definesKey = true) : schema.HasKey := by
  rw [Command.definesKey, hcolumns] at h
  cases hfirst : schema.columns with
  | nil =>
    rw [hfirst] at h
    exact absurd h (by decide)
  | cons column rest =>
    rw [hfirst] at h
    have hkey : column.primaryKey = true := h
    exact ⟨column, by rw [hfirst]; rfl, hkey,
      Definition.notNull_of_primaryKey hcolumns (by rw [hfirst]; simp) hkey⟩

namespace Engine

variable {who : Identity} {command : Command} {e e' : Engine} {upkeep : Upkeep}

/-- Tables keep their keys, and get one when they are defined. -/
theorem IsSound.hasKeys_own (h : e.IsSound) (hnamed : command.isWellNamed = true)
    (hown : Own who command e e' upkeep) (hkeys : e.disk.HasKeys) (hcommand : command.definesKey = true) :
    e'.disk.HasKeys :=
  h.allSchemas_own hnamed hown hkeys fun database table definition columns hdefines hcolumns =>
    @TableSchema.hasKey_of_definesKey ⟨database, table, columns, .standard⟩ table definition hcolumns
      (hdefines ▸ hcommand)

end Engine

/-! ### Patches that wait -/

namespace Job

/-- The patches that jobs make one after the other. -/
inductive AllCarry (disk : Disk) : List Job → (Path → String → List Patch) → Prop where
  | nil : AllCarry disk [] fun _ _ => []
  | cons {job : Job} {rest : List Job} {patches others : Path → String → List Patch}
    (h : job.Carries disk patches) (hrest : AllCarry disk rest others) :
    AllCarry disk (job :: rest) fun home table => patches home table ++ others home table

variable {disk disk' : Disk} {job : Job} {jobs : List Job} {patches others : Path → String → List Patch}

theorem AllCarry.stillFinds (h : AllCarry disk jobs patches) (hfinds : Disk.StillFinds disk disk') :
    AllCarry disk' jobs patches := by
  induction h with
  | nil => exact .nil
  | cons h hrest ih => exact .cons (h.stillFinds hfinds) ih

theorem AllCarry.concat (h : AllCarry disk jobs patches) (hjob : job.Carries disk others) :
    AllCarry disk (jobs ++ [job]) fun home table => patches home table ++ others home table := by
  induction h with
  | nil =>
    have hone := AllCarry.cons hjob .nil
    simp only [List.append_nil] at hone
    exact hone
  | cons h hrest ih =>
    simp only [List.append_assoc]
    exact .cons h ih

theorem AllCarry.schemaAt? (h : AllCarry disk jobs patches) {home : Path} {table : String}
    (hpatches : patches home table ≠ []) : ∃ schema, disk.schemaAt? home table = some schema := by
  induction h with
  | nil => exact absurd rfl hpatches
  | @cons job rest patches others h hrest ih =>
    by_cases hfirst : patches home table = []
    · refine ih fun hno => hpatches ?_
      dsimp only
      rw [hfirst, hno]
      rfl
    · exact h.schemaAt? hfirst

end Job

namespace Engine

variable {who : Identity} {command : Command} {e e' : Engine} {upkeep : Upkeep}
  {patches others : Path → String → List Patch}

/-- What a command finds is found after it. -/
theorem IsSound.stillFinds_own (h : e.IsSound) (hnamed : command.isWellNamed = true)
    (hown : Own who command e e' upkeep) : Disk.StillFinds e.disk e'.disk := by
  refine ⟨fun database home hhome => ?_, fun database name schema hname hread =>
    h.readSchema_own hnamed hown hname hread⟩
  have hother := h.keeps_own hnamed hown
  cases hown with
  | quiet hquiet =>
    rw [hquiet.disk]
    exact hhome
  | createNothing hdatabase =>
    exact hhome.grows (@Disk.spares_makeDirectories_below True _ _ _ hdatabase (by decide)).grows
  | @createTable database table definition _ columns made written hrole hcolumns hnames hdatabase hnew
      hmake hwrite =>
    obtain ⟨place, -, -, hnone, -, hwritten⟩ :=
      schemaPlace_of_write (h.disk.folder hnamed) hnamed hdatabase hnew hmake hwrite
    have hmade : Disk.Spares True e.disk made := spares_schemas hdatabase hmake
    have hput : Disk.Grows (fun _ => True) (fun _ => True) made written := by
      rw [hwritten]
      exact Disk.grows_put_file trivial (by rw [hnone]; simp) _
    have hinit : Disk.Keeps True written (Table.init database table written).2 :=
      Table.keeps_init database table written
    exact ((hhome.grows hmade.grows).grows hput).grows hinit.grows
  | _ => exact hhome.grows (hother (by simp)).grows

/-- What is due on the indexes waits behind what waits already, or is done. -/
theorem Upkeep.Carries.waits (h : upkeep.Carries e.disk others)
    (hwaiting : Job.AllCarry e.disk e.jobs patches) (he : e.IsSound) (hindexes : e.disk.HasIndexes)
    (hidle : e.settings.background = false → e.latestJobs = []) :
    let after := (upkeep.step e).2
    after.disk.HasIndexes ∧ ∃ left, Job.AllCarry after.disk after.jobs left ∧
      ∀ home table column kind, Name.isValid table = true → Name.isValid column = true →
        e.disk.Tracks home table column kind (patches home table ++ others home table) →
          after.disk.Tracks home table column kind (left home table) := by
  intro after
  cases hbackground : e.settings.background with
  | false =>
    have hnone : e.jobs = [] := by rw [jobs, hidle hbackground, List.reverse_nil]
    have hafter : after.jobs = [] := by
      rcases upkeep_cases upkeep e with hmaintains | ⟨hyes, -⟩
      · rw [jobs, hmaintains.latestJobs, hidle hbackground, List.reverse_nil]
      · exact absurd (hyes.symm.trans hbackground) (by simp)
    have hrefiles := h.refiles he hindexes hbackground
    rw [hnone] at hwaiting
    cases hwaiting with
    | nil =>
      refine ⟨hrefiles.indexes, fun _ _ => [], by rw [hafter]; exact .nil,
        fun home table column kind htable hcolumn htracks => ?_⟩
      exact Disk.Tracks.refiled (by rwa [List.append_nil]) hrefiles htable hcolumn
  | true =>
    have hqueued {job : Job} (hafter : after = { e with latestJobs := job :: e.latestJobs })
        (hjob : job.Carries e.disk others) : after.disk.HasIndexes ∧ ∃ left,
          Job.AllCarry after.disk after.jobs left ∧
            ∀ home table column kind, Name.isValid table = true → Name.isValid column = true →
              e.disk.Tracks home table column kind (patches home table ++ others home table) →
                after.disk.Tracks home table column kind (left home table) := by
      have hjobs : after.jobs = e.jobs ++ [job] := by
        rw [hafter, jobs, jobs, List.reverse_cons]
      have hdisk : after.disk = e.disk := by rw [hafter]
      rw [hjobs, hdisk]
      exact ⟨hindexes, _, hwaiting.concat hjob, fun _ _ _ _ _ _ htracks => htracks⟩
    have hsame (hafter : after = e) (hothers : others = fun _ _ => []) : after.disk.HasIndexes ∧ ∃ left,
          Job.AllCarry after.disk after.jobs left ∧
            ∀ home table column kind, Name.isValid table = true → Name.isValid column = true →
              e.disk.Tracks home table column kind (patches home table ++ others home table) →
                after.disk.Tracks home table column kind (left home table) := by
      rw [hafter, hothers]
      refine ⟨hindexes, patches, hwaiting, fun home table column kind _ _ htracks => ?_⟩
      rwa [List.append_nil] at htracks
    cases h with
    | none => exact hsame rfl rfl
    | rows h => exact hqueued (congrArg Prod.snd (dispatch_background hbackground _ _)) h
    | @applied entries _ h =>
      cases entries with
      | nil =>
        cases h
        exact hsame rfl rfl
      | cons entry rest =>
        refine hqueued ?_ h
        change (patchCommitted (entry :: rest) e).2 = _
        rw [patchCommitted, if_neg (by simp)]
        exact congrArg Prod.snd (dispatch_background hbackground _ _)

end Engine

/-! ### Blank rows -/

namespace Disk

variable {disk disk' : Disk} {home : Path} {table : String}

/-- Whether no line in the file of a table is blank. A blank row would be one, and is not read back. -/
def hasFilledRows (disk : Disk) (home : Path) (table : String) : Bool :=
  (disk.fileAt? (Path.tablePlace home table)).all fun text => (Text.lines text).all Text.isFilled

theorem isFilled_of_put {text : String} {lines : List String}
    (h : (disk.put (Path.tablePlace home table) (.file text)).hasFilledRows home table = true)
    (hlines : Text.Lists text lines) : ∀ line ∈ lines, Text.isFilled line = true := by
  rw [hasFilledRows, fileAt?_put, if_pos rfl, Option.all_some, hlines.lines, List.all_eq_true] at h
  exact h

theorem hasFilledRows_of_rewrites (h : Rewrites Path.IsIndex disk disk') (home : Path) (table : String) :
    disk'.hasFilledRows home table = disk.hasFilledRows home table := by
  rw [hasFilledRows, hasFilledRows, fileAt?, fileAt?, h.at?_eq fun hno => hno.ne_tablePlace home table rfl]

end Disk

/-- What is due to be filed are the rows added. -/
theorem Engine.Upkeep.Carries.mem_added {disk : Disk} {database table row : String} {home : Path}
    {schema : TableSchema} {removed added : List String} {patches : Path → String → List Patch}
    (h : (Upkeep.rows database schema removed added).Carries disk patches)
    (hrow : .add row ∈ patches home table) :
    Database.LiesAt disk database home ∧ table = schema.name ∧ row ∈ added := by
  cases h with
  | rows h =>
    cases h with
    | rows _ _ hhome =>
      obtain ⟨rfl, rfl, hmem⟩ := Patch.mem_of hrow
      exact ⟨hhome, rfl, by simpa using hmem⟩

namespace Engine

variable {who : Identity} {command : Command} {e e' : Engine} {upkeep : Upkeep}

/-- What is to be filed stands in its table, if nothing is committed. -/
theorem IsSound.isFilled_added (h : e.IsSound) (hnamed : command.isWellNamed = true)
    (hown : Own who command e e' upkeep) (halone : command.standsAlone = true)
    {patches : Path → String → List Patch} (hcarries : upkeep.Carries e'.disk patches) {home : Path}
    {table row : String} (hfilled : e'.disk.hasFilledRows home table = true)
    (hrow : .add row ∈ patches home table) : Text.isFilled row = true := by
  have hfinds := h.stillFinds_own hnamed hown
  have hnone {disk : Disk} (hcarries : Upkeep.none.Carries disk patches) : Text.isFilled row = true := by
    cases hcarries with
    | none => exact absurd hrow (by simp)
  cases hown with
  | commit => exact absurd halone (by simp [Command.standsAlone])
  | @insert database _ added _ e₁ schema disk hdatabase hquiet hfree hschema hadded hwrite =>
    obtain ⟨hhome, rfl, hmem⟩ := hcarries.mem_added hrow
    obtain rfl := List.mem_singleton.1 hmem
    obtain ⟨-, -, hname⟩ := h.knownSchema hnamed hschema
    rw [← hname] at hwrite
    rcases appendFile_cases (.tableFileMissing schema.name) (Path.table database schema.name) (row ++ "\n")
      e.disk with ⟨failure, -, hfailed⟩ | ⟨before, place, hbefore, hplace, happended⟩
    · exact absurd (congrArg Prod.fst (hfailed.symm.trans hwrite)) (by simp)
    obtain rfl : _ = disk := congrArg Prod.snd (happended.symm.trans hwrite)
    obtain ⟨place', hlocate⟩ := Disk.textAt_eq_ok.1 hbefore
    obtain rfl := Option.some.inj ((Disk.filePlace?_of_file hlocate).symm.trans hplace)
    obtain ⟨home', text, hhome', hlocate', hthere, -⟩ :=
      Table.rows_eq_ok (hname ▸ hnamed) (Table.rows_of_locate hlocate)
    have hsame := hlocate.symm.trans hlocate'
    rw [Except.ok.injEq, Prod.mk.injEq, DiskEntry.file.injEq] at hsame
    obtain ⟨rfl, rfl⟩ := hsame
    obtain rfl := hhome.unique (hfinds.homes _ _ hhome')
    obtain ⟨lines, hlines⟩ := h.disk.lines _ _ hthere (Path.endsIn_tablePlace _ _)
    exact Disk.isFilled_of_put hfilled (hlines.append (isLine_of_checkRow hadded)) row (by simp)
  | @update database _ assigned conditions _ e₁ schema assignments rows after changed disk
      hdatabase hquiet hfree hschema hassigned hrows hupdate hwrite =>
    obtain ⟨-, -, rfl⟩ := h.knownSchema hnamed hschema
    obtain ⟨home', hhome', rfl⟩ := write_of_rows hnamed hrows hwrite
    have hlines := (isLine_update hassigned hupdate fun row hrow => (h.disk.row hrows row hrow).1).1
    obtain ⟨rfl, rfl, -⟩ := TableSchema.update_eq_ok hupdate
    split at hcarries
    · exact hnone hcarries
    obtain ⟨hhome, rfl, hmem⟩ := hcarries.mem_added hrow
    obtain rfl := hhome.unique (hfinds.homes _ _ hhome')
    rw [List.map_map, List.mem_map] at hmem
    obtain ⟨before, hbefore, rfl⟩ := hmem
    rw [List.mem_filter] at hbefore
    exact Disk.isFilled_of_put hfilled (Text.lists_ofLines hlines) _
      (List.mem_map.2 ⟨before, hbefore.1, if_pos hbefore.2⟩)
  | @delete database table conditions _ e₁ schema rows disk =>
    split at hcarries
    · exact hnone hcarries
    · obtain ⟨-, -, hmem⟩ := hcarries.mem_added hrow
      exact absurd hmem (by simp)
  | _ => exact hnone hcarries

end Engine

/-! ### Catching up -/

/-- Without transactions nothing is applied. -/
theorem Execution.applications_of_free {x : Execution} (h : x.before.transactions = .empty) :
    x.applications = [] := by
  rw [applications, h, Keyed.get?_empty]
  split
  · rename_i hno
    exact absurd hno (by simp)
  · rfl

namespace Engine

/-- Once the patches that wait are made, every index lists the rows of its table; exact ones do if the
table is always `filled`, without blank rows. -/
structure CatchesUp (filled : Path → String → Prop) (e : Engine) : Prop where
  sound : e.IsSound
  indexes : e.disk.HasIndexes
  keys : e.disk.HasKeys
  unique : e.disk.IsUnique
  taken : e.disk.Holds AllTaken
  tracks : ∃ patches, Job.AllCarry e.disk e.jobs patches ∧
    ∀ home table column kind, Name.isValid table = true → Name.isValid column = true →
      (kind = .exact → filled home table) → e.disk.Tracks home table column kind (patches home table)

namespace CatchesUp

variable {filled : Path → String → Prop} {e e' : Engine} {who : Identity} {command : Command}
  {upkeep : Upkeep}

theorem hasDistinct (h : e.CatchesUp filled) {home : Path} {table : String}
    (htable : Name.isValid table = true) : e.disk.HasDistinct home table :=
  fun schema _ hschema hrows => (h.keys home table schema htable hschema).nodup_ids
    ((Disk.isUnique_iff.1 h.unique).rowsAt? htable hschema hrows) (h.taken.rowsAt? htable hschema hrows)

/-- A command that stands alone leaves no index farther behind than its patches. -/
theorem own (h : e.CatchesUp filled) (hnamed : command.isWellNamed = true)
    (hown : Own who command e e' upkeep) (halone : command.standsAlone = true)
    (hkey : command.definesKey = true)
    (hroom : ∀ database, who.requireDatabase = .ok database → Database.hasRoom database = true)
    (hfree : e.transactions = .empty) (hidle : e.settings.background = false → e.latestJobs = [])
    (hfilled : ∀ home table, filled home table → e'.disk.hasFilledRows home table = true) :
    (upkeep.step e').2.CatchesUp filled := by
  have hsound := h.sound.own hnamed hown
  have happlied : Execution.applications ⟨who, command, e⟩ = [] := Execution.applications_of_free hfree
  obtain ⟨hindexes, others, hcarries, hfollows⟩ :=
    h.sound.follows_own hnamed hown h.indexes hroom (by simp [hfree])
  obtain ⟨patches, hwaiting, htracks⟩ := h.tracks
  obtain ⟨hsettings, hlatest⟩ := hown.frame
  have hwaiting' : Job.AllCarry e'.disk e'.jobs patches := by
    rw [jobs, hlatest]
    exact hwaiting.stillFinds (h.sound.stillFinds_own hnamed hown)
  obtain ⟨hindexes', left, hleft, hlater⟩ :=
    hcarries.waits hwaiting' hsound hindexes (by rwa [hsettings, hlatest])
  have hrewrites := rewrites_of_upkeep upkeep e'
  refine ⟨hsound.upkeep upkeep, hindexes', ?_, ?_, ?_, left, hleft,
    fun home table column kind htable hcolumn hkind => ?_⟩
  · exact (h.sound.hasKeys_own hnamed hown h.keys hkey).congr fun home name schema _ hschema =>
      (Disk.schemaAt?_of_rewrites hrewrites home name).symm.trans hschema
  · refine Disk.isUnique_iff.2 (holds_upkeep upkeep (Disk.isUnique_iff.1 ?_))
    exact isUnique_own h.sound h.unique hnamed hown (by rw [Execution.staysUnique, happlied]; rfl)
  · refine holds_upkeep upkeep (h.sound.holds_own hnamed hown h.taken (fun _ _ hno => absurd hno (by simp))
      (fun _ _ _ _ _ _ _ hchanges hrows row hrow => ?_) fun a ha => ?_)
    · exact hchanges.allTaken hrows row (List.mem_filter.1 hrow).1
    · rw [happlied] at ha
      exact absurd ha (by simp)
  · refine hlater home table column kind htable hcolumn (hfollows home table column kind _ htable hcolumn
      ⟨h.hasDistinct htable, ?_⟩ (fun hexact row hrow => ?_) (fun hne => hwaiting.schemaAt? hne)
      (htracks home table column kind htable hcolumn hkind))
    · rw [happlied]
      simp
    · exact h.sound.isFilled_added hnamed hown halone hcarries (hfilled home table (hkind hexact)) hrow

/-- What has nothing to do with tables and indexes leaves them where they are. -/
theorem spares (h : e.CatchesUp filled) {disk : Disk} (hspares : Disk.Spares True e.disk disk)
    (hsound : IsSound { e with disk }) : CatchesUp filled { e with disk } := by
  obtain ⟨patches, hwaiting, htracks⟩ := h.tracks
  have hindexes := hspares.sparesIndexes trivial
  refine ⟨hsound, hindexes.hasIndexes h.indexes, h.keys.congr fun home name schema hname hschema => ?_,
    Disk.isUnique_iff.2 ((Disk.isUnique_iff.1 h.unique).spares hspares.sparesRows),
    h.taken.spares hspares.sparesRows, patches, hwaiting.stillFinds hspares.keeps.stillFinds,
    fun home table column kind htable hcolumn hkind => ?_⟩
  · exact (hspares.keeps.schemaAt? hname).symm.trans hschema
  · exact (htracks home table column kind htable hcolumn hkind).spares h.indexes hindexes htable hcolumn
      (hspares.rowsAt? home table)

/-- The job that has waited longest makes its patches, and nothing else happens. -/
theorem runOldest (h : e.CatchesUp filled) {job : Job} {rest : List Job} (hjobs : e.jobs = job :: rest) :
    Maintains { e with latestJobs := rest.reverse } e.runOldest ∧ e.runOldest.CatchesUp filled := by
  obtain ⟨patches, hwaiting, htracks⟩ := h.tracks
  rw [hjobs] at hwaiting
  cases hwaiting with
  | @cons _ _ patches others hjob hrest =>
  let before := { e with latestJobs := rest.reverse }
  have hsound : before.IsSound :=
    h.sound.step rfl (refl e.disk) rfl (fun _ _ hkey => .inl hkey) h.sound.waiting
  have hfinds : Disk.StillFinds e.disk before.disk := refl e.disk
  obtain ⟨e', hrun, hmaintains, hrefiles⟩ := hjob.refiles hfinds hsound h.indexes executeWithin
  have hafter : e.runOldest = e' := (runOldest_of_jobs hjobs).trans (congrArg Prod.snd hrun)
  have hindexed := Disk.sparesRows_of_indexes hmaintains.disk.grows
  have hkeeps : Disk.Keeps True e.disk e'.disk := Disk.keeps_of_indexes hmaintains.disk.grows
  have hleft : e'.jobs = rest := by rw [jobs, hmaintains.latestJobs, List.reverse_reverse]
  rw [hafter]
  refine ⟨hmaintains, hsound.maintains hmaintains, hrefiles.indexes,
    h.keys.congr fun home name schema _ hschema => ?_,
    Disk.isUnique_iff.2 ((Disk.isUnique_iff.1 h.unique).spares hindexed), h.taken.spares hindexed,
    others, ?_,
    fun home table column kind htable hcolumn hkind => ?_⟩
  · exact (Disk.schemaAt?_of_rewrites hmaintains.disk home name).symm.trans hschema
  · rw [hleft]
    exact hrest.stillFinds hkeeps.stillFinds
  · exact (htracks home table column kind htable hcolumn hkind).refiled hrefiles htable hcolumn

end CatchesUp

end Engine

/-! ### Two engines -/

/-- Whether a command stands alone, begins a table with its key if it defines one, and is for a database
that leaves room for index files. -/
def Command.isPlain (who : Identity) (command : Command) : Bool :=
  command.standsAlone && command.definesKey && who.requireDatabase.toOption.all Database.hasRoom

/-- Whether what somebody asks for is allowed, if it can be read, and nothing is opened anew. -/
def Event.asksFor (allowed : Identity → Command → Bool) : Event → Bool
  | statement (some who) text => (Statement.parse text).toOption.all (allowed who)
  | reopen => false
  | _ => true

/-- Two indexes list the same identifiers under every key. -/
def IndexData.SameIds (data other : IndexData) : Prop :=
  ∀ key id, id ∈ other.idsAt key ↔ id ∈ data.idsAt key

namespace Disk

variable {disk disk' : Disk} {home : Path} {table column : String} {kind : IndexKind} {data : IndexData}

theorem HasIndexes.isIndexFile (h : disk.HasIndexes) (htable : Name.isValid table = true)
    (hcolumn : Name.isValid column = true)
    (hdata : disk.indexAt? (Path.indexPlace home table column kind) = some data) :
    disk.IsIndexFile home table column kind data := by
  obtain ⟨text, htext, -⟩ := Option.bind_eq_some_iff.1 hdata
  obtain ⟨data', hfile⟩ := h.file htable (Name.not_mem hcolumn (by decide)) (fileAt?_eq_some.1 htext)
  obtain rfl := Option.some.inj (hfile.indexAt?.symm.trans hdata)
  exact hfile

/-- Where an index is, one stays if nothing but indexes is written anew. -/
theorem HasIndexes.isIndexFile_of_rewrites (h' : disk'.HasIndexes)
    (hrewrites : Rewrites Path.IsIndex disk disk') (hfile : disk.IsIndexFile home table column kind data) :
    ∃ data', disk'.IsIndexFile home table column kind data' := by
  obtain ⟨entry, hentry⟩ := hrewrites.exists_at? hfile.entry
  exact h'.file hfile.validTable (Name.not_mem hfile.validColumn (by decide)) hentry

/-- An index is on a table that is there. -/
theorem IsIndexFile.exists_rowsAt? (h : disk.IsIndexFile home table column kind data)
    (hapart : disk.IsApart) : ∃ rows, disk.rowsAt? home table = some rows := by
  obtain ⟨position, hposition⟩ := h.indexed
  obtain ⟨schema, hschema, -⟩ := Option.bind_eq_some_iff.1 hposition
  obtain ⟨text, htext, -⟩ := Option.bind_eq_some_iff.1 hschema
  obtain ⟨lines, hlines⟩ := hapart.tables home table text h.validTable (fileAt?_eq_some.1 htext)
  exact ⟨_, by rw [rowsAt?, fileAt?_eq_some.2 hlines]; rfl⟩

end Disk

namespace Engine

/-- One engine patches indexes at once and the other in the background, and both catch up. -/
structure Converging (filled : Path → String → Prop) (first second : Engine) : Prop where
  aligned : Aligned first second
  first : first.CatchesUp filled
  second : second.CatchesUp filled

/-- The queue of an engine may be any as far as the other one can tell. -/
theorem Aligned.withJobs {first second : Engine} (h : Aligned first second) (jobs : List Job) :
    Aligned first { second with latestJobs := jobs } :=
  { h with }

namespace Converging

variable {filled : Path → String → Prop} {first second : Engine}

/-- With an empty queue both have the same indexes. -/
theorem sameIds (h : Converging filled first second) (hapart : first.settings.isApart = true)
    (hidle : second.jobs = []) {home : Path} {table column : String} {kind : IndexKind}
    {data data' : IndexData}
    (hfile : first.disk.IsIndexFile home table column kind data)
    (hfile' : second.disk.IsIndexFile home table column kind data')
    (hkind : kind = .exact → filled home table) :
    data.SameIds data' := by
  have htracks {e : Engine} (hidle : e.jobs = []) (h : e.CatchesUp filled) :
      e.disk.Tracks home table column kind [] := by
    obtain ⟨patches, hwaiting, htracks⟩ := h.tracks
    rw [hidle] at hwaiting
    cases hwaiting with
    | nil => exact htracks home table column kind hfile.validTable hfile.validColumn hkind
  have hjobs : first.jobs = [] := by rw [jobs, h.aligned.idle, List.reverse_nil]
  obtain ⟨rows, hrows⟩ := hfile.exists_rowsAt? (h.first.sound.apart hapart)
  obtain ⟨position, hposition⟩ := hfile.indexed
  have hfirst := (htracks hjobs h.first).listed rows position _ hrows hposition hfile.listedAt?
  have hsecond := (htracks hidle h.second).listed rows position _
    ((Disk.rowsAt?_of_rewrites h.aligned.disk home table).trans hrows)
    ((Disk.positionAt?_of_rewrites h.aligned.disk home table column).trans hposition) hfile'.listedAt?
  rw [Patch.effects_nil] at hfirst hsecond
  intro key id
  have hmem (listed : IndexData) : id ∈ listed.idsAt key ↔ (key, id) ∈ listed.listed := Iff.rfl
  rw [hmem, hmem, hfirst, hsecond]

/-- A job runs in the background. -/
theorem runOldest (h : Converging filled first second) : Converging filled first second.runOldest := by
  cases hjobs : second.jobs with
  | nil =>
    rw [Engine.runOldest, hjobs]
    exact h
  | cons job rest =>
    obtain ⟨hmaintains, hsecond⟩ := h.second.runOldest hjobs
    exact ⟨(h.aligned.withJobs rest.reverse).maintains (refl first) hmaintains, h.first, hsecond⟩

theorem iterate (h : Converging filled first second) (turns : Nat) :
    Converging filled first (Engine.runOldest^[turns] second) := by
  induction turns with
  | zero => exact h
  | succ turns ih =>
    rw [Function.iterate_succ_apply']
    exact ih.runOldest

theorem settle (h : Converging filled first second) : Converging filled first (Engine.settle second).2 := by
  obtain ⟨turns, hturns, -⟩ := settle_eq_iterate second
  rw [hturns]
  exact h.iterate turns

/-- A command that stands alone is executed by both. -/
theorem command (h : Converging filled first second) {who : Identity} {text : String} {command : Command}
    (hparse : Statement.parse text = .ok command) (hplain : command.isPlain who = true)
    (hfilled : ∀ home table, filled home table →
      (Engine.run (some who) text first).2.disk.hasFilledRows home table = true) :
    Converging filled (Engine.run (some who) text first).2 (Engine.run (some who) text second).2 := by
  rw [Command.isPlain, Bool.and_eq_true, Bool.and_eq_true] at hplain
  obtain ⟨⟨halone, hkey⟩, hroom⟩ := hplain
  have hroom' : ∀ database, who.requireDatabase = .ok database → Database.hasRoom database = true := by
    intro database hdatabase
    rw [hdatabase] at hroom
    exact hroom
  obtain ⟨haligned, hrun⟩ := h.aligned.run hparse halone
  have hcatches {e : Engine} (hcase : e = first ∨ e = second) (he : e.CatchesUp filled)
      (hfree : e.transactions = .empty) (hidle : e.settings.background = false → e.latestJobs = [])
      (hfilled : ∀ home table, filled home table →
        (Engine.run (some who) text e).2.disk.hasFilledRows home table = true) :
      (Engine.run (some who) text e).2.CatchesUp filled := by
    obtain ⟨e₁, upkeep, hown, hafter⟩ :=
      effect_cases (observes_executeWithin e.settings.nestingLimit) who command e
    rw [hrun e hcase, hafter] at hfilled ⊢
    exact he.own (Statement.isWellNamed_of_parse hparse) hown halone hkey hroom' hfree hidle
      fun home table hyes => by
        rw [← Disk.hasFilledRows_of_rewrites (rewrites_of_upkeep upkeep e₁) home table]
        exact hfilled home table hyes
  refine ⟨haligned, hcatches (.inl rfl) h.first h.aligned.free (fun _ => h.aligned.idle) hfilled,
    hcatches (.inr rfl) h.second h.aligned.free' (fun hinline => ?_) fun home table hyes =>
      (Disk.hasFilledRows_of_rewrites haligned.disk home table).trans (hfilled home table hyes)⟩
  rw [h.aligned.settings] at hinline
  exact absurd hinline (by simp)

/-- Something happens to both from outside. -/
theorem event (h : Converging filled first second) {event : Event} (hsettle : event ≠ .settle)
    (hplain : event.asksFor Command.isPlain = true)
    (hfilled : ∀ home table, filled home table → (event.after first).disk.hasFilledRows home table = true) :
    Converging filled (event.after first) (event.after second) := by
  have hsound {e : Engine} (h : e.CatchesUp filled) (nanoseconds : Nat) :
      IsSound { e with clock := e.clock + nanoseconds } :=
    h.sound.step rfl (refl e.disk) rfl (fun _ _ hkey => .inl hkey) h.sound.waiting
  cases event with
  | settle => exact absurd rfl hsettle
  | reopen => exact absurd hplain (by simp [Event.asksFor])
  | pass nanoseconds =>
    exact ⟨{ h.aligned with clock := congrArg (· + nanoseconds) h.aligned.clock },
      { h.first with sound := hsound h.first nanoseconds },
      { h.second with sound := hsound h.second nanoseconds }⟩
  | createDatabase name =>
    have hcreated {e : Engine} (h : e.CatchesUp filled) :
        (Event.after e (.createDatabase name)).CatchesUp filled := by
      have hspares : Disk.Spares True e.disk (Database.create name e.disk).2 :=
        Database.spares_create name e.disk
      exact h.spares hspares (h.sound.onDisk (refl e) (Database.spares_create name e.disk).keeps)
    exact ⟨(alike_sparing (Database.alike_create name) (Database.sparesDefinitions_create name) first second
      h.aligned).2, hcreated h.first, hcreated h.second⟩
  | statement session text =>
    rw [Event.after_statement] at hfilled
    rw [Event.after_statement, Event.after_statement]
    cases hparse : Statement.parse text with
    | error failure =>
      have hrun (e : Engine) : (Engine.run session text e).2 = e := by
        unfold Engine.run
        rw [Action.ofExcept_bind, hparse]
      rw [hrun, hrun]
      exact h
    | ok command =>
      cases session with
      | none =>
        have hrun (e : Engine) : (Engine.run none text e).2 = e := by
          unfold Engine.run
          rw [Action.ofExcept_bind, hparse]
          rfl
        rw [hrun, hrun]
        exact h
      | some who =>
        rw [Event.asksFor, hparse] at hplain
        exact h.command hparse hplain hfilled

end Converging

end Engine

/-! ### Runs -/

namespace Run

/-- Whether there is no blank line in the file of a table after any of some events. -/
def staysFilled (home : Path) (table : String) : List Event → Engine → Bool
  | [], _ => true
  | event :: rest, engine =>
    (event.after engine).disk.hasFilledRows home table && staysFilled home table rest (event.after engine)

/-- The run of the same events where maintenance waits. -/
def deferred (run : Run) : Run where
  settings := { run.settings with background := true }
  clock := run.clock
  first := { run.first with settings := { run.settings with background := true } }
  opened := @Engine.openOn_withSettings run.settings _ _ _ run.first rfl run.opened
  events := run.events

/-- From outside the same happens as in the run, but settling; that and the jobs may come anywhere. -/
def Defers (run : Run) (turns : List Turn) : Prop :=
  (turns.filterMap Turn.event?).filter (· != .settle) = run.events.filter (· != .settle)

/-- Where nothing waits there is nothing to settle. -/
theorem afterEvents_filter {e : Engine} (hinline : e.settings.background = false)
    (hidle : e.latestJobs = []) (events : List Event) :
    afterEvents e (events.filter (· != .settle)) = afterEvents e events ∧
      ∀ home table, staysFilled home table events e = true →
        staysFilled home table (events.filter (· != .settle)) e = true := by
  induction events generalizing e with
  | nil => exact ⟨rfl, fun _ _ => id⟩
  | cons event rest ih =>
    by_cases hsettle : event = .settle
    · subst hsettle
      have hsame : Event.after e .settle = e := by
        have hnone : e.generations = 0 := by rw [Engine.generations, hidle]; rfl
        change (Engine.runGenerations e.generations e).2 = e
        rw [hnone]
        rfl
      obtain ⟨hevents, hfilled⟩ := ih hinline hidle
      have hskipped : (Event.settle :: rest).filter (· != .settle) = rest.filter (· != .settle) := rfl
      have hnext : afterEvents e (.settle :: rest) = afterEvents (Event.after e .settle) rest := rfl
      rw [hskipped, hnext, hsame]
      refine ⟨hevents, fun home table h => hfilled home table ?_⟩
      rw [staysFilled, hsame, Bool.and_eq_true] at h
      exact h.2
    · have htrace := (Engine.Trace.start : Engine.Trace e [] e).run_event event fun _ => hidle
      obtain ⟨hevents, hfilled⟩ :=
        ih (htrace.settings_eq.symm ▸ hinline) (htrace.latestJobs_eq_nil hinline hidle)
      rw [List.filter_cons_of_pos (by simpa using hsettle)]
      refine ⟨hevents, fun home table h => ?_⟩
      rw [staysFilled, Bool.and_eq_true] at h ⊢
      exact ⟨h.1, hfilled home table h.2⟩

theorem catchesUp_first (run : Run) (hapart : run.settings.isApart = true) (filled : Path → String → Prop) :
    run.first.CatchesUp filled := by
  obtain ⟨log, after, hlog, hfirst⟩ := Engine.openOn_eq_ok run.opened
  obtain ⟨-, -, hspares⟩ := Log.openAt_eq_ok hlog
  have hindexes := hspares.sparesIndexes hapart
  have hdisk : run.first.disk = after := by rw [hfirst]
  have hjobs : run.first.jobs = [] := by rw [Engine.jobs, run.latestJobs_first, List.reverse_nil]
  refine ⟨run.isSound_first, hdisk ▸ hindexes.hasIndexes Disk.hasIndexes_empty,
    fun home name schema hname hschema => ?_, Disk.isUnique_iff.2 run.holds_first, run.holds_first,
    fun _ _ => [], hjobs ▸ .nil,
    fun home table column kind htable hcolumn _ => ?_⟩
  · rw [hdisk, hspares.keeps.schemaAt? hname] at hschema
    exact absurd hschema (by simp [Disk.schemaAt?, Disk.fileAt?])
  · rw [hdisk]
    exact (Disk.tracks_of_none rfl).spares Disk.hasIndexes_empty hindexes htable hcolumn
      (hspares.rowsAt? home table)

theorem converging_first (run : Run) (hinline : run.settings.background = false)
    (hapart : run.settings.isApart = true) (filled : Path → String → Prop) :
    Engine.Converging filled run.first run.deferred.first := by
  refine ⟨?_, run.catchesUp_first hapart filled, run.deferred.catchesUp_first hapart filled⟩
  obtain ⟨log, after, hlog, hfirst⟩ := Engine.openOn_eq_ok run.opened
  have hfree := run.transactions_first
  exact {
    disk := refl run.first.disk
    filed := run.remembers_first.filed
    untriggered := by
      rw [hfirst]
      exact ((Log.sparesDefinitions_openAt _).after hlog).staysUntriggered Disk.isUntriggered_empty
    known := fun _ _ => rfl
    settings := by rw [run.settings_first]; rfl
    inline := by rw [run.settings_first, hinline]
    idle := run.latestJobs_first
    free := hfree
    free' := hfree
    role := rfl
    clock := rfl }

/-- Whatever happens to both, and wherever settlings and jobs come in the background, both catch up. -/
theorem converging_after {filled : Path → String → Prop} {first second : Engine}
    (h : Engine.Converging filled first second) (turns : List Turn)
    (hplain : ∀ event ∈ turns.filterMap Turn.event?, event.asksFor Command.isPlain = true)
    (hfilled : ∀ home table, filled home table →
      staysFilled home table ((turns.filterMap Turn.event?).filter (· != .settle)) first = true) :
    Engine.Converging filled (afterEvents first ((turns.filterMap Turn.event?).filter (· != .settle)))
      (afterTurns second turns) := by
  induction turns generalizing first second with
  | nil => exact h
  | cons turn rest ih =>
    cases turn with
    | job => exact ih h.runOldest hplain hfilled
    | event event =>
      have hevents : (Turn.event event :: rest).filterMap Turn.event?
          = event :: rest.filterMap Turn.event? := rfl
      rw [hevents] at hplain hfilled ⊢
      obtain ⟨hone, hothers⟩ := List.forall_mem_cons.1 hplain
      by_cases hsettle : event = .settle
      · subst hsettle
        exact ih h.settle hothers hfilled
      · rw [List.filter_cons_of_pos (by simpa using hsettle)] at hfilled ⊢
        have hboth (home : Path) (table : String) (hyes : filled home table) :
            (event.after first).disk.hasFilledRows home table = true ∧
              staysFilled home table ((rest.filterMap Turn.event?).filter (· != .settle))
                (event.after first) = true := by
          have hall := hfilled home table hyes
          rwa [staysFilled, Bool.and_eq_true] at hall
        exact ih (h.event hsettle hone fun home table hyes => (hboth home table hyes).1) hothers
          fun home table hyes => (hboth home table hyes).2

/-- Maintenance in the background converges to maintenance at once. Where the same statements are
executed, no transactions and triggers among them, and every table begins with its primary key: wherever
settlings and jobs come in between, a settling in the end leaves the same files but for indexes, byte
for byte, and in each index the same identifiers under every key, and no key without identifiers; an
exact index is the same if no blank row was ever left in its table. -/
theorem settled_converges (run : Run) (hinline : run.settings.background = false)
    (hapart : run.settings.isApart = true)
    (hplain : ∀ event ∈ run.events, event.asksFor Command.isPlain = true)
    {turns : List Turn} (hturns : run.Defers turns) :
    let settled := (Engine.settle (afterTurns run.deferred.first turns)).2.disk
    (∀ place, ¬Path.IsIndex place → settled.at? place = run.last.disk.at? place) ∧
      ∀ home table column kind, Name.isValid table = true → Name.isValid column = true →
        let place := Path.indexPlace home table column kind
        Option.Rel (fun data other => data.IsProper ∧ other.IsProper ∧
            ((kind = .exact → staysFilled home table run.events run.first = true) →
              data.SameIds other))
          (run.last.disk.indexAt? place) (settled.indexAt? place) := by
  intro settled
  let filled := fun home table => staysFilled home table run.events run.first = true
  have hlater : Engine.Converging filled run.last
      (Engine.settle (afterTurns run.deferred.first turns)).2 := by
    obtain ⟨hlast, hstays⟩ :=
      afterEvents_filter (run.settings_first.symm ▸ hinline) run.latestJobs_first run.events
    have hfirst := run.converging_first hinline hapart filled
    have hafter := converging_after hfirst turns (fun event hevent => ?_) fun home table hfilled => ?_
    · rw [hturns, hlast] at hafter
      exact hafter.settle
    · by_cases hsettle : event = .settle
      · rw [hsettle]
        rfl
      · have hmem : event ∈ (turns.filterMap Turn.event?).filter (· != .settle) :=
          List.mem_filter.2 ⟨hevent, by simpa using hsettle⟩
        rw [hturns] at hmem
        exact hplain event (List.mem_filter.1 hmem).1
    · rw [hturns]
      exact hstays home table hfilled
  refine ⟨fun place hplace => hlater.aligned.disk.at?_eq hplace,
    fun home table column kind htable hcolumn => ?_⟩
  intro place
  cases hdata : run.last.disk.indexAt? place with
  | none =>
    cases hdata' : settled.indexAt? place with
    | none => exact .none
    | some data' =>
      obtain ⟨data, hfile⟩ := hlater.first.indexes.isIndexFile_of_rewrites hlater.aligned.disk.symm
        (hlater.second.indexes.isIndexFile htable hcolumn hdata')
      exact absurd (hfile.indexAt?.symm.trans hdata) (by simp)
  | some data =>
    have hfile := hlater.first.indexes.isIndexFile htable hcolumn hdata
    obtain ⟨data', hfile'⟩ := hlater.second.indexes.isIndexFile_of_rewrites hlater.aligned.disk hfile
    have hdata' : settled.indexAt? place = some data' := hfile'.indexAt?
    have hapart' : run.last.settings.isApart = true := run.settings_last.symm ▸ hapart
    obtain ⟨-, -, hempty⟩ := Engine.settle_eq_iterate (afterTurns run.deferred.first turns)
    rw [hdata']
    exact .some ⟨hfile.proper, hfile'.proper, hlater.sameIds hapart' hempty hfile hfile'⟩

/-- A row goes and comes back under its key, and its index is built anew meanwhile. -/
def reindexed : Run :=
  standard [.createDatabase "kantor", byAuthor "CREATE TABLE t id:INT:PK, nama:STRING",
    byAuthor "INSERT t 1|a", byAuthor "INDEX t ON nama",
    byAuthor "UPDATE t SET nama=b WHERE id = 1", .settle,
    byAuthor "DELETE FROM t WHERE id = 1", byAuthor "INSERT t 1|c", byAuthor "INDEX t ON nama",
    byAuthor "INSERT t 2|c"]

/-- One patch is made before the last row is inserted; the others wait until the end. -/
def reindexedTurns : List Turn :=
  (reindexed.events.filter (· != .settle)).dropLast.map .event
    ++ [.job, .event (byAuthor "INSERT t 2|c")]

theorem settled_converges_reindexed :
    let settled := (Engine.settle (afterTurns reindexed.deferred.first reindexedTurns)).2.disk
    settled.at? ["db_kantor", "t.mg"] = some (.file "1|c\n2|c\n") ∧
      ∃ data, settled.indexAt? ["db_kantor", "t.nama.idx"] = some data ∧
        data.IsProper ∧ ∀ id, id ∈ data.idsAt "c" ↔ id = "1" ∨ id = "2" := by
  intro settled
  have hrun : (∀ event ∈ reindexed.events, event.asksFor Command.isPlain = true) ∧
      reindexed.settings.isApart = true ∧
      staysFilled ["db_kantor"] "t" reindexed.events reindexed.first = true ∧
      Name.isValid "t" = true ∧ Name.isValid "nama" = true ∧
      reindexed.last.disk.at? ["db_kantor", "t.mg"] = some (.file "1|c\n2|c\n") ∧
      (reindexed.last.disk.indexAt? ["db_kantor", "t.nama.idx"]).map (fun data => data.idsAt "c")
        = some ["1", "2"] := by
    decide +kernel
  have hturns : reindexed.Defers reindexedTurns := by
    unfold Defers
    decide +kernel
  obtain ⟨hplain, hapart, hfilled, htable, hcolumn, hfile, hindex⟩ := hrun
  obtain ⟨hfiles, hindexes⟩ := reindexed.settled_converges rfl hapart hplain hturns
  have htables : ¬Path.IsIndex ["db_kantor", "t.mg"] := fun hno =>
    Index.not_endsIn_table hno (Path.endsIn_tablePlace ["db_kantor"] "t")
  refine ⟨(hfiles _ htables).trans hfile, ?_⟩
  obtain ⟨data, hdata, hids⟩ := Option.map_eq_some_iff.1 hindex
  have hboth := hindexes ["db_kantor"] "t" "nama" .exact htable hcolumn
  have hindexed : reindexed.last.disk.indexAt? (Path.indexPlace ["db_kantor"] "t" "nama" .exact)
      = some data := hdata
  dsimp only at hboth
  rw [hindexed] at hboth
  cases hother : settled.indexAt? (Path.indexPlace ["db_kantor"] "t" "nama" .exact) with
  | none =>
    rw [hother] at hboth
    exact nomatch hboth
  | some other =>
    rw [hother] at hboth
    obtain ⟨-, hproper, hsame⟩ : _ ∧ other.IsProper ∧ _ := by
      cases hboth with
      | some h => exact h
    refine ⟨other, hother, hproper, fun id => ?_⟩
    rw [hsame (fun _ => hfilled) "c" id, hids]
    simp

/-- A row becomes blank before an index is built. -/
def blankRow : Run :=
  standard [.createDatabase "kantor", byAuthor "CREATE TABLE t id:STRING:PK", byAuthor "INSERT t a",
    byAuthor "UPDATE t SET id=' ' WHERE id = a", byAuthor "INDEX t ON id"]

/-- The row is not read back, but a patch that waits files it. -/
theorem not_settled_converges :
    ¬∀ (run : Run) (turns : List Turn), run.settings.background = false → run.settings.isApart = true →
      (∀ event ∈ run.events, event.asksFor Command.isPlain = true) → run.Defers turns →
        ∀ home table column kind data other, Name.isValid table = true → Name.isValid column = true →
          run.last.disk.indexAt? (Path.indexPlace home table column kind) = some data →
            (Engine.settle (afterTurns run.deferred.first turns)).2.disk.indexAt?
              (Path.indexPlace home table column kind) = some other → data.SameIds other := by
  intro h
  have hrun : (∀ event ∈ blankRow.events, event.asksFor Command.isPlain = true) ∧
      blankRow.settings.isApart = true ∧ Name.isValid "t" = true ∧ Name.isValid "id" = true ∧
      (blankRow.last.disk.indexAt? (Path.indexPlace ["db_kantor"] "t" "id" .exact)).map
        (fun data => data.idsAt " ") = some [] ∧
      ((Engine.settle (afterTurns blankRow.deferred.first (blankRow.events.map .event))).2.disk.indexAt?
        (Path.indexPlace ["db_kantor"] "t" "id" .exact)).map (fun data => data.idsAt " ") = some [" "] := by
    decide +kernel
  obtain ⟨hplain, hapart, htable, hcolumn, hfirst, hsecond⟩ := hrun
  have hturns : blankRow.Defers (blankRow.events.map .event) := by
    unfold Defers
    decide +kernel
  obtain ⟨data, hdata, hids⟩ := Option.map_eq_some_iff.1 hfirst
  obtain ⟨other, hother, hids'⟩ := Option.map_eq_some_iff.1 hsecond
  have hsame := h blankRow _ rfl hapart hplain hturns ["db_kantor"] "t" "id" .exact data other htable
    hcolumn hdata hother " " " "
  rw [hids, hids'] at hsame
  exact absurd hsame (by decide)

end Run

end FlatFileDb
