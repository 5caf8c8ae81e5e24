import FlatFileDb.Proofs.Journal
import FlatFileDb.Proofs.Stored

/-!
# Names of tables and views

A view is stored only where no table has its name, and no table is made where a view has its name. So
a name under which a view was stored means that view ever after. This is a matter of two files, that
of the view and that of the schema. A directory would be in the way of a schema as well; but commands
make directories without a point in their names only, and those around the log are made before
anything else.
-/

namespace FlatFileDb

namespace Disk

/-! ### Directories stand in directories -/

/-- Whether a way may go on from a place. The data directory and those that hold it are not listed. -/
def Stands (disk : Disk) (place : Path) : Prop :=
  place = [] ∨ place.getLast? = some Path.upwards ∨ place.getLast? = some Path.root ∨
    disk.at? place = some .directory

/-- Every directory stands in another one. -/
def IsNested (disk : Disk) : Prop :=
  ∀ place part, disk.at? (place ++ [part]) = some .directory → disk.Stands place

variable {disk disk' : Disk} {made written : Path → Prop}

theorem Stands.grows {place : Path} (h : disk.Stands place) (hgrows : Grows made written disk disk') :
    disk'.Stands place :=
  h.imp_right (.imp_right (.imp_right hgrows.directory))

theorem Stands.directory {home : Path} {part : String} (h : disk.Stands (home ++ [part]))
    (hup : part ≠ Path.upwards) (hroot : part ≠ Path.root) :
    disk.at? (home ++ [part]) = some .directory := by
  rcases h with hnil | hlast | hlast | hdirectory
  · exact absurd hnil (by simp)
  · exact absurd hlast (by simpa using hup)
  · exact absurd hlast (by simpa using hroot)
  · exact hdirectory

theorem IsNested.above (h : disk.IsNested) {place : Path} (hplace : disk.Stands place) :
    disk.Stands (Path.above place) := by
  unfold Path.above
  cases hlast : place.getLast? with
  | none => exact .inr (.inl rfl)
  | some part =>
    obtain ⟨before, rfl⟩ := List.getLast?_eq_some_iff.1 hlast
    dsimp only
    split
    · exact .inr (.inl (by simp))
    · rename_i hup
      split
      · exact hplace
      · rename_i hroot
        rw [List.dropLast_concat]
        exact h before part (hplace.directory (by simpa using hup) (by simpa using hroot))

theorem isNested_empty : Disk.empty.IsNested :=
  fun _ _ hdirectory => absurd hdirectory (by simp)

/-- Files are in no directory's way. -/
theorem IsNested.files (h : disk.IsNested) (hgrows : Grows (fun _ => False) written disk disk') :
    disk'.IsNested := by
  intro place part hdirectory
  exact (h place part ((hgrows.unmade id).1 hdirectory)).grows hgrows

theorem IsNested.put (h : disk.IsNested) {here : Path} {part : String} (hhere : disk.Stands here)
    (hnone : disk.at? (here ++ [part]) = none) : (disk.put (here ++ [part]) .directory).IsNested := by
  have hgrows : Grows (fun _ => True) (fun _ => False) disk (disk.put (here ++ [part]) .directory) :=
    grows_put_directory trivial hnone
  intro place other hdirectory
  by_cases hsame : place ++ [other] = here ++ [part]
  · obtain ⟨rfl, -⟩ := List.append_inj' hsame rfl
    exact hhere.grows hgrows
  · rw [at?_put, if_neg (by simpa using hsame)] at hdirectory
    exact (h place other hdirectory).grows hgrows

theorem IsNested.makeDirectoriesFrom {way : List String} {here : Path} (h : disk.IsNested)
    (hhere : disk.Stands here) : (makeDirectoriesFrom here way disk).2.IsNested := by
  induction way generalizing here disk with
  | nil => exact h
  | cons part rest ih =>
    rcases Path.part_cases part with hstays | rfl | rfl | hplain
    · rw [makeDirectoriesFrom_stays hstays]
      exact ih h hhere
    · rw [makeDirectoriesFrom_root]
      exact ih h (.inr (.inr (.inl rfl)))
    · rw [makeDirectoriesFrom_upwards]
      exact ih h (h.above hhere)
    · rw [makeDirectoriesFrom_plain hplain]
      cases hentry : disk.at? (here ++ [part]) with
      | none =>
        dsimp only
        split
        · exact ih (h.put hhere hentry) (.inr (.inr (.inr (by simp))))
        · exact h
      | some entry =>
        cases entry with
        | directory => exact ih h (.inr (.inr (.inr hentry)))
        | file text => exact h

theorem IsNested.makeDirectories (h : disk.IsNested) (path : Path) :
    (makeDirectories path disk).2.IsNested := by
  unfold Disk.makeDirectories
  split
  · exact h.makeDirectoriesFrom (.inl rfl)
  · exact h

end Disk

theorem Log.isNested_openAt {path : Path} {disk disk' : Disk} {result : Except Error Log}
    (h : disk.IsNested) (hopen : openAt path disk = (result, disk')) : disk'.IsNested := by
  have hmade := h.makeDirectories path.holder
  unfold openAt at hopen
  rcases Action.bind_cases hopen with ⟨failure, hmake, -⟩ | ⟨⟨⟩, made, hmake, hrest⟩
  · rw [hmake] at hmade
    exact hmade
  rw [hmake] at hmade
  have hfiles : Action.Within (Disk.Grows (fun _ => False) fun _ => True) (do
      let disk ← Action.get
      if disk.hasEntry path then
        let found ← Action.ofExcept (entries disk { path, next := 1 })
        return { path, next := nextNumber found }
      else
        Disk.writeFile path ""
        return ({ path, next := 1 } : Log)) :=
    .bind .get fun disk => .ite (fun _ => .bind (.ofExcept _) fun _ => .pure _)
      fun _ => .bind (Disk.within_writeFile "" fun _ _ => trivial) fun _ => .pure _
  exact hmade.files (hfiles.after hrest)

/-! ### What commands make -/

namespace Engine

variable {who : Identity} {command : Command} {e e' : Engine}

/-- A change of rows writes a file. -/
theorem grows_perform {made : Path → Prop} (entry : Log.Entry) :
    Action.Within (Disk.Grows made fun _ => True) entry.perform := by
  have hchange (id : String) (f : String → List String) :
      Action.Within (Disk.Grows made fun _ => True)
        (Table.changeRow entry.database entry.table id f) :=
    .bind (.read _) fun _ => .bind (.ofExcept _) fun _ =>
      .bind (Disk.within_writeFile _ fun _ _ => trivial) fun _ => .pure _
  unfold Log.Entry.perform
  cases entry.operation with
  | insert => exact Disk.within_appendFile _ fun _ _ => trivial
  | update => exact hchange _ _
  | delete => exact hchange _ _

/-- The directories that commands make have no point in their names. -/
theorem Own.undotted {upkeep : Upkeep} (hown : Own who command e e' upkeep) :
    Disk.Grows Path.IsUndotted (fun _ => True) e.disk e'.disk := by
  have hsame {disk : Disk} (hdisk : disk = e.disk) :
      Disk.Grows Path.IsUndotted (fun _ => True) e.disk disk := by
    rw [hdisk]
    exact refl e.disk
  have hwrites (path : Path) (text : String) :
      Action.Within (Disk.Grows Path.IsUndotted fun _ => True) (Disk.writeFile path text) :=
    Disk.within_writeFile text fun _ _ => trivial
  cases hown with
  | quiet hquiet | insertLater _ hquiet | updateLater _ hquiet | deleteLater _ hquiet =>
    exact hsame hquiet.disk
  | become | begin | rollback | commitNothing => exact refl e.disk
  | @commit _ transaction logged disk done failure hrole hactive hchanges hlog happly =>
    have hlogged : Disk.Grows Path.IsUndotted (fun _ => True) e.disk logged :=
      (Disk.within_appendFile _ fun _ _ => trivial).after hlog
    have happlied : Disk.Grows Path.IsUndotted (fun _ => True) logged
        (Log.Entry.performAll (Log.numbered e.log.next transaction.changes) logged).2 :=
      Log.Entry.performAll_induction (refl logged) fun a _ after hbefore hperform =>
        IsTrans.trans _ _ _ hbefore ((grows_perform a.entry).after hperform)
    rw [happly] at happlied
    exact IsTrans.trans _ _ _ hlogged happlied
  | insert hdatabase hquiet hfree hschema hrow hwrite =>
    exact (Disk.within_appendFile _ fun _ _ => trivial).after hwrite
  | update hdatabase hquiet hfree hschema hassigned hrows hchange hwrite =>
    exact (hwrites _ _).after hwrite
  | delete hdatabase hquiet hfree hschema hrows hwrite => exact (hwrites _ _).after hwrite
  | createNothing hdatabase => exact Disk.grows_makeDirectories_below hdatabase (by decide)
  | @createTable database table definition _ columns made written hrole hcolumns hnames hdatabase
      hnew hmake hwrite =>
    have hmade : Disk.Grows Path.IsUndotted (fun _ => True) e.disk
        (Disk.makeDirectories (Path.schemas database) e.disk).2 :=
      Disk.grows_makeDirectories_below hdatabase (by decide)
    rw [hmake] at hmade
    have hinit : Action.Within (Disk.Grows Path.IsUndotted fun _ => True)
        (Table.init database table) := .bind (.read _) fun _ => hwrites _ _
    exact IsTrans.trans _ _ _ (IsTrans.trans _ _ _ hmade ((hwrites _ _).after hwrite)) (hinit written)
  | createIndex =>
    exact (Index.grows_build _ _ _ _ _ e.disk).mono (fun _ hno => hno.elim) fun _ _ => trivial
  | @createView database name query _ hdatabase =>
    have hsave : Action.Within (Disk.Grows Path.IsUndotted fun _ => True)
        (View.save database name query) := .bind (.read _) fun _ => hwrites _ _
    exact hsave e.disk
  | @createTrigger database definition _ e₁ created hdatabase hquiet =>
    have hsave : Disk.Grows Path.IsUndotted (fun _ => True) e.disk
        (Trigger.save database { definition, created } e.disk).2 := by
      unfold Trigger.save
      rw [Action.read_bind]
      cases hrequire : Database.require e.disk database with
      | error failure => exact refl e.disk
      | ok _ =>
      dsimp only
      have hmade : Disk.Grows Path.IsUndotted (fun _ => True) e.disk
          (Disk.makeDirectories (Path.triggers database) e.disk).2 :=
        Disk.grows_makeDirectories_below hrequire (by decide)
      cases hmake : Disk.makeDirectories (Path.triggers database) e.disk with
      | mk result made =>
      rw [hmake] at hmade
      cases result with
      | error failure =>
        rw [Action.bind_of_error hmake]
        exact hmade
      | ok _ =>
        rw [Action.bind_of_ok hmake]
        exact IsTrans.trans _ _ _ hmade (hwrites _ _ made)
    exact hsave

/-- Opening a sound engine anew leaves the disk as it is. -/
theorem disk_of_reopen (hsound : e.IsSound) (hopen : e.IsOpen) {opened : Engine}
    (h : e.reopen = .ok opened) : opened.disk = e.disk := by
  obtain ⟨place, text, hlocate, -⟩ := hsound.log
  rw [hopen.path] at hlocate
  obtain ⟨log, after, hlog, rfl⟩ := openOn_eq_ok h
  rw [Log.openAt_of_text (Disk.textAt_eq_ok.2 ⟨place, hlocate⟩)] at hlog
  exact (congrArg Prod.snd hlog).symm

/-- All directories with a point in their names were there from the start. -/
theorem Trace.undotted {first : Engine} {executions : List Execution}
    (h : Trace first executions e) (hsound : first.IsSound) (hopen : first.IsOpen) :
    Disk.Grows Path.IsUndotted (fun _ => True) first.disk e.disk := by
  have hindexes {disk disk' : Disk} (h : Disk.Rewrites Path.IsIndex disk disk') :
      Disk.Grows Path.IsUndotted (fun _ => True) disk disk' :=
    h.grows.mono (fun _ hno => hno.elim) fun _ _ => trivial
  induction h with
  | start => exact refl first.disk
  | @command executions e e₁ who command upkeep h hnamed hown hafter ih =>
    exact IsTrans.trans _ _ _ (IsTrans.trans _ _ _ ih hown.undotted)
      (hindexes (rewrites_of_upkeep upkeep e₁))
  | createDatabase h name ih => exact IsTrans.trans _ _ _ ih (Database.grows_create name _)
  | reopen h hopened ih => rw [disk_of_reopen (h.isSound hsound) (h.isOpen hopen) hopened]; exact ih
  | pass h nanoseconds ih => exact ih
  | maintain h hbackground hmaintains ih => exact IsTrans.trans _ _ _ ih (hindexes hmaintains.disk)
  | queue h hbackground jobs ih => exact ih

/-- Whatever lies at the place of a schema lies in the directory for schemas. -/
theorem Trace.folder {first : Engine} {executions : List Execution}
    (h : Trace first executions e) (hsound : first.IsSound) (hopen : first.IsOpen)
    (hnested : first.disk.IsNested) {home : Path} {name : String} (hname : Name.isValid name = true)
    (entry : DiskEntry) (hentry : e.disk.at? (Path.schemaPlace home name) = some entry) :
    e.disk.at? (home ++ ["schema"]) = some .directory := by
  cases entry with
  | file text => exact (h.isSound hsound).disk.folder hname home text hentry
  | directory =>
    have hundotted := h.undotted hsound hopen
    have hpointed : ¬Path.IsUndotted (Path.schemaPlace home name) :=
      fun hno => hno.not_endsIn (by decide) (Path.endsIn_schemaPlace home name)
    have hparent := hnested _ _ ((hundotted.unmade hpointed).1 hentry)
    exact hundotted.directory (hparent.directory (by decide) (by decide))

/-! ### A view keeps its name -/

/-- There is a view, and no schema of its name. -/
structure HasOwnView (disk : Disk) (home : Path) (name : String) : Prop where
  view : ∃ text, disk.at? (Path.viewPlace home name) = some (.file text)
  schema : disk.at? (Path.schemaPlace home name) = none

variable {home : Path} {name database : String}

theorem HasOwnView.grows {disk disk' : Disk} (h : HasOwnView disk home name)
    (hname : Name.isValid name = true)
    (hgrows : Disk.Grows Path.IsNoSchema Path.IsNoSchema disk disk') :
    HasOwnView disk' home name where
  view := h.view.elim fun _ hfile => hgrows.file hfile
  schema := by
    rcases hgrows (Path.schemaPlace home name) with hsame | ⟨hno, -⟩ | ⟨hno, -⟩
    · rw [hsame, h.schema]
    · exact absurd rfl (hno home name hname)
    · exact absurd rfl (hno home name hname)

theorem HasOwnView.rewrites {disk disk' : Disk} (h : HasOwnView disk home name)
    (hname : Name.isValid name = true) (hrewrites : Disk.Rewrites Path.IsIndex disk disk') :
    HasOwnView disk' home name :=
  h.grows hname (hrewrites.grows.mono (fun _ hno => hno.elim) fun _ ⟨kind, hkind⟩ =>
    hkind.isNoSchema (by cases kind <;> decide))

/-- Where a table is made there was no view of its name. -/
theorem IsSound.hasOwnView_createTable (h : e.IsSound) (hview : HasOwnView e.disk home name)
    (hname : Name.isValid name = true) {database table text : String} {made written : Disk}
    (htable : Name.isValid table = true) (hdatabase : Database.require e.disk database = .ok ())
    (hnew : hasSchema e.disk database table = false)
    (hmake : Disk.makeDirectories (Path.schemas database) e.disk = (.ok (), made))
    (hwrite : Disk.writeFile (Path.schema database table) text made = (.ok (), written))
    (hnoView : View.isPresent e.disk database table = false) :
    HasOwnView (Table.init database table written).2 home name := by
  have hmade : Disk.Grows Path.IsUndotted Path.IsNoSchema e.disk made := by
    have hgrows : Disk.Grows Path.IsUndotted Path.IsNoSchema e.disk
        (Disk.makeDirectories (Path.schemas database) e.disk).2 :=
      Disk.grows_makeDirectories_below hdatabase (by decide)
    rwa [hmake] at hgrows
  obtain ⟨there, hthere, -, hnone, hplace, hwritten⟩ :=
    schemaPlace_of_write (h.disk.folder htable) htable hdatabase hnew hmake hwrite
  have hother : Path.schemaPlace home name ≠ Path.schemaPlace there table := by
    intro hsame
    obtain ⟨rfl, rfl⟩ := Path.schemaPlace_inj hsame
    obtain ⟨found, hfound⟩ := Database.liesAt_of_require hdatabase
    obtain rfl := hthere.unique (hfound.grows hmade)
    obtain ⟨before, part, folder, hpath, hsound, -, -, -, hfits, -⟩ := Disk.filePlace?_eq_some hplace
    rw [Path.schema_of_isValid database hname] at hpath
    obtain ⟨-, hpart⟩ := List.append_inj' hpath rfl
    obtain rfl : name ++ ".json" = part := (List.cons.inj hpart).1
    obtain ⟨query, hquery⟩ := hview.view
    have hpresent := View.isPresent_of_file hfound hname
      (isSound_beside hname (by decide) (by decide) hsound) (fits_append (by decide) hfits) hquery
    exact absurd (hpresent.symm.trans hnoView) (by simp)
  have hbefore := hview.grows hname (hmade.mono (fun _ hmade => hmade.isNoSchema) fun _ => id)
  have hput : Disk.Grows (fun _ => True) (fun _ => True) made written := by
    rw [hwritten]
    exact Disk.grows_put_file trivial (by rw [hnone]; simp) text
  have hinit : Disk.Keeps True written (Table.init database table written).2 :=
    Table.keeps_init database table written
  refine ⟨?_, ?_⟩
  · obtain ⟨query, hquery⟩ := hbefore.view
    obtain ⟨query', hquery'⟩ := hput.file hquery
    exact hinit.grows.file hquery'
  · have hschema : written.at? (Path.schemaPlace home name) = none := by
      rw [hwritten, Disk.at?_put, if_neg (by simpa using hother), hbefore.schema]
    rcases init_cases (hthere.grows hput) htable with hsame | hsame <;> rw [hsame]
    · exact hschema
    · rw [Disk.at?_put, if_neg (by simpa using Path.schemaPlace_ne_tablePlace home there name table),
        hschema]

/-- No command makes a table of the name of a view. -/
theorem IsSound.hasOwnView_own (h : e.IsSound) (hnamed : command.isWellNamed = true)
    {upkeep : Upkeep} (hown : Own who command e e' upkeep) (hname : Name.isValid name = true)
    (hview : HasOwnView e.disk home name) : HasOwnView e'.disk home name := by
  have hkeeps := h.keeps_own hnamed hown
  have hundotted := hown.undotted
  cases hown with
  | createNothing hdatabase =>
    exact hview.grows hname ((Disk.grows_makeDirectories_below hdatabase (by decide)).mono
      (fun _ hmade => hmade.isNoSchema) fun _ => id)
  | createTable hrole hcolumns hnames hdatabase hnew hmake hwrite hnoView =>
    exact h.hasOwnView_createTable hview hname hnamed hdatabase hnew hmake hwrite hnoView
  | quiet hquiet =>
    rw [hquiet.disk]
    exact hview
  | _ =>
    exact hview.grows hname ((hundotted.and (hkeeps (by simp)).grows).mono
      (fun _ hmade => hmade.1.isNoSchema) fun _ hwritten => hwritten.2)

end Engine

/-! ### Storing a view -/

/-- A view is written into the directory of its database. -/
theorem View.save_eq_ok {disk disk' : Disk} {database name query : String}
    (hname : Name.isValid name = true) (h : save database name query disk = (.ok (), disk')) :
    ∃ home, Database.LiesAt disk database home ∧ Path.fits (name ++ ".view") = true ∧
      disk.at? (Path.viewPlace home name) ≠ some .directory ∧
      disk' = disk.put (Path.viewPlace home name) (.file query) := by
  unfold save at h
  rw [Action.read_bind] at h
  cases hdatabase : Database.require disk database with
  | error failure =>
    rw [hdatabase] at h
    exact absurd (congrArg Prod.fst h) (by simp)
  | ok _ =>
  rw [hdatabase] at h
  rcases Disk.writeFile_cases (Path.view database name) query disk with hno | ⟨place, hplace, hwrite⟩
  · exact absurd (congrArg Prod.fst (hno.symm.trans h)) (by simp)
  obtain rfl := congrArg Prod.snd (hwrite.symm.trans h)
  obtain ⟨before, part, home, hpath, -, hhome, rfl, -, hfits, hfree⟩ := Disk.filePlace?_eq_some hplace
  rw [Path.view_of_isValid database hname] at hpath
  obtain ⟨rfl, hpart⟩ := List.append_inj' hpath rfl
  obtain rfl : name ++ ".view" = part := (List.cons.inj hpart).1
  exact ⟨home, hhome, hfits, hfree, rfl⟩

/-- An execution that stored a view of a database. -/
structure Execution.StoresView (x : Execution) (database name : String) : Prop where
  command : ∃ query, x.command = .createView name query
  database : x.who.requireDatabase = .ok database
  stored : ∃ outcome, (Engine.executeWithin 1 x.who x.command x.before).1 = .ok outcome

namespace Engine

variable {e : Engine} {database name : String}

/-- A view is stored where there is no schema of its name. -/
theorem createView_eq_ok {query : String} {outcome : Outcome} {e' : Engine}
    (h : createView database name query e = (.ok outcome, e')) :
    hasSchema e.disk database name = false ∧
      ∃ disk, View.save database name query e.disk = (.ok (), disk) ∧ e' = { e with disk } := by
  unfold createView at h
  rw [look_bind] at h
  by_cases hthere : hasSchema e.disk database name = true
  · rw [if_pos hthere] at h
    exact absurd (congrArg Prod.fst h) (by simp)
  rw [if_neg hthere] at h
  refine ⟨by simpa using hthere, ?_⟩
  rcases Action.bind_cases h with ⟨failure, -, hno⟩ | ⟨⟨⟩, after, hsave, hdone⟩
  · exact absurd hno (by simp)
  rw [onDisk, Action.onPart_apply] at hsave
  obtain ⟨hresult, hafter⟩ := Prod.mk.inj hsave
  refine ⟨(View.save database name query e.disk).2, Prod.ext hresult rfl, ?_⟩
  exact (congrArg Prod.snd hdone).symm.trans hafter.symm

theorem stores_view {x : Execution} (h : x.StoresView database name) :
    hasSchema x.before.disk database name = false ∧
      ∃ query disk, View.save database name query x.before.disk = (.ok (), disk) ∧
        ∀ executing, (effect executing x.who x.command x.before).2 = { x.before with disk } := by
  obtain ⟨who, command, e⟩ := x
  obtain ⟨⟨query, hcommand⟩, hdatabase, outcome, hstored⟩ := h
  dsimp only at hcommand hdatabase hstored ⊢
  subst hcommand
  obtain ⟨made, after, hcreate, heffect⟩ := @effect_of_executed who (.createView name query) database
    (createView · name query) e outcome (fun _ => rfl) hdatabase hstored
  obtain ⟨hnew, disk, hsave, rfl⟩ := createView_eq_ok hcreate
  exact ⟨hnew, query, disk, hsave, heffect⟩

/-- A view that is stored where there is no schema of its name has that name for itself. -/
theorem hasOwnView_of_save {disk disk' : Disk} {query : String} (hname : Name.isValid name = true)
    (hpath : (Path.schema database name).isSound = true)
    (hfolder : ∀ home entry, disk.at? (Path.schemaPlace home name) = some entry →
      disk.at? (home ++ ["schema"]) = some .directory)
    (hnew : hasSchema disk database name = false)
    (hsave : View.save database name query disk = (.ok (), disk')) :
    ∃ home, Database.LiesAt disk' database home ∧ HasOwnView disk' home name := by
  obtain ⟨home, hhome, hfits, hfree, rfl⟩ := View.save_eq_ok hname hsave
  have hgrows : Disk.Grows (fun _ => False) (fun _ => True) disk
      (disk.put (Path.viewPlace home name) (.file query)) :=
    Disk.grows_put_file trivial hfree query
  have hother : Path.schemaPlace home name ≠ Path.viewPlace home name := by
    intro hsame
    have hends := Path.endsIn_schemaPlace home name
    rw [hsame] at hends
    exact hends.not (by decide) (Path.endsIn_append home)
  refine ⟨home, hhome.grows hgrows, ⟨query, by simp⟩, ?_⟩
  rw [Disk.at?_put, if_neg (by simpa using hother)]
  exact schemaPlace_of_hasSchema hhome hname hpath (fits_append (by decide) hfits) (hfolder home) hnew

theorem Trace.isWellNamed {first : Engine} {executions : List Execution}
    (h : Trace first executions e) : ∀ x ∈ executions, x.command.isWellNamed = true := by
  induction h with
  | start => simp
  | command h hnamed hown hafter ih =>
    intro x hx
    rw [List.mem_append, List.mem_singleton] at hx
    rcases hx with hx | rfl
    · exact ih x hx
    · exact hnamed
  | createDatabase h name ih => exact ih
  | reopen h hopened ih => exact ih
  | pass h nanoseconds ih => exact ih
  | maintain h hbackground hmaintains ih => exact ih
  | queue h hbackground jobs ih => exact ih

theorem Trace.isValid_of_storesView {first : Engine} {executions : List Execution}
    (h : Trace first executions e) {x : Execution} (hx : x ∈ executions)
    (hstores : x.StoresView database name) : Name.isValid name = true := by
  obtain ⟨query, hcommand⟩ := hstores.command
  have hnamed := h.isWellNamed x hx
  rwa [hcommand] at hnamed

/-- After a view was stored it keeps its name for itself. -/
theorem Trace.hasOwnView {first : Engine} {executions : List Execution}
    (h : Trace first executions e) (hsound : first.IsSound) (hopen : first.IsOpen)
    (hnested : first.disk.IsNested) (hpath : (Path.schema database name).isSound = true)
    {x : Execution} (hx : x ∈ executions) (hstores : x.StoresView database name) :
    ∃ home, Database.LiesAt e.disk database home ∧ HasOwnView e.disk home name := by
  have hname := h.isValid_of_storesView hx hstores
  induction h with
  | start => exact absurd hx (by simp)
  | @command executions e e₁ who command upkeep h hnamed hown hafter ih =>
    rw [List.mem_append, List.mem_singleton] at hx
    rcases hx with hx | rfl
    · obtain ⟨home, hhome, hview⟩ := ih hx
      have hkept := (h.isSound hsound).hasOwnView_own hnamed hown hname hview
      have hindexes := rewrites_of_upkeep upkeep e₁
      exact ⟨home, (hhome.grows hown.undotted).grows hindexes.grows,
        hkept.rewrites hname hindexes⟩
    · obtain ⟨hnew, query, disk, hsave, hrun⟩ := stores_view hstores
      obtain ⟨executing, hrun'⟩ := hafter
      rw [← hrun', hrun executing]
      exact hasOwnView_of_save hname hpath (fun _ => h.folder hsound hopen hnested hname) hnew hsave
  | @createDatabase executions e h other ih =>
    obtain ⟨home, hhome, hview⟩ := ih hx
    have hgrows : Disk.Grows Path.IsUndotted Path.IsNoSchema e.disk
        (Database.create other e.disk).2 := Database.grows_create other e.disk
    exact ⟨home, hhome.grows hgrows,
      hview.grows hname (hgrows.mono (fun _ hmade => hmade.isNoSchema) fun _ => id)⟩
  | reopen h hopened ih =>
    rw [disk_of_reopen (h.isSound hsound) (h.isOpen hopen) hopened]
    exact ih hx
  | pass h nanoseconds ih => exact ih hx
  | maintain h hbackground hmaintains ih =>
    obtain ⟨home, hhome, hview⟩ := ih hx
    exact ⟨home, hhome.grows hmaintains.disk.grows, hview.rewrites hname hmaintains.disk⟩
  | queue h hbackground jobs ih => exact ih hx

end Engine

theorem Run.isNested_first (run : Run) : run.first.disk.IsNested := by
  obtain ⟨log, after, hlog, hfirst⟩ := Engine.openOn_eq_ok run.opened
  rw [hfirst]
  exact Log.isNested_openAt Disk.isNested_empty hlog

/-- A name under which a view was stored is the name of no table. -/
theorem Run.hasSchema_of_storesView (run : Run) {x : Execution} (hx : x ∈ run.executions)
    {database name : String} (hstores : x.StoresView database name) :
    Engine.hasSchema run.last.disk database name = false := by
  have hname := run.trace.isValid_of_storesView hx hstores
  cases hpath : (Path.schema database name).isSound with
  | false =>
    unfold Engine.hasSchema Disk.hasEntry Disk.entryAt Disk.locate
    rw [hpath]
    rfl
  | true =>
    obtain ⟨home, hhome, hview⟩ := run.trace.hasOwnView run.isSound_first
      (Engine.isOpen_openOn run.opened) run.isNested_first hpath hx hstores
    exact Engine.hasSchema_of_none hhome hname hview.schema

end FlatFileDb
