import FlatFileDb.Proofs.Parallel

/-!
# At once and in the background

Two engines take the same commands; one of them patches indexes at once, the other lets the patches
wait. `Aligned` says that nothing but what index files hold tells them apart, beside what waits. Every
command that has nothing to do with triggers or transactions leaves two engines aligned: what is checked
and what is stored is never read off an index. Queries and searches read indexes and may answer
differently, but they leave no trace.
-/

namespace FlatFileDb

/-! ### Two disks -/

theorem Database.require_alike {written : Path → Prop} {disk disk' : Disk}
    (h : Disk.Rewrites written disk disk') (database : String) :
    require disk' database = require disk database := by
  rw [require, require, isPresent, isPresent, h.hasDirectory_eq]

theorem Database.alike_create {written : Path → Prop} (name : String) :
    Action.Alike (Disk.Rewrites written) (create name) := by
  refine .bind (.ofExcept _) fun _ => .get (fun disk disk' h => by rw [h.hasEntry_eq]) fun disk => ?_
  exact .ite (.throw _) (Disk.alike_makeDirectories _)

theorem Table.alike_init {written : Path → Prop} (database table : String) :
    Action.Alike (Disk.Rewrites written) (init database table) :=
  .bind (.read fun _ _ h => Database.require_alike h database) fun _ => Disk.alike_writeFile _ _

theorem View.alike_save {written : Path → Prop} (database name query : String) :
    Action.Alike (Disk.Rewrites written) (save database name query) :=
  .bind (.read fun _ _ h => Database.require_alike h database) fun _ => Disk.alike_writeFile _ _

theorem Index.not_endsIn_table {place : Path} (h : Path.IsIndex place) : ¬Path.EndsIn ".mg" place := by
  obtain ⟨kind, hkind⟩ := h
  cases kind <;> exact hkind.not (by decide)

theorem Index.alike_build (database table column : String) (position : Nat) (kind : IndexKind) :
    Action.Alike (Disk.Rewrites Path.IsIndex) (build database table column position kind) :=
  .bind (.read fun _ _ h => Table.rows_alike (fun _ => not_endsIn_table) h database table) fun _ =>
    .bind (Disk.alike_writeFile _ _) fun _ => .pure _

theorem Engine.alike_storeSchema {written : Path → Prop} (database table : String)
    (columns : List Column) (permissions : Permissions) :
    Action.Alike (Disk.Rewrites written) (storeSchema database table columns permissions) :=
  .bind (.ofExcept _) fun _ => .bind (.ofExcept _) fun _ =>
    .bind (.read fun _ _ h => Database.require_alike h database) fun _ =>
    .bind (.read fun _ _ h => congrArg Except.ok (h.hasEntry_eq _)) fun _ => .ite (.throw _)
      (.bind (Disk.alike_makeDirectories _) fun _ => .bind (Disk.alike_writeFile _ _) fun _ => .pure _)

/-! ### No triggers -/

namespace Disk

/-- No trigger is stored. -/
def IsUntriggered (disk : Disk) : Prop :=
  ∀ home file text, Path.EndsIn ".json" (home ++ ["triggers"] ++ [file]) →
    disk.at? (home ++ ["triggers"] ++ [file]) ≠ some (.file text)

/-- No trigger is the first to be stored. -/
def StaysUntriggered (disk disk' : Disk) : Prop :=
  disk.IsUntriggered → disk'.IsUntriggered

instance : IsPreorder Disk StaysUntriggered where
  refl _ h := h
  trans _ _ _ h h' hfirst := h' (h hfirst)

theorem isUntriggered_empty : IsUntriggered empty :=
  fun _ _ _ _ => by simp

/-- Without a directory of triggers no trigger is stored. -/
theorem isUntriggered_of_entries {disk : Disk}
    (h : ∀ entry ∈ disk.entries.entries, "triggers" ∉ entry.1.2) : disk.IsUntriggered := by
  intro home file text _ hthere
  obtain ⟨before, after, hentries, -⟩ := List.lookup_eq_some_iff.1 hthere
  exact h _ (hentries ▸ List.mem_append_right before List.mem_cons_self) (by simp)

theorem SparesDefinitions.staysUntriggered {disk disk' : Disk} (h : SparesDefinitions disk disk') :
    StaysUntriggered disk disk' :=
  fun hdisk home file text hends hthere =>
    hdisk home file text hends ((h.unwritten fun hno => hno hends).1 hthere)

theorem staysUntriggered_of_spares {α : Type} {step : Action Disk α}
    (h : Action.Within SparesDefinitions step) : Action.Within StaysUntriggered step :=
  h.mono fun _ _ hspares => hspares.staysUntriggered

end Disk

namespace Engine

/-- Where no trigger is stored, none is due. -/
theorem triggerJobs_of_isUntriggered {disk : Disk} (h : disk.IsUntriggered) (budget : Nat)
    (who : Identity) (firing : Firing) : triggerJobs disk budget who firing = [] := by
  unfold triggerJobs
  cases htriggers : Trigger.forEvent disk firing.database firing.table firing.event with
  | error failure => rfl
  | ok triggers =>
    obtain ⟨found, hfound, htriggers⟩ := Action.of_bind_eq_ok htriggers
    cases hfiles : (disk.namesIn (Path.triggers firing.database)).filter
        (Trigger.mayHold firing.table firing.event) with
    | nil =>
      rw [hfiles] at hfound
      obtain rfl : [] = found := Except.ok.inj hfound
      obtain rfl : [] = triggers := Except.ok.inj htriggers
      rfl
    | cons file rest =>
      -- A file of that name would be a trigger.
      rw [hfiles, List.mapM_cons] at hfound
      obtain ⟨trigger, hload, -⟩ := Action.of_bind_eq_ok hfound
      obtain ⟨text, htext, -⟩ := Action.of_bind_eq_ok hload
      obtain ⟨place, hplace⟩ := Disk.textAt_eq_ok.1 (Disk.textOr_eq_ok.1 htext)
      obtain ⟨before, name, folder, hpath, hfolder, rfl, hthere, -⟩ := Disk.locate_file hplace
      obtain ⟨rfl, hname⟩ := List.append_inj' hpath rfl
      obtain rfl := (List.cons.inj hname).1
      obtain ⟨home, -, rfl, -⟩ := Disk.locate_directory (Path.isPlain_of_length (by decide)) hfolder
      have hhold := (List.mem_filter.1 (hfiles ▸ List.mem_cons_self : file ∈ List.filter _ _)).2
      rw [Trigger.mayHold, Bool.and_eq_true] at hhold
      exact absurd hthere
        (h home file text ⟨file, by simp, List.isSuffixOf_iff_suffix.1 hhold.2⟩)

/-- A schema is stored beside triggers, not among them. -/
theorem staysUntriggered_storeSchema (database table : String) (columns : List Column)
    (permissions : Permissions) :
    Action.Within Disk.StaysUntriggered (storeSchema database table columns permissions) := by
  have hmake := Disk.staysUntriggered_of_spares
    (Disk.sparesDefinitions_makeDirectories (Path.schemas database))
  refine .ofExcept_bind fun _ hname => .bind (.ofExcept _) fun _ => .bind (.read _) fun _ =>
    .bind (.read _) fun _ => .ite (fun _ => .throw _) fun _ =>
    .bind hmake fun _ => .bind (fun disk hdisk home file found hends hthere => ?_) fun _ => .pure _
  have hvalid : Name.isValid table = true := by
    unfold Name.check at hname
    split at hname
    · assumption
    · exact absurd hname (by simp)
  rcases Disk.writeFile_cases (Path.schema database table)
    ((⟨database, table, columns, permissions⟩ : TableSchema).toJson.indented 0) disk with
    hwrite | ⟨place, hplace, hwrite⟩
  · rw [hwrite] at hthere
    exact hdisk home file found hends hthere
  rw [hwrite, Disk.at?_put] at hthere
  split at hthere
  · rename_i hsame
    obtain ⟨before, name, folder, hpath, -, hfolder, rfl, -⟩ := Disk.filePlace?_eq_some hplace
    rw [Path.schema_of_isValid database hvalid] at hpath
    obtain ⟨rfl, -⟩ := List.append_inj' hpath rfl
    obtain ⟨home', -, rfl, -⟩ := Disk.locate_directory (Path.isPlain_of_length (by decide)) hfolder
    have hparent := (List.append_inj' (List.append_inj' (eq_of_beq hsame) rfl).1 rfl).2
    exact absurd hparent (by decide)
  · exact hdisk home file found hends hthere

/-! ### Two engines -/

/-- Nothing but what index files hold tells two engines apart, beside the jobs that wait in the one
that works in the background. Neither has triggers or transactions. -/
structure Aligned (first second : Engine) : Prop where
  disk : Disk.Rewrites Path.IsIndex first.disk second.disk
  filed : first.disk.IsFiled
  untriggered : first.disk.IsUntriggered
  known : ∀ database table, second.knownSchema database table = first.knownSchema database table
  settings : second.settings = { first.settings with background := true }
  inline : first.settings.background = false
  idle : first.latestJobs = []
  free : first.transactions = .empty
  free' : second.transactions = .empty
  role : second.role = first.role
  clock : second.clock = first.clock

/-- Patching leaves the schemas as they are known. -/
theorem Maintains.knownSchema {e e' : Engine} (h : Maintains e e') (database table : String) :
    e'.knownSchema database table = e.knownSchema database table := by
  unfold Engine.knownSchema
  cases hbefore : e.schemas.get? (database, table) with
  | some found => rw [h.kept _ _ hbefore]
  | none =>
    cases hafter : e'.schemas.get? (database, table) with
    | none => exact readSchema_eq_of_rewrites h.disk database table
    | some found =>
      rcases h.read _ _ hafter with hmemory | hdisk
      · rw [hbefore] at hmemory
        exact absurd hmemory (by simp)
      · exact hdisk.symm

namespace Aligned

variable {first second first' second' : Engine}

/-- Either engine may patch indexes. -/
theorem maintains (h : Aligned first second) (hfirst : Maintains first first')
    (hsecond : Maintains second second') : Aligned first' second' where
  disk := IsTrans.trans _ _ _ hfirst.disk.symm (IsTrans.trans _ _ _ h.disk hsecond.disk)
  filed := (hfirst.disk.sparesDefinitions fun _ => Index.not_endsIn_json).recalls.filed h.filed
  untriggered :=
    (hfirst.disk.sparesDefinitions fun _ => Index.not_endsIn_json).staysUntriggered h.untriggered
  known database table := by rw [hsecond.knownSchema, hfirst.knownSchema, h.known]
  settings := by rw [hsecond.settings, hfirst.settings, h.settings]
  inline := by rw [hfirst.settings, h.inline]
  idle := by rw [hfirst.latestJobs, h.idle]
  free := by rw [hfirst.transactions, h.free]
  free' := by rw [hsecond.transactions, h.free']
  role := by rw [hsecond.role, hfirst.role, h.role]
  clock := by rw [hsecond.clock, hfirst.clock, h.clock]

theorem untriggered' (h : Aligned first second) : second.disk.IsUntriggered :=
  (h.disk.sparesDefinitions fun _ => Index.not_endsIn_json).staysUntriggered h.untriggered

/-- The same is done to both disks. -/
theorem onDisk (h : Aligned first second) {disk disk' : Disk}
    (hdisk : Disk.Rewrites Path.IsIndex disk disk') (hrecalls : Disk.Recalls first.disk disk)
    (hstays : Disk.StaysUntriggered first.disk disk) :
    Aligned { first with disk } { second with disk := disk' } where
  disk := hdisk
  filed := hrecalls.filed h.filed
  untriggered := hstays h.untriggered
  known database table := by
    have hknown := h.known database table
    have hread := hrecalls.schema h.filed database table
    unfold knownSchema at hknown ⊢
    dsimp only
    rw [readSchema_eq_of_rewrites h.disk] at hknown
    rw [readSchema_eq_of_rewrites hdisk]
    -- A schema that only one of them has in memory is still the one on the disk.
    cases hfirst : first.schemas.get? (database, table) with
    | some schema =>
      cases hsecond : second.schemas.get? (database, table) with
      | some other => simpa only [hfirst, hsecond] using hknown
      | none =>
        simp only [hfirst, hsecond] at hknown
        exact hread _ hknown
    | none =>
      cases hsecond : second.schemas.get? (database, table) with
      | some other =>
        simp only [hfirst, hsecond] at hknown
        exact (hread _ hknown.symm).symm
      | none => rfl
  settings := h.settings
  inline := h.inline
  idle := h.idle
  free := h.free
  free' := h.free'
  role := h.role
  clock := h.clock

end Aligned

section Steps

variable {α β : Type}

theorem alike_of_quiet {step : Action Engine α} (hquiet : Action.Within Quiet step)
    (hsame : ∀ first second, Aligned first second → (step second).1 = (step first).1) :
    Action.Alike Aligned step :=
  fun first second h => ⟨hsame first second h,
    h.maintains (hquiet first).maintains (hquiet second).maintains⟩

/-- What leaves no trace leaves none in either engine, even if it is answered differently. -/
theorem alike_attempt_of_quiet {step : Action Engine α} (hquiet : Action.Within Quiet step) :
    Action.Alike Aligned (Action.attempt step) :=
  fun first second h => ⟨rfl, h.maintains (hquiet first).maintains (hquiet second).maintains⟩

theorem alike_readDisk {f : Disk → Except Error α}
    (hsame : ∀ disk disk', Disk.Rewrites Path.IsIndex disk disk' → f disk' = f disk) :
    Action.Alike Aligned (readDisk f) :=
  .read fun _ _ h => hsame _ _ h.disk

theorem alike_look {f : Disk → α}
    (hsame : ∀ disk disk', Disk.Rewrites Path.IsIndex disk disk' → f disk' = f disk) :
    Action.Alike Aligned (look f) :=
  .read fun _ _ h => congrArg Except.ok (hsame _ _ h.disk)

theorem alike_onDisk {step : Action Disk α}
    (hstep : Action.Alike (Disk.Rewrites Path.IsIndex) step)
    (hrecalls : Action.Within Disk.Recalls step)
    (hstays : Action.Within Disk.StaysUntriggered step) : Action.Alike Aligned (onDisk step) := by
  intro first second h
  obtain ⟨hresult, hdisk⟩ := hstep first.disk second.disk h.disk
  exact ⟨hresult, h.onDisk hdisk (hrecalls first.disk) (hstays first.disk)⟩

theorem alike_sparing {step : Action Disk α} (hstep : Action.Alike (Disk.Rewrites Path.IsIndex) step)
    (hspares : Action.Within Disk.SparesDefinitions step) : Action.Alike Aligned (onDisk step) :=
  alike_onDisk hstep (Disk.recalls_of_spares hspares) (Disk.staysUntriggered_of_spares hspares)

/-- Without transactions no change has to wait for a commit. -/
theorem alike_isBuffering {who : Identity} {next : Bool → Action Engine β}
    (hnext : Action.Alike Aligned (next false)) :
    Action.Alike Aligned (isBuffering who >>= next) := by
  intro first second h
  have hrun {e : Engine} (hnone : e.transactions = .empty) :
      (isBuffering who >>= next) e = next false e := by
    change next (e.inTransaction who.user) e = next false e
    rw [inTransaction, hnone]
    rfl
  rw [hrun h.free, hrun h.free']
  exact hnext first second h

/-- Indexes are patched at once, or a job for it waits. -/
theorem alike_patchIndexes (database : String) (schema : TableSchema) (removed added : List String) :
    Action.Alike Aligned (patchIndexes database schema removed added) := by
  intro first second h
  have hbackground : second.settings.background = true := by rw [h.settings]
  unfold patchIndexes dispatch
  rw [Action.get_bind, Action.get_bind, if_pos hbackground, if_neg (by simp [h.inline])]
  have hpatched := h.maintains (maintains_patchTable database schema removed added first) (refl second)
  exact ⟨rfl, hpatched.disk, hpatched.filed, hpatched.untriggered, hpatched.known, hpatched.settings,
    hpatched.inline, hpatched.idle, hpatched.free, hpatched.free', hpatched.role, hpatched.clock⟩

end Steps

/-! ### Checks -/

theorem alike_schema (database table : String) : Action.Alike Aligned (schema database table) :=
  alike_of_quiet (observes_schema database table).quiet fun _ _ h => by
    rw [schema_result, schema_result, h.known]

theorem alike_rows (database table : String) :
    Action.Alike Aligned (readDisk (Table.rows · database table)) :=
  alike_readDisk fun _ _ h => Table.rows_alike (fun _ => Index.not_endsIn_table) h database table

theorem alike_storedValues (database table column : String) :
    Action.Alike Aligned (storedValues database table column) :=
  .bind (alike_schema database table) fun _ => .bind (.ofExcept _) fun _ =>
    .bind (alike_rows database table) fun _ => .pure _

theorem alike_storedCheck (database : String) (check : StoredCheck) :
    Action.Alike Aligned (check.run (storedValues database)) :=
  .bind (alike_storedValues database _ _) fun _ => .ofResult _

theorem alike_checkRow (schema : TableSchema) (database row : String) :
    Action.Alike Aligned (schema.checkRow (storedValues database) row) :=
  .bind (.ofResult _) fun _ => .forM fun check _ => alike_storedCheck database check

theorem alike_checkAssignment (schema : TableSchema) (database table : String)
    (assigned : String × String) :
    Action.Alike Aligned (checkAssignment schema database table assigned) := by
  refine .bind (.ofExcept _) fun position => ?_
  dsimp only
  cases schema.columns[position]? with
  | none => exact .throw _
  | some column =>
    refine .bind (.ofExcept _) fun _ => ?_
    cases column.referenceCheck? assigned.2 with
    | none => exact .pure _
    | some check => exact .bind (alike_storedCheck database check) fun _ => .pure _

theorem alike_writableSchema (who : Identity) (database table : String) :
    Action.Alike Aligned (writableSchema who database table) :=
  .bind (alike_schema database table) fun _ => .bind (.ofExcept _) fun _ => .pure _

/-! ### Commands -/

theorem alike_insert (who : Identity) (database table row : String) :
    Action.Alike Aligned (insert who database table row) :=
  .bind (alike_writableSchema who database table) fun schema =>
    .bind (alike_checkRow schema database row) fun _ => alike_isBuffering <|
    .bind (alike_sparing (Table.alike_append (fun _ => Index.not_endsIn_table) database table row)
      (Table.sparesDefinitions_append database table row)) fun _ =>
    .bind (alike_patchIndexes database schema [] [row]) fun _ => .pure _

theorem alike_modify {α : Type} (database table : String)
    (f : List String → Except Error (List String × α)) :
    Action.Alike Aligned (onDisk (Table.modify database table f)) :=
  alike_sparing (Table.alike_modify (fun _ => Index.not_endsIn_table) database table f)
    (Table.sparesDefinitions_modify database table f)

theorem alike_update (who : Identity) (database table : String) (assigned : Keyed String String)
    (conditions : List Condition) :
    Action.Alike Aligned (update who database table assigned conditions) :=
  .bind (alike_writableSchema who database table) fun schema =>
    .bind (.mapM fun pair => alike_checkAssignment schema database table pair) fun _ =>
    alike_isBuffering <| .bind (alike_modify database table _) fun _ =>
    .ite (.bind (alike_patchIndexes _ _ _ _) fun _ => .pure _) (.pure _)

theorem alike_delete (who : Identity) (database table : String) (conditions : List Condition) :
    Action.Alike Aligned (delete who database table conditions) :=
  .bind (alike_writableSchema who database table) fun _ =>
    alike_isBuffering <| .bind (alike_modify database table _) fun _ =>
    .ite (.bind (alike_patchIndexes _ _ _ _) fun _ => .pure _) (.pure _)

theorem alike_remember (database table : String) (schema : TableSchema) :
    Action.Alike Aligned (remember database table schema) := by
  refine .modify fun first second h => { h with known := fun other name => ?_ }
  have hknown := h.known other name
  unfold knownSchema at hknown ⊢
  dsimp only
  rw [Keyed.get?_insert, Keyed.get?_insert]
  by_cases hsame : ((other, name) == (database, table)) = true
  · rw [if_pos hsame, if_pos hsame]
  · rw [if_neg hsame, if_neg hsame]
    exact hknown

theorem alike_createTable (database table definition : String) :
    Action.Alike Aligned (createTable database table definition) := by
  refine .bind (alike_look fun _ _ h => h.hasFile_eq _) fun _ => .ite (.throw _)
    (.bind (.ofExcept _) fun _ => .bind ?_ fun _ =>
      .bind (alike_sparing (Table.alike_init database table)
        (Table.sparesDefinitions_init database table)) fun _ => .pure _)
  rw [createSchema_eq]
  exact .bind (alike_onDisk (alike_storeSchema _ _ _ _) (recalls_storeSchema _ _ _ _)
    (staysUntriggered_storeSchema _ _ _ _)) fun _ => .bind (alike_remember _ _ _) fun _ => .pure _

theorem alike_createIndex (kind : IndexKind) (database table column : String) :
    Action.Alike Aligned (createIndex kind database table column) :=
  .bind (alike_schema database table) fun _ => .bind (.ofExcept _) fun _ =>
    .bind (alike_sparing (Index.alike_build _ _ _ _ _) (Index.sparesDefinitions_build _ _ _ _ _))
      fun _ => .pure _

theorem alike_createView (database name query : String) :
    Action.Alike Aligned (createView database name query) :=
  .bind (alike_look fun _ _ h => h.hasEntry_eq _) fun _ => .ite (.throw _)
    (.bind (alike_sparing (View.alike_save database name query)
      (View.sparesDefinitions_save database name query)) fun _ => .pure _)

theorem alike_become (role : NodeRole) : Action.Alike Aligned (become role) := by
  refine .bind (.modify fun first second h => { h with role := rfl }) fun _ => ?_
  cases role with
  | master => exact .pure _
  | replica host => exact .pure _

end Engine

/-- Whether a command neither controls a transaction nor defines a trigger. -/
def Command.standsAlone : Command → Bool
  | .transaction _ | .createTrigger _ => false
  | _ => true

namespace Engine

section Executing

variable {executing : Executing}
  (hselect : ∀ who query, Observes (executing who (.select query)))

include hselect

/-- What a command that stands alone leaves behind. -/
theorem alike_effectIn (who : Identity) (database : String) {command : Command}
    (hcommand : command.standsAlone = true) :
    Action.Alike Aligned (Action.attempt (effectIn executing who database command)) := by
  have hquiet {step : Action Engine Outcome} (hstep : Observes step) :
      Action.Alike Aligned (Action.attempt (Effect.ofOutcome <$> step)) :=
    alike_attempt_of_quiet (.bind hstep.quiet fun _ => .pure _)
  cases command with
  | insert table row => exact (alike_insert who database table row).attempt
  | update table assigned conditions =>
    exact (alike_update who database table assigned conditions).attempt
  | delete table conditions => exact (alike_delete who database table conditions).attempt
  | createTable table definition => exact ((alike_createTable database table definition).map _).attempt
  | select query => exact hquiet (observes_select hselect who database query)
  | transaction control => exact absurd hcommand (by simp [Command.standsAlone])
  | createIndex kind table column =>
    exact ((alike_createIndex kind database table column).map _).attempt
  | createView name query => exact ((alike_createView database name query).map _).attempt
  | createTrigger definition => exact absurd hcommand (by simp [Command.standsAlone])
  | search table column word => exact hquiet (observes_search who database table column word)
  | showDatabases => exact hquiet (.bind (.look _) fun _ => .pure _)
  | become role => exact ((alike_become role).map _).attempt

theorem alike_effect (who : Identity) {command : Command} (hcommand : command.standsAlone = true) :
    Action.Alike Aligned (Action.attempt (effect executing who command)) := by
  refine .attempt_bind (.read fun _ _ h => by rw [h.role]) fun _ => ?_
  have hin : Action.Alike Aligned (Action.attempt (do
      let database ← Action.ofExcept who.requireDatabase
      effectIn executing who database command)) :=
    .attempt_bind (.ofExcept _) fun database => alike_effectIn hselect who database hcommand
  cases command with
  | showDatabases =>
    have hshow : Observes showDatabases := .bind (.look _) fun _ => .pure _
    exact alike_attempt_of_quiet (.bind hshow.quiet fun _ => .pure _)
  | become role => exact ((alike_become role).map _).attempt
  | _ => exact hin

end Executing

/-- Without triggers nothing follows what a command does itself. -/
theorem perform_snd {executing : Executing} {budget : Nat} {who : Identity} {command : Command}
    {e : Engine} (h : (effect executing who command e).2.disk.IsUntriggered) :
    (perform executing budget who command e).2 = (effect executing who command e).2 := by
  unfold perform
  cases heffect : effect executing who command e with
  | mk result after =>
  rw [heffect] at h
  cases result with
  | error failure => rw [Action.bind_of_error heffect]
  | ok effect =>
    obtain ⟨outcome, firing⟩ := effect
    rw [Action.bind_of_ok heffect]
    cases firing with
    | none => rfl
    | some firing =>
      rw [bind_pure_snd]
      change ((fireTriggers executing budget who firing) after).2 = after
      rw [fireTriggers, Action.get_bind, triggerJobs_of_isUntriggered h]
      rfl

/-- A statement that stands alone leaves two engines aligned, and either does what its command
does. -/
theorem Aligned.run {first second : Engine} (h : Aligned first second) {who : Identity}
    {text : String} {command : Command} (hparse : Statement.parse text = .ok command)
    (hcommand : command.standsAlone = true) :
    Aligned (Engine.run (some who) text first).2 (Engine.run (some who) text second).2 ∧
      ∀ e, e = first ∨ e = second → (Engine.run (some who) text e).2
        = (effect (executeWithin e.settings.nestingLimit) who command e).2 := by
  have hlimit : second.settings.nestingLimit = first.settings.nestingLimit := by rw [h.settings]
  have heffect : Aligned
      (effect (executeWithin first.settings.nestingLimit) who command first).2
      (effect (executeWithin first.settings.nestingLimit) who command second).2 :=
    (alike_effect (observes_executeWithin _) who hcommand first second h).2
  have hfirst := @perform_snd _ first.settings.nestingLimit _ _ _ heffect.untriggered
  have hsecond := @perform_snd _ first.settings.nestingLimit _ _ _ heffect.untriggered'
  rw [run_of_parse hparse, run_of_parse hparse, hlimit, hfirst, hsecond]
  refine ⟨heffect, ?_⟩
  rintro e (rfl | rfl)
  · rw [run_of_parse hparse, hfirst]
  · rw [run_of_parse hparse, hlimit, hsecond]

end Engine

end FlatFileDb
