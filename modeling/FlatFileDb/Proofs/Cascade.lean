import FlatFileDb.Proofs.Form
import FlatFileDb.Proofs.Lockstep
import FlatFileDb.Proofs.Queue
import FlatFileDb.Proofs.Single
import Mathlib.Algebra.Ring.GeomSum

/-!
# How far triggers reach

Triggers that insert into the table that they are on keep each other going until no nesting is left.
At once they do so in depth, one trigger with all that comes of it before the next; where maintenance
waits they do so in breadth, by the queue. Both ways each insertion adds one row and owes the rows that
come of its triggers, so what the table has and what is still owed for it have one total, which every
job keeps.
-/

open Finset

namespace FlatFileDb

namespace Engine

/-- The rows that come of one insertion where so many levels of nesting are left for it and each
insertion makes `width` more. -/
def rowsWithin (width budget : Nat) : Nat :=
  ∑ level ∈ range budget, width ^ level

/-- The row itself, and what comes of the triggers. -/
theorem rowsWithin_succ (width budget : Nat) :
    rowsWithin width (budget + 1) = 1 + width * rowsWithin width budget := by
  rw [rowsWithin, rowsWithin, geom_sum_succ, Nat.add_comm]

/-- The rows that come of a job. -/
def rowsOwed (width : Nat) : Job → Nat
  | .runTrigger _ _ budget => rowsWithin width budget
  | _ => 0

/-- The rows that come of all jobs that wait. -/
def owed (width : Nat) (jobs : List Job) : Nat :=
  (jobs.map (rowsOwed width)).sum

@[simp] theorem owed_nil (width : Nat) : owed width [] = 0 := rfl

@[simp] theorem owed_cons (width : Nat) (job : Job) (jobs : List Job) :
    owed width (job :: jobs) = rowsOwed width job + owed width jobs := by
  rw [owed, List.map_cons, List.sum_cons, ← owed]

@[simp] theorem owed_append (width : Nat) (jobs more : List Job) :
    owed width (jobs ++ more) = owed width jobs + owed width more := by
  rw [owed, List.map_append, List.sum_append, ← owed, ← owed]

/-- Somebody may insert into a table whose rows are checked by themselves alone, and what the triggers
given do is to insert one more row of the right form there. -/
structure SelfFeeding (who : Identity) (database table : String) (schema : TableSchema)
    (triggers : List Trigger) : Prop where
  database : who.requireDatabase = .ok database
  writable : schema.require who.role .write = .ok ()
  plain : ∀ column ∈ schema.columns, column.unique = false ∧ column.reference = none
  action : ∀ trigger ∈ triggers, ∃ row,
    Statement.parse trigger.definition.action = .ok (.insert table row) ∧ schema.Takes row

/-- If a job is to run a trigger, it is one of those given, for the identity given. -/
def IsOneOf (who : Identity) (triggers : List Trigger) : Job → Prop
  | .runTrigger user action _ =>
    user = who ∧ ∃ trigger ∈ triggers, trigger.definition.action = action
  | _ => True

/-- The table has the rows given and others behind them, which are so many in total with those still
owed by the jobs that wait. -/
structure Owes (who : Identity) (database table : String) (schema : TableSchema)
    (triggers : List Trigger) (rows : List String) (total : Nat) (e : Engine) : Prop where
  sound : e.IsSound
  role : e.role = .master
  free : e.inTransaction who.user = false
  known : readSchema e.disk database table = .ok schema
  due : Trigger.forEvent e.disk database table .insert = .ok triggers
  jobs : ∀ job ∈ e.latestJobs, IsOneOf who triggers job
  rows : ∃ added, Table.rows e.disk database table = .ok (rows ++ added) ∧
    added.length + owed triggers.length e.latestJobs = total
  inline : e.settings.background = false → owed triggers.length e.latestJobs = 0

section Owing

variable {who : Identity} {database table row : String} {schema : TableSchema}
  {triggers : List Trigger} {rows : List String} {total : Nat} {e e' : Engine}

namespace Owes

/-- Patching adds no rows. -/
theorem maintains (h : Owes who database table schema triggers rows total e) (hafter : Maintains e e') :
    Owes who database table schema triggers rows total e' where
  sound := h.sound.maintains hafter
  role := hafter.role.trans h.role
  free := by rw [inTransaction, hafter.transactions]; exact h.free
  known := (readSchema_eq_of_rewrites hafter.disk database table).trans h.known
  due := (Trigger.forEvent_of_rewrites hafter.disk (fun _ => Index.not_endsIn_json) database table
    .insert).trans h.due
  jobs := by rw [hafter.latestJobs]; exact h.jobs
  rows := by
    rw [Table.rows_alike (fun _ => Index.not_endsIn_table) hafter.disk, hafter.latestJobs]
    exact h.rows
  inline := by rw [hafter.settings, hafter.latestJobs]; exact h.inline

/-- A job that waits owes what comes of it. -/
theorem enqueue {job : Job} (h : Owes who database table schema triggers rows total e)
    (hbackground : e.settings.background = true) (hjob : IsOneOf who triggers job) :
    Owes who database table schema triggers rows (total + rowsOwed triggers.length job)
      { e with latestJobs := job :: e.latestJobs } where
  sound := h.sound.step rfl (refl e.disk) rfl (fun _ _ hkey => .inl hkey) h.sound.waiting
  role := h.role
  free := h.free
  known := h.known
  due := h.due
  jobs := List.forall_mem_cons.2 ⟨hjob, h.jobs⟩
  rows := by
    obtain ⟨added, hrows, htotal⟩ := h.rows
    exact ⟨added, hrows, by rw [owed_cons]; omega⟩
  inline hinline := absurd (hinline.symm.trans hbackground) (by simp)

/-- Whether a job runs at once or waits, what comes of it is added to the total. -/
theorem dispatch {job : Job} {step : Action Engine Unit}
    (h : Owes who database table schema triggers rows total e) (hjob : IsOneOf who triggers job)
    (hstep : Owes who database table schema triggers rows (total + rowsOwed triggers.length job)
      (step e).2) :
    Owes who database table schema triggers rows (total + rowsOwed triggers.length job)
      (Engine.dispatch job step e).2 := by
  rw [Engine.dispatch, Action.get_bind]
  cases hbackground : e.settings.background with
  | true => exact h.enqueue hbackground hjob
  | false => exact hstep

/-- The row is in the table, and nothing else has changed that is spoken of. -/
theorem append {e₁ : Engine} (h : Owes who database table schema triggers rows total e)
    (hquiet : Quiet e e₁) {place : Path} {text text' : String}
    (hlocate : e.disk.locate (Path.table database table) = .ok (place, .file text))
    (hwritten : Text.filledLines text' = Text.filledLines text ++ [row])
    (hsound : IsSound { e₁ with disk := e.disk.put place (.file text') })
    (hschema : Engine.readSchema (e.disk.put place (.file text')) database table = .ok schema) :
    Owes who database table schema triggers rows (total + 1)
      { e₁ with disk := e.disk.put place (.file text') } := by
  obtain ⟨-, -, -, -, -, -, hthere, -⟩ := Disk.locate_file hlocate
  have hends := Path.endsIn_of_locate hlocate (Path.endsIn_table database table)
  have hput : Disk.Rewrites (Path.EndsIn ".mg") e.disk (e.disk.put place (.file text')) :=
    Disk.rewrites_put hends hthere text'
  refine ⟨hsound, hquiet.role.trans h.role, hquiet.inTransaction who.user ▸ h.free, hschema, ?_, ?_,
    ?_, ?_⟩
  · exact (Trigger.forEvent_of_rewrites hput (fun _ hplace => hplace.not (by decide)) database table
      .insert).trans h.due
  · change ∀ job ∈ e₁.latestJobs, _
    rw [hquiet.latestJobs]
    exact h.jobs
  · obtain ⟨added, hrows, htotal⟩ := h.rows
    rw [Table.rows_of_locate hlocate, Except.ok.injEq] at hrows
    obtain ⟨found, hfound, hput⟩ := hput.grows.locate_file hlocate
    rw [Disk.at?_put, if_pos (by simp), Option.some.injEq, DiskEntry.file.injEq] at hput
    refine ⟨added ++ [row], ?_, ?_⟩
    · change Table.rows (e.disk.put place (.file text')) database table = _
      rw [Table.rows_of_locate hfound, ← hput, hwritten, hrows, List.append_assoc]
    · change (added ++ [row]).length + owed triggers.length e₁.latestJobs = total + 1
      rw [hquiet.latestJobs, List.length_append, List.length_singleton]
      omega
  · change e₁.settings.background = false → owed triggers.length e₁.latestJobs = 0
    rw [hquiet.settings, hquiet.latestJobs]
    exact h.inline

end Owes

/-- A row of the right form passes where no value is to be unique or to be found elsewhere. -/
theorem checkRow_of_takes (hplain : ∀ column ∈ schema.columns,
    column.unique = false ∧ column.reference = none) (hrow : schema.Takes row) (e : Engine) :
    schema.checkRow (storedValues database) row e = (.ok (), e) := by
  have hnone : schema.storedChecks (Row.fields row) = [] := by
    refine List.flatMap_eq_nil_iff.2 fun (column, value) hmem => ?_
    obtain ⟨hunique, hreference⟩ := hplain column (List.of_mem_zip hmem).1
    simp [Column.storedChecks, Column.referenceCheck?, hunique, hreference]
  rw [TableSchema.checkRow, hrow.checkFields, hnone]
  rfl

/-- A row is inserted, and the triggers on that are due. -/
theorem Owes.insert (hfeeding : SelfFeeding who database table schema triggers)
    (h : Owes who database table schema triggers rows total e) (htable : Name.isValid table = true)
    (hrow : schema.Takes row) (hfilled : Text.isFilled row = true) :
    ∃ after, insert who database table row e = (.ok {
        outcome := .ofMessage s!"1 row inserted into '{table}'"
        firing := some ⟨database, table, .insert⟩ }, after) ∧
      Owes who database table schema triggers rows (total + 1) after := by
  have hknown := h.sound.knownSchema_of_readSchema htable h.known
  have hwritable := writableSchema_of_require hknown hfeeding.writable
  rcases hread : writableSchema who database table e with ⟨result, e₁⟩
  have hquiet := (observes_writableSchema who database table).quiet e
  rw [hread] at hwritable hquiet
  dsimp only at hwritable hquiet
  subst hwritable
  have hpassed : (schema.checkRow (storedValues database) row e).1 = .ok () := by
    rw [checkRow_of_takes hfeeding.plain hrow]
  -- The row is appended as a commit would append it.
  obtain ⟨added, hadded, -⟩ := h.rows
  obtain ⟨place, text, hlocate, -⟩ := Table.locate_of_rows hadded
  let entry := pendingEntry ⟨"", []⟩ who.user 0 .insert database table (Row.id row) row none
  have hentry : entry.IsSound := ⟨htable, isLine_of_checkRow hpassed⟩
  rcases Log.Entry.perform_of_locate h.sound.disk hentry hlocate with
    ⟨after, text', hchange, hwritten, hperform⟩ | ⟨hnone, -⟩
  swap
  · exact absurd hnone (by simp [Log.Entry.change?, entry, pendingEntry])
  have hfilledRows : ∀ line ∈ Text.filledLines text ++ [row], Text.isFilled line = true := by
    intro line hline
    rw [List.mem_append, List.mem_singleton] at hline
    rcases hline with hline | rfl
    · exact (h.sound.disk.row (Table.rows_of_locate hlocate) line hline).2
    · exact hfilled
  rw [← Option.some.inj hchange] at hwritten
  replace hwritten : Text.filledLines text' = (Text.filledLines text ++ [row]).filter Text.isFilled :=
    hwritten
  rw [List.filter_eq_self.2 hfilledRows] at hwritten
  have hwrite : Table.append database table row e.disk
      = (.ok (), e.disk.put place (.file text')) := hperform
  have hown : Own who (.insert table row) e { e₁ with disk := e.disk.put place (.file text') }
      (.rows database schema [] [row]) :=
    .insert hfeeding.database hquiet h.free hknown hpassed hwrite
  have hnamed : (Command.insert table row).isWellNamed = true := htable
  have hdone := h.append hquiet hlocate hwritten (h.sound.own hnamed hown)
    (h.sound.readSchema_own hnamed hown htable h.known)
  have happend : onDisk (Table.append database table row) e₁
      = (.ok (), { e₁ with disk := e.disk.put place (.file text') }) := by
    rw [onDisk, Action.onPart_apply, hquiet.disk, hwrite]
  have hpatch : IsOneOf who triggers (.patchRows database schema [] [row]) := trivial
  have hpatched := hdone.dispatch hpatch
    (hdone.maintains (maintains_patchTable database schema [] [row] _))
  refine ⟨_, ?_, hpatched⟩
  rw [Engine.insert, Action.bind_of_ok hread,
    Action.bind_of_ok (checkRow_of_takes hfeeding.plain hrow e₁), isBuffering_bind,
    hquiet.inTransaction, h.free, if_neg (by simp), Action.bind_of_ok happend,
    Action.bind_of_ok (patchIndexes_ok schema [] [row] _)]
  rfl

/-- Triggers that are dispatched one after the other each add what comes of their own row. -/
theorem Owes.dispatchAll (hfeeding : SelfFeeding who database table schema triggers)
    {executing : Executing} {budget : Nat}
    (hexecuting : ∀ {row : String} {total : Nat} {e : Engine},
      Owes who database table schema triggers rows total e → schema.Takes row →
        Text.isFilled row = true →
          Owes who database table schema triggers rows (total + rowsWithin triggers.length budget)
            (executing who (.insert table row) e).2)
    {fired : List Trigger} (hfired : ∀ trigger ∈ fired, trigger ∈ triggers)
    (h : Owes who database table schema triggers rows total e) :
    ∃ after, ((fired.map fun trigger => Job.runTrigger who trigger.definition.action budget).forM
        fun job => Engine.dispatch job (job.run fun _ => executing)) e = (.ok (), after) ∧
      Owes who database table schema triggers rows
        (total + fired.length * rowsWithin triggers.length budget) after := by
  induction fired generalizing total e with
  | nil => exact ⟨e, rfl, by rwa [List.length_nil, Nat.zero_mul, Nat.add_zero]⟩
  | cons trigger rest ih =>
    obtain ⟨hmem, hrest⟩ := List.forall_mem_cons.1 hfired
    obtain ⟨row, hparse, hrow⟩ := hfeeding.action trigger hmem
    let job := Job.runTrigger who trigger.definition.action budget
    have hstep : Owes who database table schema triggers rows
        (total + rowsOwed triggers.length job) (job.run (fun _ => executing) e).2 := by
      rw [Job.run, Action.ofExcept_bind, hparse]
      dsimp only
      rw [bind_pure_snd]
      exact hexecuting h hrow (Statement.isFilled_of_parse hparse)
    have hjob : IsOneOf who triggers job := ⟨rfl, trigger, hmem, rfl⟩
    obtain ⟨after, hrun, hafter⟩ := ih hrest (h.dispatch hjob hstep)
    have hfirst : Engine.dispatch job (job.run fun _ => executing) e
        = (.ok (), (Engine.dispatch job (job.run fun _ => executing) e).2) := dispatch_ok _ _ e
    refine ⟨after, ?_, ?_⟩
    · rw [List.map_cons, List.forM_eq_forM, List.forM_cons, Action.bind_of_ok hfirst,
        ← List.forM_eq_forM, hrun]
    · rw [List.length_cons, Nat.succ_mul, Nat.add_comm (rest.length * _), ← Nat.add_assoc]
      exact hafter

/-- An insertion adds the rows that come of it to the total, and as long as any nesting is left for it
it reports its own. -/
theorem Owes.executeWithin (hfeeding : SelfFeeding who database table schema triggers) (budget : Nat)
    (htable : Name.isValid table = true)
    (h : Owes who database table schema triggers rows total e) (hrow : schema.Takes row)
    (hfilled : Text.isFilled row = true) :
    Owes who database table schema triggers rows (total + rowsWithin triggers.length budget)
        (executeWithin budget who (.insert table row) e).2 ∧
      (0 < budget → (Engine.executeWithin budget who (.insert table row) e).1
        = .ok (.ofMessage s!"1 row inserted into '{table}'")) := by
  induction budget generalizing row total e with
  | zero => exact ⟨h, fun hno => absurd hno (by simp)⟩
  | succ budget ih =>
    obtain ⟨e₁, hinsert, hinserted⟩ := h.insert hfeeding htable hrow hfilled
    have hallowed : authorize who (.insert table row) e.role = .ok () := by
      rw [authorize, hfeeding.database, h.role]
      · rfl
      all_goals simp
    have heffect := (@effect_of_authorize who e (Engine.executeWithin budget) database
      (.insert table row) hallowed hfeeding.database (by simp) (by simp)).trans hinsert
    obtain ⟨after, hrun, hafter⟩ := hinserted.dispatchAll hfeeding
      (fun h hrow hfilled => (ih h hrow hfilled).1) fun _ hmem => hmem
    have hfire : fireTriggers (Engine.executeWithin budget) budget who ⟨database, table, .insert⟩ e₁
        = (.ok (), after) := by
      rw [fireTriggers, Action.get_bind,
        @Trace.triggerJobs_of_forEvent e₁.disk ⟨database, table, .insert⟩ triggers hinserted.due]
      exact hrun
    have hperform : Engine.executeWithin (budget + 1) who (.insert table row) e
        = (.ok (.ofMessage s!"1 row inserted into '{table}'"), after) := by
      rw [Engine.executeWithin, perform, Action.bind_of_ok heffect]
      exact Action.bind_of_ok hfire
    rw [hperform, rowsWithin_succ, ← Nat.add_assoc]
    exact ⟨hafter, fun _ => rfl⟩

/-- The next job takes nothing off the total: what it owed is in the table or owed by others. -/
theorem Owes.runOldest (hfeeding : SelfFeeding who database table schema triggers)
    (htable : Name.isValid table = true)
    (h : Owes who database table schema triggers rows total e) :
    Owes who database table schema triggers rows total e.runOldest := by
  cases hjobs : e.jobs with
  | nil =>
    rw [Engine.runOldest, hjobs]
    exact h
  | cons job rest =>
    have hlatest : e.latestJobs = rest.reverse ++ [job] := by
      rw [← List.reverse_cons, ← hjobs, Engine.jobs, List.reverse_reverse]
    obtain ⟨added, hrows, htotal⟩ := h.rows
    rw [hlatest, owed_append, owed_cons, owed_nil, Nat.add_zero] at htotal
    have hwaits : ∀ other ∈ rest.reverse ++ [job], IsOneOf who triggers other := by
      rw [← hlatest]
      exact h.jobs
    have hless : Owes who database table schema triggers rows
        (added.length + owed triggers.length rest.reverse)
        { e with latestJobs := rest.reverse } := by
      refine ⟨h.sound.step rfl (refl e.disk) rfl (fun _ _ hkey => .inl hkey) h.sound.waiting, h.role,
        h.free, h.known, h.due, fun other hother => hwaits other (List.mem_append_left _ hother),
        ⟨added, hrows, rfl⟩, fun hinline => ?_⟩
      have hnone := h.inline hinline
      rw [hlatest, owed_append] at hnone
      exact Nat.eq_zero_of_add_eq_zero_right hnone
    have hone := hwaits job (by simp)
    rw [runOldest_of_jobs hjobs]
    cases job with
    | patchRows database schema removed added' =>
      exact htotal ▸ hless.maintains (maintains_patchTable _ _ _ _ _)
    | patchEntries entries =>
      have hpatched : Action.Within Maintains (entries.forM Job.patchEntry) :=
        .forM fun entry _ => maintains_patchEntry entry
      exact htotal ▸ hless.maintains (hpatched _)
    | runTrigger user action budget =>
      obtain ⟨rfl, trigger, hmem, rfl⟩ := hone
      obtain ⟨row, hparse, hrow⟩ := hfeeding.action trigger hmem
      rw [Job.run, Action.ofExcept_bind, hparse]
      dsimp only
      rw [bind_pure_snd, ← htotal, ← Nat.add_assoc]
      exact (hless.executeWithin hfeeding budget htable hrow (Statement.isFilled_of_parse hparse)).1

/-- Behind the last job the total is in the table. -/
theorem Owes.settle (hfeeding : SelfFeeding who database table schema triggers)
    (htable : Name.isValid table = true)
    (h : Owes who database table schema triggers rows total e) :
    ∃ added, added.length = total ∧
      Table.rows (settle e).2.disk database table = .ok (rows ++ added) := by
  obtain ⟨turns, hturns, hempty⟩ := settle_eq_iterate e
  have hiterated (turns : Nat) :
      Owes who database table schema triggers rows total (Engine.runOldest^[turns] e) := by
    induction turns with
    | zero => exact h
    | succ turns ih =>
      rw [Function.iterate_succ_apply']
      exact ih.runOldest hfeeding htable
  have hlast := hiterated turns
  rw [← hturns] at hlast
  obtain ⟨added, hrows, htotal⟩ := hlast.rows
  rw [List.reverse_eq_nil_iff.1 hempty, owed_nil, Nat.add_zero] at htotal
  exact ⟨added, htotal, hrows⟩

end Owing

end Engine

/-- Triggers that insert into their own table stop at the nesting limit. After every run, where `k`
triggers are due on insertions into a table, nothing is unique in it or refers elsewhere and each of
them inserts a row of the right form there: one insertion outside of a transaction by somebody who may
write the table reports its row and adds one row and those of its triggers, level by level up to the
limit. They are there when the statement returns unless maintenance waits, and after settling in any
case. -/
theorem Run.cascade_adds (run : Run) {who : Identity} {database table text row : String}
    {schema : TableSchema} {triggers : List Trigger} {rows : List String}
    (hfeeding : Engine.SelfFeeding who database table schema triggers)
    (hrole : run.last.role = .master) (hfree : run.last.inTransaction who.user = false)
    (hschema : Engine.readSchema run.last.disk database table = .ok schema)
    (htriggers : Trigger.forEvent run.last.disk database table .insert = .ok triggers)
    (hidle : ∀ user action budget, .runTrigger user action budget ∉ run.last.jobs)
    (hrows : Table.rows run.last.disk database table = .ok rows)
    (hparse : Statement.parse text = .ok (.insert table row)) (hrow : schema.Takes row) :
    let inserted := Engine.run (some who) text run.last
    let adds := fun disk : Disk => ∃ added,
      added.length = ∑ level ∈ range (run.settings.nestingLimit + 1), triggers.length ^ level ∧
        Table.rows disk database table = .ok (rows ++ added)
    inserted.1 = .ok (.ofMessage s!"1 row inserted into '{table}'") ∧
      (run.settings.background = false → adds inserted.2.disk) ∧
        adds (Engine.settle inserted.2).2.disk := by
  have htable : Name.isValid table = true := Statement.isWellNamed_of_parse hparse
  have hnone : Engine.owed triggers.length run.last.latestJobs = 0 := by
    refine List.sum_eq_zero fun rowsOf hmem => ?_
    obtain ⟨job, hjob, rfl⟩ := List.mem_map.1 hmem
    cases job with
    | runTrigger user action budget =>
      exact absurd (List.mem_reverse.2 hjob) (hidle user action budget)
    | patchRows | patchEntries => rfl
  have howes : Engine.Owes who database table schema triggers rows 0 run.last := by
    refine ⟨run.isSound_last, hrole, hfree, hschema, htriggers, fun job hjob => ?_,
      ⟨[], by rw [hrows, List.append_nil], by rw [hnone]; rfl⟩, fun _ => hnone⟩
    cases job with
    | runTrigger user action budget =>
      exact absurd (List.mem_reverse.2 hjob) (hidle user action budget)
    | patchRows | patchEntries => exact trivial
  obtain ⟨hafter, hresult⟩ := howes.executeWithin hfeeding (run.settings.nestingLimit + 1) htable hrow
    (Statement.isFilled_of_parse hparse)
  dsimp only
  rw [Engine.run_of_parse hparse, run.settings_last]
  rw [Nat.zero_add] at hafter
  refine ⟨hresult (Nat.succ_pos _), fun hinline => ?_, hafter.settle hfeeding htable⟩
  obtain ⟨added, hadded, htotal⟩ := hafter.rows
  rw [hafter.inline ?_, Nat.add_zero] at htotal
  · exact ⟨added, htotal, hadded⟩
  · rw [((Engine.Trace.start : Engine.Trace run.last [] run.last).execute_command _ who
        (.insert table row) htable).settings_eq,
      run.settings_last, hinline]

namespace Run

/-- A table on which two triggers insert one more row each, where triggers may nest twice. -/
def feeding (background : Bool) : Run where
  settings := { Settings.standard with background, nestingLimit := 2 }
  clock := 0
  first :=
    { (standard []).first with
      settings := { Settings.standard with background, nestingLimit := 2 } }
  opened := @Engine.openOn_withSettings (standard []).settings _ _ _ (standard []).first rfl (standard []).opened
  events := .createDatabase "kantor" ::
    ["CREATE TABLE t id:INT", "CREATE TRIGGER a WHEN INSERT ON t DO INSERT t 2",
      "CREATE TRIGGER b WHEN INSERT ON t DO INSERT t 3"].map (.statement (some author))

/-- The schema of a table of numbers. -/
def numbersSchema : TableSchema where
  database := "kantor"
  name := "t"
  columns := [.plain "id" .int]
  permissions := .standard

theorem cascade_adds_feeding :
    (∃ added, added.length = 7 ∧
        Table.rows (Engine.run (some author) "INSERT t 1" (feeding false).last).2.disk "kantor" "t"
          = .ok added) ∧
      ∃ added, added.length = 7 ∧
        Table.rows (Engine.settle (Engine.run (some author) "INSERT t 1" (feeding true).last).2).2.disk
          "kantor" "t" = .ok added := by
  let triggers : List Trigger :=
    [⟨⟨"a", .insert, "t", "INSERT t 2"⟩, 0⟩, ⟨⟨"b", .insert, "t", "INSERT t 3"⟩, 0⟩]
  have hparse : Statement.parse "INSERT t 1" = .ok (.insert "t" "1") ∧
      Statement.parse "INSERT t 2" = .ok (.insert "t" "2") ∧
      Statement.parse "INSERT t 3" = .ok (.insert "t" "3") := by decide +kernel
  have htakes : numbersSchema.Takes "1" ∧ numbersSchema.Takes "2" ∧ numbersSchema.Takes "3" :=
    ⟨TableSchema.takes_of_checkFields rfl, TableSchema.takes_of_checkFields rfl,
      TableSchema.takes_of_checkFields rfl⟩
  have hfeeding : Engine.SelfFeeding author "kantor" "t" numbersSchema triggers :=
    ⟨rfl, rfl, by decide, by
      simp only [triggers, List.forall_mem_cons]
      exact ⟨⟨"2", hparse.2.1, htakes.2.1⟩, ⟨"3", hparse.2.2, htakes.2.2⟩, by simp⟩⟩
  have hrun (background : Bool) : (feeding background).last.role = .master ∧
      (feeding background).last.inTransaction "asep" = false ∧
      (feeding background).last.knownSchema "kantor" "t" = .ok numbersSchema ∧
      Trigger.forEvent (feeding background).last.disk "kantor" "t" .insert = .ok triggers ∧
      (feeding background).last.jobs = [] ∧
      Table.rows (feeding background).last.disk "kantor" "t" = .ok [] := by
    cases background <;> decide +kernel
  have hadds (background : Bool) := by
    obtain ⟨hrole, hfree, hknown, htriggers, hjobs, hrows⟩ := hrun background
    exact (feeding background).cascade_adds hfeeding hrole hfree
      ((feeding background).isSound_last.readSchema (by decide) hknown) htriggers
      (fun _ _ _ hmem => absurd (hjobs ▸ hmem) List.not_mem_nil) hrows hparse.1 htakes.1
  exact ⟨(hadds false).2.1 rfl, (hadds true).2.2⟩

end Run

end FlatFileDb
