import FlatFileDb.Proofs.Invariant
import Mathlib.Data.List.Fold
import Mathlib.Data.List.MinMax
import Mathlib.Logic.Function.Iterate
import Mathlib.Order.Nat

/-!
# The queue

No step looks at the jobs that wait: it comes to the same whatever they are, and what it lets wait
comes behind them. So running a generation of jobs is running one job after the other, always the one
that has waited longest, and settling is doing so until none is left. A job that comes up has less
nesting left than the one that it comes from, which is why the queue always comes to an end.
-/

namespace FlatFileDb

namespace Engine

/-- The second engine is the first one with jobs that have waited longer. -/
def Ahead (older : List Job) (first second : Engine) : Prop :=
  second = { first with latestJobs := first.latestJobs ++ older }

/-- A step that does not look at the jobs that wait. -/
def IsBlind {α : Type} (step : Action Engine α) : Prop :=
  ∀ older, Action.Alike (Ahead older) step

namespace IsBlind

variable {α β : Type}

theorem pure (a : α) : IsBlind (pure a : Action Engine α) :=
  fun _ => .pure a

theorem throw (e : Error) : IsBlind (throw e : Action Engine α) :=
  fun _ => .throw e

theorem ofExcept (result : Except Error α) : IsBlind (Action.ofExcept result) :=
  fun _ => .ofExcept result

theorem ofResult (result : Except Error α) :
    IsBlind (MonadExcept.ofExcept result : Action Engine α) :=
  fun _ => .ofResult result

theorem read {f : Engine → Except Error α}
    (h : ∀ e jobs, f { e with latestJobs := jobs } = f e) : IsBlind (Action.read f) :=
  fun _ => .read fun e _ hahead => by rw [hahead, h]

theorem readDisk (f : Disk → Except Error α) : IsBlind (Engine.readDisk f) :=
  read fun _ _ => rfl

theorem look (f : Disk → α) : IsBlind (Engine.look f) :=
  read fun _ _ => rfl

theorem onDisk (step : Action Disk α) : IsBlind (Engine.onDisk step) := by
  rintro older first _ rfl
  exact ⟨rfl, rfl⟩

theorem modify {f : Engine → Engine}
    (h : ∀ e older, f { e with latestJobs := e.latestJobs ++ older }
      = { f e with latestJobs := (f e).latestJobs ++ older }) : IsBlind (Action.modify f) :=
  fun older => .modify fun e _ hahead => by rw [hahead]; exact h e older

theorem bind {step : Action Engine α} {next : α → Action Engine β} (h : IsBlind step)
    (hnext : ∀ a, IsBlind (next a)) : IsBlind (step >>= next) :=
  fun older => .bind (h older) fun a => hnext a older

theorem map {step : Action Engine α} (f : α → β) (h : IsBlind step) : IsBlind (f <$> step) :=
  fun older => .map f (h older)

/-- What comes behind a look at the whole engine may use all but the queue. -/
theorem get {next : Engine → Action Engine α}
    (h : ∀ e jobs, next { e with latestJobs := jobs } = next e)
    (hnext : ∀ e, IsBlind (next e)) : IsBlind (Action.get >>= next) :=
  fun older => .get (fun e _ hahead => by rw [hahead, h]) fun e => hnext e older

theorem ite {p : Prop} [Decidable p] {yes no : Action Engine α} (hyes : IsBlind yes)
    (hno : IsBlind no) : IsBlind (if p then yes else no) :=
  fun older => .ite (hyes older) (hno older)

theorem forM {list : List α} {step : α → Action Engine Unit} (h : ∀ a ∈ list, IsBlind (step a)) :
    IsBlind (list.forM step) :=
  fun older => .forM fun a ha => h a ha older

theorem mapM {list : List α} {step : α → Action Engine β} (h : ∀ a, IsBlind (step a)) :
    IsBlind (list.mapM step) :=
  fun older => .mapM fun a => h a older

theorem attempt {step : Action Engine α} (h : IsBlind step) : IsBlind (Action.attempt step) :=
  fun older => .attempt (h older)

theorem tryCatch {step : Action Engine α} {handle : Error → Action Engine α} (h : IsBlind step)
    (hhandle : ∀ failure, IsBlind (handle failure)) :
    IsBlind (tryCatch step handle : Action Engine α) :=
  fun older => .tryCatch (h older) fun failure => hhandle failure older

/-! ### Schemas and checks -/

theorem remember (database table : String) (schema : TableSchema) :
    IsBlind (remember database table schema) :=
  modify fun _ _ => rfl

theorem schema (database table : String) : IsBlind (schema database table) := by
  refine get (fun _ _ => rfl) fun e => ?_
  cases e.schemas.get? (database, table) with
  | some schema => exact pure schema
  | none => exact bind (readDisk _) fun _ => bind (remember _ _ _) fun _ => pure _

theorem storedValues (database table column : String) :
    IsBlind (storedValues database table column) :=
  bind (schema database table) fun _ => bind (ofExcept _) fun _ => bind (readDisk _) fun _ => pure _

theorem storedCheck (database : String) (check : StoredCheck) :
    IsBlind (check.run (Engine.storedValues database)) :=
  bind (storedValues database _ _) fun _ => ofResult _

theorem checkRow (schema : TableSchema) (database row : String) :
    IsBlind (schema.checkRow (Engine.storedValues database) row) :=
  bind (ofResult _) fun _ => forM fun check _ => storedCheck database check

theorem checkAssignment (schema : TableSchema) (database table : String)
    (assigned : String × String) : IsBlind (checkAssignment schema database table assigned) := by
  refine bind (ofExcept _) fun position => ?_
  dsimp only
  cases schema.columns[position]? with
  | none => exact throw _
  | some column =>
    refine bind (ofExcept _) fun _ => ?_
    cases column.referenceCheck? assigned.2 with
    | none => exact pure _
    | some check => exact bind (storedCheck database check) fun _ => pure _

theorem writableSchema (who : Identity) (database table : String) :
    IsBlind (writableSchema who database table) :=
  bind (schema database table) fun _ => bind (ofExcept _) fun _ => pure _

/-! ### Jobs that come up -/

theorem dispatch (job : Job) {step : Action Engine Unit} (h : IsBlind step) :
    IsBlind (dispatch job step) :=
  get (fun _ _ => rfl) fun _ => ite (modify fun _ _ => rfl) h.attempt

theorem patchTable (database : String) (schema : TableSchema) (removed added : List String) :
    IsBlind (Job.patchTable database schema removed added) :=
  bind (forM fun _ _ => onDisk _) fun _ => forM fun _ _ => onDisk _

theorem patchEntry (entry : Log.Entry) : IsBlind (Job.patchEntry entry) := by
  have hadd : IsBlind (do
      let schema ← Engine.schema entry.database entry.table
      Engine.onDisk (Index.addRow entry.database entry.table schema.fieldNames entry.row)) :=
    bind (schema _ _) fun _ => onDisk _
  have hrest : IsBlind (if entry.operation != .delete then do
      let schema ← Engine.schema entry.database entry.table
      Engine.onDisk (Index.addRow entry.database entry.table schema.fieldNames entry.row)
      else Pure.pure ()) := ite hadd (pure ())
  unfold Job.patchEntry
  exact ite (bind (onDisk _) fun _ => hrest) hrest

theorem patchIndexes (database : String) (schema : TableSchema) (removed added : List String) :
    IsBlind (patchIndexes database schema removed added) :=
  dispatch _ (patchTable _ _ _ _)

theorem patchCommitted (entries : List Log.Entry) : IsBlind (patchCommitted entries) :=
  ite (pure ()) (dispatch _ (forM fun entry _ => patchEntry entry))

/-! ### Transactions -/

theorem isBuffering (who : Identity) : IsBlind (isBuffering who) :=
  read fun _ _ => rfl

theorem transactionOf (user : String) : IsBlind (transactionOf user) :=
  read fun _ _ => rfl

theorem endTransaction (user : String) : IsBlind (endTransaction user) :=
  modify fun _ _ => rfl

theorem begin (user : String) : IsBlind (begin user) :=
  get (fun _ _ => rfl) fun _ => ite (throw _) (bind (modify fun _ _ => rfl) fun _ => pure _)

theorem buffer (user : String) (operation : Operation) (database table rowId row : String)
    (before : Option String) : IsBlind (buffer user operation database table rowId row before) :=
  bind (transactionOf user) fun _ => bind (read fun _ _ => rfl) fun _ => modify fun _ _ => rfl

theorem logChanges (changes : List Log.Entry) : IsBlind (logChanges changes) :=
  get (fun _ _ => rfl) fun _ => bind (onDisk _) fun _ => bind (modify fun _ _ => rfl) fun _ => pure _

theorem applyChanges (id : String) (entries : List Log.Entry) :
    IsBlind (applyChanges id entries) := by
  rintro older first _ rfl
  unfold Engine.applyChanges
  dsimp only
  rcases Log.Entry.performAll entries first.disk with ⟨⟨done, failure⟩, disk⟩
  cases failure <;> exact ⟨rfl, rfl⟩

theorem commit (user : String) : IsBlind (commit user) :=
  bind (transactionOf user) fun _ => ite (bind (endTransaction user) fun _ => pure _)
    (bind (logChanges _) fun _ => bind (endTransaction user) fun _ =>
      bind (applyChanges _ _) fun _ => pure _)

theorem executeCommit (who : Identity) : IsBlind (executeCommit who) := by
  refine tryCatch (bind (commit who.user) fun _ => bind (patchCommitted _) fun _ => pure _)
    fun failure => ?_
  cases failure with
  | partlyApplied id cause applied => exact bind (patchCommitted _) fun _ => throw _
  | _ => exact bind (pure _) fun _ => throw _

theorem rollback (user : String) : IsBlind (rollback user) :=
  bind (transactionOf user) fun _ => bind (endTransaction user) fun _ => pure _

/-! ### Changes of rows -/

theorem insert (who : Identity) (database table row : String) :
    IsBlind (insert who database table row) :=
  bind (writableSchema _ _ _) fun _ => bind (checkRow _ _ _) fun _ =>
    bind (isBuffering who) fun _ => ite (bind (buffer _ _ _ _ _ _ _) fun _ => pure _)
      (bind (onDisk _) fun _ => bind (patchIndexes _ _ _ _) fun _ => pure _)

theorem update (who : Identity) (database table : String) (assigned : Keyed String String)
    (conditions : List Condition) : IsBlind (update who database table assigned conditions) :=
  bind (writableSchema _ _ _) fun _ => bind (mapM fun _ => checkAssignment _ _ _ _) fun _ =>
    bind (isBuffering who) fun _ => ite
      (bind (readDisk _) fun _ => bind (ofExcept _) fun (_, _) =>
        bind (forM fun _ _ => buffer _ _ _ _ _ _ _) fun _ => pure _)
      (bind (onDisk _) fun _ => ite (bind (patchIndexes _ _ _ _) fun _ => pure _) (pure _))

theorem delete (who : Identity) (database table : String) (conditions : List Condition) :
    IsBlind (delete who database table conditions) :=
  bind (writableSchema _ _ _) fun _ => bind (isBuffering who) fun _ => ite
    (bind (readDisk _) fun _ => bind (forM fun _ _ => buffer _ _ _ _ _ _ _) fun _ => pure _)
    (bind (onDisk _) fun _ => ite (bind (patchIndexes _ _ _ _) fun _ => pure _) (pure _))

/-! ### Definitions -/

theorem createSchema (database table : String) (columns : List Column) (permissions : Permissions) :
    IsBlind (createSchema database table columns permissions) :=
  bind (ofExcept _) fun _ => bind (ofExcept _) fun _ => bind (readDisk _) fun _ =>
    bind (look _) fun _ => ite (throw _) (bind (onDisk _) fun _ => bind (onDisk _) fun _ =>
      bind (remember _ _ _) fun _ => pure _)

theorem createTable (database table definition : String) :
    IsBlind (createTable database table definition) :=
  bind (look _) fun _ => ite (throw _) (bind (ofExcept _) fun _ =>
    bind (createSchema _ _ _ _) fun _ => bind (onDisk _) fun _ => pure _)

theorem createIndex (kind : IndexKind) (database table column : String) :
    IsBlind (createIndex kind database table column) :=
  bind (schema _ _) fun _ => bind (ofExcept _) fun _ => bind (onDisk _) fun _ => pure _

theorem createView (database name query : String) : IsBlind (createView database name query) :=
  bind (look _) fun _ => ite (throw _) (bind (onDisk _) fun _ => pure _)

theorem createTrigger (database : String) (definition : TriggerDefinition) :
    IsBlind (createTrigger database definition) :=
  bind (schema _ _) fun _ => bind (read fun _ _ => rfl) fun _ => bind (onDisk _) fun _ => pure _

theorem become (role : NodeRole) : IsBlind (become role) := by
  refine bind (modify fun _ _ => rfl) fun _ => ?_
  cases role with
  | master => exact pure _
  | replica host => exact pure _

/-! ### Queries -/

section Executing

variable {executing : Executing} (hexecuting : ∀ who command, IsBlind (executing who command))

theorem tableSource (who : Identity) (database name : String) (condition : Option Condition) :
    IsBlind (tableSource who database name condition) :=
  bind (schema _ _) fun _ => bind (ofExcept _) fun _ => bind (readDisk _) fun _ =>
    bind (look _) fun _ => pure _

include hexecuting

theorem viewSource (who : Identity) (database name : String) :
    IsBlind (viewSource executing who database name) := by
  refine bind (ofExcept _) fun _ => bind (readDisk _) fun text => bind (ofExcept _) fun command => ?_
  cases command with
  | select query => exact bind (hexecuting who _) fun _ => pure _
  | _ => exact throw _

theorem source (who : Identity) (database name : String) (condition : Option Condition) :
    IsBlind (source executing who database name condition) :=
  bind (look _) fun _ => ite (tableSource _ _ _ _)
    (bind (look _) fun _ => ite (viewSource hexecuting _ _ _) (throw _))

theorem joinSources (who : Identity) (database : String) (relation : Relation) (joins : List Join) :
    IsBlind (joinSources executing who database relation joins) := by
  induction joins generalizing relation with
  | nil => exact pure relation
  | cons join rest ih =>
    exact bind (source hexecuting _ _ _ _) fun _ => bind (ofExcept _) fun joined => ih joined

theorem select (who : Identity) (database : String) (query : Query) :
    IsBlind (select executing who database query) :=
  bind (source hexecuting _ _ _ _) fun _ => bind (joinSources hexecuting _ _ _ _) fun _ => ofExcept _

end Executing

theorem search (who : Identity) (database table column word : String) :
    IsBlind (search who database table column word) :=
  bind (schema _ _) fun _ => bind (ofExcept _) fun _ => bind (ofExcept _) fun _ =>
    bind (readDisk _) fun _ => bind (readDisk _) fun _ => pure _

/-! ### Commands and jobs -/

section Executing

variable {executing : Executing} (hexecuting : ∀ who command, IsBlind (executing who command))

include hexecuting

theorem effectIn (who : Identity) (database : String) (command : Command) :
    IsBlind (effectIn executing who database command) := by
  cases command with
  | insert table row => exact insert who database table row
  | update table assigned conditions => exact update who database table assigned conditions
  | delete table conditions => exact delete who database table conditions
  | createTable table definition => exact map _ (createTable database table definition)
  | select query => exact map _ (select hexecuting who database query)
  | transaction control =>
    cases control with
    | begin => exact map _ (bind (begin _) fun _ => pure _)
    | commit => exact map _ (executeCommit who)
    | rollback => exact map _ (bind (rollback _) fun (_, _) => pure _)
  | createIndex kind table column => exact map _ (createIndex kind database table column)
  | createView name query => exact map _ (createView database name query)
  | createTrigger definition => exact map _ (createTrigger database definition)
  | search table column word => exact map _ (search who database table column word)
  | showDatabases => exact map _ (bind (look _) fun _ => pure _)
  | become role => exact map _ (become role)

theorem effect (who : Identity) (command : Command) : IsBlind (effect executing who command) := by
  have hin : IsBlind (do
      let database ← Action.ofExcept who.requireDatabase
      Engine.effectIn executing who database command) :=
    bind (ofExcept _) fun database => effectIn hexecuting who database command
  refine bind (read fun _ _ => rfl) fun _ => ?_
  cases command with
  | showDatabases => exact map _ (bind (look _) fun _ => pure _)
  | become role => exact map _ (become role)
  | _ => exact hin

theorem fireTriggers (budget : Nat) (who : Identity) (firing : Firing) :
    IsBlind (fireTriggers executing budget who firing) := by
  refine get (fun _ _ => rfl) fun e => forM fun job hjob => dispatch job ?_
  obtain ⟨action, rfl⟩ := Trace.isTrigger_of_mem_triggerJobs hjob
  exact bind (ofExcept _) fun command => bind (hexecuting who command) fun _ => pure _

theorem perform (budget : Nat) (who : Identity) (command : Command) :
    IsBlind (perform executing budget who command) := by
  refine bind (effect hexecuting who command) fun effect => bind ?_ fun _ => pure _
  cases effect.firing with
  | none => exact pure _
  | some firing => exact fireTriggers hexecuting budget who firing

end Executing

theorem executeWithin (budget : Nat) (who : Identity) (command : Command) :
    IsBlind (executeWithin budget who command) := by
  induction budget generalizing who command with
  | zero => exact read fun _ _ => rfl
  | succ budget ih => exact perform ih budget who command

theorem job (job : Job) : IsBlind (job.run Engine.executeWithin) := by
  cases job with
  | patchRows database schema removed added => exact patchTable database schema removed added
  | patchEntries entries => exact forM fun entry _ => patchEntry entry
  | runTrigger who action budget =>
    exact bind (ofExcept _) fun command => bind (executeWithin budget who command) fun _ => pure _

/-- Jobs that have waited longer wait on behind a step, and change nothing else of it. -/
theorem after {step : Action Engine α} (h : IsBlind step) (e : Engine) (older : List Job) :
    (step { e with latestJobs := e.latestJobs ++ older }).2
      = { (step e).2 with latestJobs := (step e).2.latestJobs ++ older } :=
  (h older e _ rfl).2

end IsBlind

/-! ### What comes up while a job runs -/

/-- Some jobs came up, with less nesting left than a bound. -/
def Adds (bound : Nat) (e e' : Engine) : Prop :=
  ∃ added, e'.latestJobs = added ++ e.latestJobs ∧ ∀ job ∈ added, job.budget < bound

instance (bound : Nat) : IsPreorder Engine (Adds bound) where
  refl e := ⟨[], rfl, by simp⟩
  trans _ _ _ := by
    rintro ⟨added, hadded, hbound⟩ ⟨more, hmore, hbound'⟩
    refine ⟨more ++ added, by rw [hmore, hadded, List.append_assoc], fun job hjob => ?_⟩
    exact (List.mem_append.1 hjob).elim (hbound' job) (hbound job)

theorem Adds.mono {bound bound' : Nat} {e e' : Engine} (h : Adds bound e e')
    (hle : bound ≤ bound') : Adds bound' e e' := by
  obtain ⟨added, hadded, hbound⟩ := h
  exact ⟨added, hadded, fun job hjob => Nat.lt_of_lt_of_le (hbound job hjob) hle⟩

theorem Maintains.adds {e e' : Engine} (h : Maintains e e') (bound : Nat) : Adds bound e e' :=
  ⟨[], h.latestJobs, by simp⟩

section Adding

variable {bound : Nat}

theorem adds_dispatch {job : Job} {step : Action Engine Unit} (hjob : job.budget < bound)
    (hstep : Action.Within (Adds bound) step) : Action.Within (Adds bound) (dispatch job step) := by
  refine .bind .get fun e => .ite (fun _ => ?_) fun _ => hstep.attempt
  exact fun e => ⟨[job], rfl, by simpa using hjob⟩

theorem adds_upkeep (upkeep : Upkeep) (hbound : 0 < bound) :
    Action.Within (Adds bound) upkeep.step := by
  cases upkeep with
  | none => exact .pure ()
  | rows database schema removed added =>
    exact adds_dispatch hbound fun e => (maintains_patchTable _ _ _ _ e).adds bound
  | applied entries =>
    refine .ite (fun _ => .pure ()) fun _ => adds_dispatch hbound ?_
    exact .forM fun entry _ e => (maintains_patchEntry entry e).adds bound

theorem adds_executeWithin (budget : Nat) (who : Identity) (command : Command) :
    Action.Within (Adds budget) (executeWithin budget who command) := by
  induction budget generalizing who command with
  | zero => exact .read _
  | succ budget ih =>
    have heffect : Action.Within (Adds (budget + 1))
        (effect (executeWithin budget) who command) := by
      intro e
      obtain ⟨e₁, upkeep, hown, hafter⟩ := effect_cases (observes_executeWithin budget) who command e
      rw [hafter]
      obtain ⟨added, hadded, hbound⟩ := adds_upkeep upkeep (Nat.succ_pos budget) e₁
      exact ⟨added, by rw [hadded, hown.frame.2], hbound⟩
    refine .bind heffect fun effect => .bind ?_ fun _ => .pure _
    cases effect.firing with
    | none => exact .pure ()
    | some firing =>
      refine .bind .get fun e => .forM fun job hjob => ?_
      obtain ⟨action, rfl⟩ := Trace.isTrigger_of_mem_triggerJobs hjob
      refine adds_dispatch (Nat.lt_succ_self budget) (.bind (.ofExcept _) fun command => ?_)
      exact .bind ((ih who command).mono fun _ _ h => h.mono (Nat.le_succ budget)) fun _ => .pure ()

/-- A job lets no job wait that has as much nesting left as itself. -/
theorem adds_job (job : Job) : Action.Within (Adds job.budget) (job.run executeWithin) := by
  cases job with
  | patchRows database schema removed added =>
    exact fun e => (maintains_patchTable _ _ _ _ e).adds _
  | patchEntries entries => exact .forM fun entry _ e => (maintains_patchEntry entry e).adds _
  | runTrigger who action budget =>
    exact .bind (.ofExcept _) fun command => .bind (adds_executeWithin budget who command) fun _ =>
      .pure ()

end Adding

/-! ### One job after the other -/

/-- Runs the job that has waited longest. -/
def runOldest (e : Engine) : Engine :=
  match e.jobs with
  | [] => e
  | job :: rest => (job.run executeWithin { e with latestJobs := rest.reverse }).2

theorem runOldest_of_jobs {e : Engine} {job : Job} {rest : List Job} (h : e.jobs = job :: rest) :
    e.runOldest = (job.run executeWithin { e with latestJobs := rest.reverse }).2 := by
  rw [runOldest, h]

/-- Jobs in a row run the same while others come up that have to wait. -/
theorem forM_jobs_eq_iterate (jobs : List Job) (e : Engine) :
    (jobs.forM fun job => Action.attempt (job.run executeWithin)) e
      = (.ok (), runOldest^[jobs.length] { e with latestJobs := e.latestJobs ++ jobs.reverse }) := by
  induction jobs generalizing e with
  | nil =>
    rw [List.reverse_nil, List.append_nil]
    rfl
  | cons job rest ih =>
    have hjobs : jobs { e with latestJobs := e.latestJobs ++ (job :: rest).reverse }
        = job :: (rest ++ e.latestJobs.reverse) := by
      simp [jobs]
    have holdest : runOldest { e with latestJobs := e.latestJobs ++ (job :: rest).reverse }
        = { (job.run executeWithin e).2 with
            latestJobs := (job.run executeWithin e).2.latestJobs ++ rest.reverse } := by
      rw [runOldest_of_jobs hjobs, ← (IsBlind.job job).after e rest.reverse]
      simp
    have hfirst : Action.attempt (job.run executeWithin) e
        = (.ok (), (job.run executeWithin e).2) := rfl
    rw [List.forM_eq_forM, List.forM_cons, Action.bind_of_ok hfirst, ← List.forM_eq_forM, ih,
      List.length_cons, Function.iterate_succ_apply, holdest]

/-- A generation is run by running as many jobs as wait. -/
theorem runGeneration_eq_iterate (e : Engine) :
    runGeneration e = (.ok (), runOldest^[e.jobs.length] e) := by
  have hrun : runGeneration e = (e.jobs.forM fun job => Action.attempt (job.run executeWithin))
      { e with latestJobs := [] } := rfl
  rw [hrun, forM_jobs_eq_iterate]
  simp [jobs]

/-- What waits behind a generation has less nesting left than the generation. -/
theorem budget_lt_of_runGeneration {e : Engine} {bound : Nat}
    (hjobs : ∀ job ∈ e.latestJobs, job.budget < bound + 1) :
    ∀ job ∈ (runGeneration e).2.latestJobs, job.budget < bound := by
  have hgeneration : Action.Within (Adds bound)
      (e.jobs.forM fun job => Action.attempt (job.run executeWithin)) :=
    .forM fun job hjob => ((adds_job job).mono fun _ _ h =>
      h.mono (Nat.le_of_lt_succ (hjobs job (List.mem_reverse.1 hjob)))).attempt
  obtain ⟨added, hadded, hbound⟩ := hgeneration { e with latestJobs := [] }
  have hafter : (runGeneration e).2.latestJobs = added := hadded.trans (List.append_nil added)
  rw [hafter]
  exact hbound

theorem runGenerations_eq_iterate (count : Nat) (e : Engine) :
    ∃ turns, (runGenerations count e).2 = runOldest^[turns] e ∧
      ((∀ job ∈ e.latestJobs, job.budget < count) → (runGenerations count e).2.jobs = []) := by
  induction count generalizing e with
  | zero =>
    refine ⟨0, rfl, fun hjobs => ?_⟩
    have hnone : e.latestJobs = [] :=
      List.eq_nil_iff_forall_not_mem.2 fun job hjob => Nat.not_lt_zero _ (hjobs job hjob)
    change e.latestJobs.reverse = []
    rw [hnone, List.reverse_nil]
  | succ count ih =>
    rw [runGenerations, Action.get_bind]
    by_cases hempty : e.latestJobs.isEmpty = true
    · rw [if_pos hempty]
      refine ⟨0, rfl, fun _ => ?_⟩
      rw [Action.pure_apply, jobs, List.isEmpty_iff.1 hempty, List.reverse_nil]
    · obtain ⟨turns, hturns, hdrains⟩ := ih (runOldest^[e.jobs.length] e)
      have hgeneration := runGeneration_eq_iterate e
      rw [if_neg hempty, Action.bind_of_ok hgeneration]
      refine ⟨turns + e.jobs.length, by rw [hturns, Function.iterate_add_apply], fun hjobs =>
        hdrains ?_⟩
      have hless := budget_lt_of_runGeneration hjobs
      rw [hgeneration] at hless
      exact hless

theorem budget_lt_generations (e : Engine) : ∀ job ∈ e.latestJobs, job.budget < e.generations := by
  intro job hjob
  have hbudget : job.budget + 1 ∈ e.latestJobs.map fun job => job.budget + 1 :=
    List.mem_map_of_mem hjob
  unfold generations
  rw [List.foldl_eq_foldr]
  exact List.le_max_of_le hbudget (Nat.le_refl _)

/-- Settling runs one job after the other until none waits. -/
theorem settle_eq_iterate (e : Engine) :
    ∃ turns, (settle e).2 = runOldest^[turns] e ∧ (settle e).2.jobs = [] := by
  obtain ⟨turns, hturns, hdrains⟩ := runGenerations_eq_iterate e.generations e
  exact ⟨turns, hturns, hdrains e.budget_lt_generations⟩

/-! ### Depth -/

/-- Executes a command at a depth of nesting, where the statement of a session has depth zero. What is
deeper than the limit is refused; what a command holds is executed one deeper than itself. -/
def executeAt (limit depth : Nat) : Executing := fun who command =>
  if limit < depth then
    Action.read fun engine => .error (.nestingTooDeep engine.settings.nestingLimit)
  else perform (executeAt limit (depth + 1)) (limit - depth) who command
termination_by limit + 1 - depth

/-- The budget of an execution is what its depth leaves of the limit. -/
theorem executeWithin_eq_executeAt {limit budget : Nat} (h : budget ≤ limit + 1) :
    executeWithin budget = executeAt limit (limit + 1 - budget) := by
  induction budget with
  | zero =>
    funext who command
    rw [executeAt, if_pos (by omega)]
    rfl
  | succ budget ih =>
    funext who command
    have hdepth : limit + 1 - (budget + 1) + 1 = limit + 1 - budget := by omega
    have hleft : limit - (limit + 1 - (budget + 1)) = budget := by omega
    rw [executeAt, if_neg (by omega), hdepth, hleft, ← ih (by omega)]
    rfl

/-- No job that waits has more nesting left than the limit leaves behind a statement. -/
def IsWithinLimit (e : Engine) : Prop :=
  ∀ job ∈ e.jobs, job.budget ≤ e.settings.nestingLimit

theorem isWithinLimit_of_adds {e e' : Engine} {bound : Nat} (h : e.IsWithinLimit)
    (hadds : Adds bound e e') (hbound : bound ≤ e.settings.nestingLimit + 1)
    (hsettings : e'.settings = e.settings) : e'.IsWithinLimit := by
  obtain ⟨added, hadded, hless⟩ := hadds
  intro job hjob
  rw [jobs, List.mem_reverse, hadded, List.mem_append] at hjob
  rw [hsettings]
  rcases hjob with hnew | hold
  · exact Nat.le_of_lt_succ (Nat.lt_of_lt_of_le (hless job hnew) hbound)
  · exact h job (List.mem_reverse.2 hold)

theorem settings_job (job : Job) (e : Engine) :
    (job.run executeWithin e).2.settings = e.settings := by
  cases job with
  | patchRows database schema removed added => exact (maintains_patchTable _ _ _ _ e).settings
  | patchEntries entries =>
    have hpatched : Action.Within Maintains (entries.forM Job.patchEntry) :=
      .forM fun entry _ => maintains_patchEntry entry
    exact (hpatched e).settings
  | runTrigger who action budget =>
    rw [Job.run, Action.ofExcept_bind]
    cases hparse : Statement.parse action with
    | error failure => rfl
    | ok command =>
      dsimp only
      rw [bind_pure_snd]
      exact ((Trace.start : Trace e [] e).execute_command budget who command
        (Statement.isWellNamed_of_parse hparse)).settings_eq

theorem IsWithinLimit.runOldest {e : Engine} (h : e.IsWithinLimit) : e.runOldest.IsWithinLimit := by
  cases hjobs : e.jobs with
  | nil =>
    rw [Engine.runOldest, hjobs]
    exact h
  | cons job rest =>
    rw [IsWithinLimit, hjobs, List.forall_mem_cons] at h
    have hrest : IsWithinLimit { e with latestJobs := rest.reverse } := by
      intro other hother
      rw [jobs, List.reverse_reverse] at hother
      exact h.2 other hother
    rw [runOldest_of_jobs hjobs]
    exact isWithinLimit_of_adds hrest (adds_job job _) (Nat.le_succ_of_le h.1) (settings_job job _)

theorem IsWithinLimit.iterate {e : Engine} (h : e.IsWithinLimit) (turns : Nat) :
    (Engine.runOldest^[turns] e).IsWithinLimit := by
  induction turns with
  | zero => exact h
  | succ turns ih =>
    rw [Function.iterate_succ_apply']
    exact ih.runOldest

theorem settings_iterate (turns : Nat) (e : Engine) :
    (runOldest^[turns] e).settings = e.settings := by
  induction turns with
  | zero => rfl
  | succ turns ih =>
    rw [Function.iterate_succ_apply', runOldest]
    split
    · exact ih
    · exact (settings_job _ _).trans ih

theorem IsWithinLimit.after {e : Engine} (h : e.IsWithinLimit) (event : Event) :
    (event.after e).IsWithinLimit := by
  cases event with
  | statement session text =>
    rw [Event.after_statement]
    rcases run_cases session text e with ⟨failure, hrun⟩ | ⟨who, command, -, hparse, hrun⟩
    · rw [hrun]
      exact h
    · rw [hrun]
      exact isWithinLimit_of_adds h (adds_executeWithin _ who command e) (Nat.le_refl _)
        ((Trace.start : Trace e [] e).execute_command _ who command
          (Statement.isWellNamed_of_parse hparse)).settings_eq
  | settle =>
    obtain ⟨turns, -, hempty⟩ := settle_eq_iterate e
    change (settle e).2.IsWithinLimit
    rw [IsWithinLimit, hempty]
    simp
  | reopen =>
    cases hopened : e.reopen with
    | error failure =>
      rw [Event.after_reopen_of_error hopened]
      exact h
    | ok opened =>
      rw [Event.after_reopen hopened]
      obtain ⟨log, after, -, rfl⟩ := openOn_eq_ok hopened
      exact fun job hjob => absurd hjob (by simp [jobs])
  | createDatabase name => exact h
  | pass nanoseconds => exact h

end Engine

namespace Run

theorem isWithinLimit_last (run : Run) : run.last.IsWithinLimit := by
  have hevents (events : List Event) {e : Engine} (h : e.IsWithinLimit) :
      (afterEvents e events).IsWithinLimit := by
    induction events generalizing e with
    | nil => exact h
    | cons event rest ih => exact ih (h.after event)
  refine hevents run.events fun job hjob => ?_
  rw [Engine.jobs, run.latestJobs_first] at hjob
  exact absurd hjob (by simp)

/-- The queue always comes to an end. Whatever jobs wait in an engine that a run comes to, as long as
each has only what the limit leaves of nesting, as all that ever wait there do: running one job after
the other, always the one that has waited longest, leaves none after finitely many turns, and settling
comes to the same. The statement of a trigger is executed at the depth that its budget leaves of the
limit, one deeper than the statement that the trigger was due on at least; everything deeper than the
limit is refused, and if the statement of the trigger is, only its job is gone. -/
theorem settle_drains (run : Run) :
    run.last.IsWithinLimit ∧
      ∀ jobs : List Job, (∀ job ∈ jobs, job.budget ≤ run.settings.nestingLimit) →
        let start := { run.last with latestJobs := jobs.reverse }
        (∃ turns, (Engine.runOldest^[turns] start).jobs = [] ∧
          (Engine.settle start).2 = Engine.runOldest^[turns] start) ∧
        ∀ turn who action budget rest,
          (Engine.runOldest^[turn] start).jobs = .runTrigger who action budget :: rest →
            let depth := run.settings.nestingLimit + 1 - budget
            0 < depth ∧
              Engine.executeWithin budget = Engine.executeAt run.settings.nestingLimit depth ∧
              (run.settings.nestingLimit < depth → Engine.runOldest^[turn + 1] start
                = { Engine.runOldest^[turn] start with latestJobs := rest.reverse }) := by
  refine ⟨run.isWithinLimit_last, fun jobs hjobs => ?_⟩
  dsimp only
  have hstart : Engine.IsWithinLimit { run.last with latestJobs := jobs.reverse } := by
    intro job hjob
    rw [Engine.jobs, List.reverse_reverse] at hjob
    exact Nat.le_trans (hjobs job hjob) (Nat.le_of_eq (congrArg _ run.settings_last.symm))
  refine ⟨?_, fun turn who action budget rest hturn => ?_⟩
  · obtain ⟨turns, hturns, hempty⟩ := Engine.settle_eq_iterate
      { run.last with latestJobs := jobs.reverse }
    exact ⟨turns, hturns ▸ hempty, hturns⟩
  · have hbudget : budget ≤ run.settings.nestingLimit := by
      have hle := hstart.iterate turn (.runTrigger who action budget) (by rw [hturn]; simp)
      rwa [Engine.settings_iterate, run.settings_last] at hle
    refine ⟨by omega, Engine.executeWithin_eq_executeAt (Nat.le_succ_of_le hbudget), fun hdeep => ?_⟩
    obtain rfl : budget = 0 := by omega
    rw [Function.iterate_succ_apply', Engine.runOldest_of_jobs hturn, Job.run, Action.ofExcept_bind]
    cases Statement.parse action <;> rfl

/-- A run of some events where maintenance waits. -/
def inBackground (events : List Event) : Run where
  settings := { Settings.standard with background := true }
  clock := 0
  first := { (standard []).first with settings := { Settings.standard with background := true } }
  opened := by decide +kernel
  events

/-- A trigger that makes another one on the same table. -/
def breedingTrigger : Run :=
  inBackground (.createDatabase "kantor" ::
    ["CREATE TABLE t id:INT", "CREATE TRIGGER a WHEN INSERT ON t DO CREATE TRIGGER b WHEN INSERT ON t DO INSERT t 2",
      "INSERT t 1", "INSERT t 1"].map (.statement (some ⟨"asep", .supermaung, some "kantor"⟩)))

theorem breedingTrigger_drains :
    breedingTrigger.last.jobs.length = 4 ∧ ∃ turns,
      (Engine.runOldest^[turns] breedingTrigger.last).jobs = [] ∧
        (Engine.settle breedingTrigger.last).2 = Engine.runOldest^[turns] breedingTrigger.last := by
  have hjobs : breedingTrigger.last.jobs.length = 4 ∧ ∀ job ∈ breedingTrigger.last.jobs,
      job.budget ≤ breedingTrigger.settings.nestingLimit := by decide +kernel
  refine ⟨hjobs.1, ?_⟩
  have hlast : { breedingTrigger.last with latestJobs := breedingTrigger.last.jobs.reverse }
      = breedingTrigger.last := by simp [Engine.jobs]
  have hdrains := (breedingTrigger.settle_drains.2 breedingTrigger.last.jobs hjobs.2).1
  rwa [hlast] at hdrains

end Run

end FlatFileDb
