import FlatFileDb.Engine.Settle
import FlatFileDb.Proofs.Maintain
import FlatFileDb.Proofs.Statement

/-!
# Runs

A run starts with an engine opened over an empty data directory and takes statements of any sessions,
one after the other; databases are made, the queue is settled, time passes, and the engine may be
opened anew in between. Every statement executes a command, and the triggers on what it changed
execute theirs: `Run.executions` lists all of them in order, each with the engine that it found.

What holds in every run is shown along `Trace`: one case for what a command does, with the patching
that is due after it, and one for each thing that may happen between two commands.
-/

namespace FlatFileDb

/-- A command that was executed, by whom, and the engine that it found. -/
structure Execution where
  who : Identity
  command : Command
  before : Engine
  deriving DecidableEq, Repr

/-- The executions that a job leads to; `inner` gives those of the statement of a trigger. -/
def Job.executions (inner : Nat → Identity → Command → Engine → List Execution) (engine : Engine) :
    Job → List Execution
  | runTrigger who action budget =>
    match Statement.parse action with
    | .ok command => inner budget who command engine
    | .error _ => []
  | _ => []

namespace Engine

/-- The executions that jobs lead to when they are run one after the other. -/
def jobExecutions (inner : Nat → Identity → Command → Engine → List Execution)
    (run : Job → Action Engine Unit) : List Job → Engine → List Execution
  | [], _ => []
  | job :: rest, engine =>
    job.executions inner engine ++ jobExecutions inner run rest (run job engine).2

/-- The executions that a command leads to: its own, then those of the triggers that run at once. -/
def executionsWithin : Nat → Identity → Command → Engine → List Execution
  | 0, _, _, _ => []
  | budget + 1, who, command, engine =>
    ⟨who, command, engine⟩ ::
      match effect (executeWithin budget) who command engine with
      | (.ok ⟨_, some firing⟩, after) =>
        if after.settings.background then []
        else
          jobExecutions (fun _ => executionsWithin budget)
            (fun job => dispatch job (job.run fun _ => executeWithin budget))
            (triggerJobs after.disk budget who firing) after
      | _ => []

/-- The executions of the statement of a session. -/
def statementExecutions (session : Session) (text : String) (engine : Engine) : List Execution :=
  match Statement.parse text, session.identity with
  | .ok command, .ok who =>
    executionsWithin (engine.settings.nestingLimit + 1) who command engine
  | _, _ => []

/-- The executions while generations of jobs are run. -/
def generationExecutions : Nat → Engine → List Execution
  | 0, _ => []
  | count + 1, engine =>
    if engine.latestJobs.isEmpty then []
    else
      jobExecutions executionsWithin (fun job => Action.attempt (job.run executeWithin)) engine.jobs
        { engine with latestJobs := [] }
      ++ generationExecutions count (runGeneration engine).2

/-- A statement of someone who is logged in runs what it is read as. -/
theorem run_of_parse {who : Identity} {command : Command} {text : String}
    (hparse : Statement.parse text = .ok command) (e : Engine) :
    run (some who) text e
      = perform (executeWithin e.settings.nestingLimit) e.settings.nestingLimit who command e := by
  unfold run
  rw [Action.ofExcept_bind, hparse]
  rfl

/-- A statement is refused before anything is done, or someone who is logged in runs what it is read
as. -/
theorem run_cases (session : Session) (text : String) (e : Engine) :
    (∃ failure, run session text e = (.error failure, e)) ∨
      ∃ who command, session = some who ∧ Statement.parse text = .ok command ∧
        run session text e = executeWithin (e.settings.nestingLimit + 1) who command e := by
  cases hparse : Statement.parse text with
  | error failure =>
    refine .inl ⟨failure, ?_⟩
    unfold run
    rw [Action.ofExcept_bind, hparse]
  | ok command =>
    cases session with
    | none =>
      refine .inl ⟨.notLoggedIn, ?_⟩
      unfold run
      rw [Action.ofExcept_bind, hparse]
      rfl
    | some who => exact .inr ⟨who, command, rfl, rfl, run_of_parse hparse e⟩

end Engine

/-- Something that happens in a run. -/
inductive Event where
  | statement (session : Session) (text : String)
  | createDatabase (name : String)
  | settle
  | reopen
  | pass (nanoseconds : Nat)
  deriving DecidableEq, Repr

namespace Event

/-- The engine after an event. One that cannot be opened anew goes on. -/
def after (engine : Engine) : Event → Engine
  | statement session text => (Engine.run session text engine).2
  | createDatabase name => (Engine.onDisk (Database.create name) engine).2
  | settle => (Engine.settle engine).2
  | reopen =>
    match engine.reopen with
    | .ok opened => opened
    | .error _ => engine
  | pass nanoseconds => { engine with clock := engine.clock + nanoseconds }

theorem after_statement (engine : Engine) (session : Session) (text : String) :
    after engine (statement session text) = (Engine.run session text engine).2 := rfl

theorem after_reopen {engine opened : Engine} (h : engine.reopen = .ok opened) :
    after engine reopen = opened := by
  delta after
  dsimp only
  rw [h]

theorem after_reopen_of_error {engine : Engine} {failure : Error}
    (h : engine.reopen = .error failure) : after engine reopen = engine := by
  delta after
  dsimp only
  rw [h]

/-- The executions during an event. -/
def executions (engine : Engine) : Event → List Execution
  | statement session text => engine.statementExecutions session text
  | settle => Engine.generationExecutions engine.generations engine
  | createDatabase _ | reopen | pass _ => []

end Event

/-- A run over a data directory that was empty. -/
structure Run where
  settings : Settings
  clock : Nat
  first : Engine
  opened : Engine.openOn settings clock .empty = .ok first
  events : List Event

namespace Run

/-- The engine after some events. -/
def afterEvents (engine : Engine) (events : List Event) : Engine :=
  events.foldl Event.after engine

/-- The executions during some events. -/
def executionsDuring : List Event → Engine → List Execution
  | [], _ => []
  | event :: rest, engine => event.executions engine ++ executionsDuring rest (event.after engine)

/-- The engine that a run comes to. -/
def last (run : Run) : Engine :=
  afterEvents run.first run.events

/-- All executions of a run, in order. -/
def executions (run : Run) : List Execution :=
  executionsDuring run.events run.first

/-- The run of some events where nothing is said about the settings. -/
def standard (events : List Event) : Run where
  settings := .standard
  clock := 0
  first :=
    { settings := .standard
      disk := Disk.empty.put ["wal.log"] (.file "")
      log := { path := ["wal.log"], next := 1 }
      schemas := .empty
      transactions := .empty
      role := .master
      latestJobs := []
      clock := 0 }
  opened := by decide +kernel
  events

/-- The run of the statements of one user in a new database. -/
def script (user database : String) (texts : List String) : Run :=
  standard (.createDatabase database ::
    texts.map (.statement (some ⟨user, .supermaung, some database⟩)))

end Run

namespace Engine

/-- From one engine to another through some executions. -/
inductive Trace (first : Engine) : List Execution → Engine → Prop where
  | start : Trace first [] first
  | command {executions : List Execution} {e e₁ : Engine} {who : Identity} {command : Command}
    {upkeep : Upkeep} (h : Trace first executions e) (hnamed : command.isWellNamed = true)
    (hown : Own who command e e₁ upkeep)
    (hafter : ∃ executing, (effect executing who command e).2 = (upkeep.step e₁).2) :
    Trace first (executions ++ [⟨who, command, e⟩]) (upkeep.step e₁).2
  | createDatabase {executions : List Execution} {e : Engine} (h : Trace first executions e)
    (name : String) : Trace first executions { e with disk := (Database.create name e.disk).2 }
  | reopen {executions : List Execution} {e opened : Engine} (h : Trace first executions e)
    (hopened : e.reopen = .ok opened) : Trace first executions opened
  | pass {executions : List Execution} {e : Engine} (h : Trace first executions e)
    (nanoseconds : Nat) : Trace first executions { e with clock := e.clock + nanoseconds }
  /-- Patching from the queue, a schema read while nothing was changed, and the like. -/
  | maintain {executions : List Execution} {e e' : Engine} (h : Trace first executions e)
    (hbackground : e.settings.background = true) (hmaintains : Maintains e e') :
    Trace first executions e'
  | queue {executions : List Execution} {e : Engine} (h : Trace first executions e)
    (hbackground : e.settings.background = true) (jobs : List Job) :
    Trace first executions { e with latestJobs := jobs }

/-! ### What every execution keeps -/

/-- What no command changes. -/
theorem Own.frame {who : Identity} {command : Command} {e e' : Engine} {upkeep : Upkeep}
    (h : Own who command e e' upkeep) :
    e'.settings = e.settings ∧ e'.latestJobs = e.latestJobs := by
  cases h with
  | quiet h => exact ⟨h.settings, h.latestJobs⟩
  | insert _ h | insertLater _ h | update _ h | updateLater _ h | delete _ h | deleteLater _ h
  | createIndex _ h | createTrigger _ _ h => exact ⟨h.settings, h.latestJobs⟩
  | _ => exact ⟨rfl, rfl⟩

theorem settings_of_upkeep (upkeep : Upkeep) (e : Engine) :
    (upkeep.step e).2.settings = e.settings := by
  rcases upkeep_cases upkeep e with h | ⟨-, jobs, h⟩
  · exact h.settings
  · rw [h]

theorem openOn_eq_ok {settings : Settings} {clock : Nat} {disk : Disk} {e : Engine}
    (h : openOn settings clock disk = .ok e) :
    ∃ log after, Log.openAt (Path.log settings) disk = (.ok log, after) ∧
      e = { settings, disk := after, log, clock, schemas := .empty, transactions := .empty,
            role := .master, latestJobs := [] } := by
  unfold openOn at h
  split at h
  · rename_i log after hlog
    exact ⟨log, after, hlog, (Except.ok.inj h).symm⟩
  · exact absurd h (by simp)

/-- Of the settings an engine is opened with, only where the log is decides what becomes of it. -/
theorem openOn_withSettings {settings settings' : Settings} {clock : Nat} {disk : Disk} {e : Engine}
    (hpath : Path.log settings' = Path.log settings) (h : openOn settings clock disk = .ok e) :
    openOn settings' clock disk = .ok { e with settings := settings' } := by
  obtain ⟨log, after, hlog, rfl⟩ := openOn_eq_ok h
  unfold openOn
  rw [hpath, hlog]

namespace Trace

variable {first e : Engine} {executions : List Execution}

theorem settings_eq (h : Trace first executions e) : e.settings = first.settings := by
  induction h with
  | start => rfl
  | command h hnamed hown hafter ih => rw [settings_of_upkeep, hown.frame.1, ih]
  | createDatabase h name ih => exact ih
  | reopen h hopened ih =>
    obtain ⟨log, after, -, rfl⟩ := openOn_eq_ok hopened
    exact ih
  | pass h nanoseconds ih => exact ih
  | maintain h hbackground hmaintains ih => rw [hmaintains.settings, ih]
  | queue h hbackground jobs ih => exact ih

/-- Without a queue nothing ever waits. -/
theorem latestJobs_eq_nil (h : Trace first executions e) (hinline : first.settings.background = false)
    (hfirst : first.latestJobs = []) : e.latestJobs = [] := by
  induction h with
  | start => exact hfirst
  | @command executions e e₁ who command upkeep h hnamed hown hafter ih =>
    rcases upkeep_cases upkeep e₁ with hmaintains | ⟨hbackground, -⟩
    · rw [hmaintains.latestJobs, hown.frame.2, ih]
    · rw [hown.frame.1, h.settings_eq, hinline] at hbackground
      exact absurd hbackground (by simp)
  | createDatabase h name ih => exact ih
  | reopen h hopened ih =>
    obtain ⟨log, after, -, rfl⟩ := openOn_eq_ok hopened
    rfl
  | pass h nanoseconds ih => exact ih
  | maintain h hbackground hmaintains ih => rw [hmaintains.latestJobs, ih]
  | queue h hbackground jobs ih =>
    rw [h.settings_eq, hinline] at hbackground
    exact absurd hbackground (by simp)

/-! ### Every run is a trace -/

theorem forM_ok {run : Job → Action Engine Unit} (hok : ∀ job e, (run job e).1 = .ok ())
    (jobs : List Job) (e : Engine) : (jobs.forM run e).1 = .ok () := by
  induction jobs generalizing e with
  | nil => rfl
  | cons job rest ih =>
    rw [List.forM_eq_forM, List.forM_cons, Action.bind_of_ok (Prod.ext (hok job e) rfl)]
    exact ih _

/-- Jobs run one after the other. -/
theorem forM_jobs {inner : Nat → Identity → Command → Engine → List Execution}
    {run : Job → Action Engine Unit} (hok : ∀ job e, (run job e).1 = .ok ()) {jobs : List Job}
    (hrun : ∀ job ∈ jobs, ∀ executions e, Trace first executions e →
      Trace first (executions ++ job.executions inner e) (run job e).2)
    (h : Trace first executions e) :
    Trace first (executions ++ jobExecutions inner run jobs e) (jobs.forM run e).2 := by
  induction jobs generalizing executions e with
  | nil =>
    rw [jobExecutions, List.append_nil]
    exact h
  | cons job rest ih =>
    rw [jobExecutions, ← List.append_assoc, List.forM_eq_forM, List.forM_cons,
      Action.bind_of_ok (Prod.ext (hok job e) rfl)]
    exact ih (fun other hother => hrun other (by simp [hother])) (hrun job (by simp) _ _ h)

/-- A job patches indexes, or executes the statement of a trigger if it can be read. -/
theorem run_job {inner : Nat → Identity → Command → Engine → List Execution}
    {executing : Nat → Executing}
    (hinner : ∀ budget who command executions e, command.isWellNamed = true →
      Trace first executions e → Trace first (executions ++ inner budget who command e)
        (executing budget who command e).2)
    (job : Job) (h : Trace first executions e)
    (hjob : e.settings.background = true ∨ ∃ who action budget, job = .runTrigger who action budget) :
    Trace first (executions ++ job.executions inner e) (job.run executing e).2 := by
  have hpatch {step : Action Engine Unit} (hbackground : e.settings.background = true)
      (hstep : Action.Within Maintains step) : Trace first (executions ++ []) (step e).2 := by
    rw [List.append_nil]
    exact .maintain h hbackground (hstep e)
  cases job with
  | patchRows database schema removed added =>
    rcases hjob with hbackground | ⟨_, _, _, hjob⟩
    · exact hpatch hbackground (maintains_patchTable _ _ _ _)
    · exact absurd hjob (by simp)
  | patchEntries entries =>
    rcases hjob with hbackground | ⟨_, _, _, hjob⟩
    · exact hpatch hbackground (.forM fun entry _ => maintains_patchEntry entry)
    · exact absurd hjob (by simp)
  | runTrigger who action budget =>
    rw [Job.run, Action.ofExcept_bind, Job.executions]
    cases hparse : Statement.parse action with
    | error failure =>
      rw [List.append_nil]
      exact h
    | ok command =>
      dsimp only
      rw [bind_pure_snd]
      exact hinner budget who command _ _ (Statement.isWellNamed_of_parse hparse) h

theorem isTrigger_of_mem_triggerJobs {disk : Disk} {budget : Nat} {who : Identity}
    {firing : Firing} {job : Job} (h : job ∈ triggerJobs disk budget who firing) :
    ∃ action, job = .runTrigger who action budget := by
  unfold triggerJobs at h
  split at h
  · exact absurd h (by simp)
  · obtain ⟨trigger, -, rfl⟩ := List.mem_map.1 h
    exact ⟨_, rfl⟩

theorem triggerJobs_of_forEvent {disk : Disk} {firing : Firing} {triggers : List Trigger}
    (h : Trigger.forEvent disk firing.database firing.table firing.event = .ok triggers)
    (budget : Nat) (who : Identity) : triggerJobs disk budget who firing
      = triggers.map fun trigger => .runTrigger who trigger.definition.action budget := by
  unfold triggerJobs
  rw [h]

/-- Jobs that have to wait only lengthen the queue. -/
theorem forM_dispatch (step : Job → Action Engine Unit) (jobs : List Job) (e : Engine)
    (hbackground : e.settings.background = true) :
    ((jobs.forM fun job => dispatch job (step job)) e).2
      = { e with latestJobs := jobs.reverse ++ e.latestJobs } := by
  induction jobs generalizing e with
  | nil => rfl
  | cons job rest ih =>
    have hdispatch : dispatch job (step job) e
        = (.ok (), { e with latestJobs := job :: e.latestJobs }) := by
      rw [dispatch, Action.get_bind, if_pos hbackground]
      rfl
    rw [List.forM_eq_forM, List.forM_cons]
    refine (congrArg Prod.snd (Action.bind_of_ok hdispatch)).trans ?_
    refine (ih { e with latestJobs := job :: e.latestJobs } hbackground).trans ?_
    simp

theorem dispatch_inline {job : Job} {step : Action Engine Unit}
    (hinline : e.settings.background = false) : (dispatch job step e).2 = (step e).2 := by
  rw [dispatch, Action.get_bind, if_neg (by simp [hinline])]
  rfl

theorem execute_command (budget : Nat) (who : Identity) (command : Command)
    (h : Trace first executions e) (hnamed : command.isWellNamed = true) :
    Trace first (executions ++ executionsWithin budget who command e)
      (executeWithin budget who command e).2 := by
  induction budget generalizing executions e who command with
  | zero =>
    rw [executionsWithin, List.append_nil]
    exact h
  | succ budget ih =>
    obtain ⟨e₁, upkeep, hown, hafter⟩ := effect_cases (observes_executeWithin budget) who command e
    have hcommand := h.command hnamed hown ⟨_, hafter⟩
    rw [← hafter] at hcommand
    rw [executeWithin, perform, executionsWithin, List.append_cons]
    cases heffect : effect (executeWithin budget) who command e with
    | mk result after =>
    rw [heffect] at hcommand
    cases result with
    | error failure =>
      rw [Action.bind_of_error heffect]
      change Trace first (_ ++ []) _
      rw [List.append_nil]
      exact hcommand
    | ok effect =>
    obtain ⟨outcome, firing⟩ := effect
    rw [Action.bind_of_ok heffect]
    cases firing with
    | none =>
      change Trace first (_ ++ []) _
      rw [List.append_nil]
      exact hcommand
    | some firing =>
      dsimp only
      rw [bind_pure_snd]
      change Trace first (executions ++ [⟨who, command, e⟩] ++
          (if after.settings.background then [] else jobExecutions _ _ _ after))
        (((triggerJobs after.disk budget who firing).forM fun job =>
          dispatch job (job.run fun _ => executeWithin budget)) after).2
      cases hbackground : after.settings.background with
      | true =>
        rw [if_pos rfl, List.append_nil, forM_dispatch _ _ _ hbackground]
        exact .queue hcommand hbackground _
      | false =>
        rw [if_neg (by simp)]
        refine forM_jobs (fun job e => by rw [dispatch_ok]) (fun job hjob executions e htrace => ?_)
          hcommand
        rw [dispatch_inline (by rw [htrace.settings_eq, ← hcommand.settings_eq, hbackground])]
        exact run_job (fun _ who command _ _ hnamed h => ih who command h hnamed) job htrace
          (.inr ⟨who, (isTrigger_of_mem_triggerJobs hjob).imp fun _ h => ⟨budget, h⟩⟩)

theorem run_statement (session : Session) (text : String) (h : Trace first executions e) :
    Trace first (executions ++ e.statementExecutions session text)
      (Engine.run session text e).2 := by
  unfold Engine.run statementExecutions
  rw [Action.ofExcept_bind]
  cases hparse : Statement.parse text with
  | error failure =>
    rw [List.append_nil]
    exact h
  | ok command =>
  dsimp only
  rw [execute, Action.ofExcept_bind]
  cases hidentity : session.identity with
  | error failure =>
    rw [List.append_nil]
    exact h
  | ok who => exact execute_command _ who command h (Statement.isWellNamed_of_parse hparse)

theorem run_generations (count : Nat) (h : Trace first executions e)
    (hbackground : first.settings.background = true) :
    Trace first (executions ++ generationExecutions count e) (runGenerations count e).2 := by
  induction count generalizing executions e with
  | zero =>
    rw [generationExecutions, List.append_nil]
    exact h
  | succ count ih =>
    rw [runGenerations, generationExecutions, Action.get_bind]
    by_cases hempty : e.latestJobs.isEmpty = true
    · rw [if_pos hempty, if_pos hempty, List.append_nil]
      exact h
    · rw [if_neg hempty, if_neg hempty, ← List.append_assoc]
      have hgeneration : Trace first (executions ++ jobExecutions executionsWithin
          (fun job => Action.attempt (job.run executeWithin)) e.jobs { e with latestJobs := [] })
          (runGeneration e).2 := by
        refine forM_jobs (fun _ _ => rfl) (fun job _ executions e htrace => ?_)
          (h.queue (h.settings_eq ▸ hbackground) [])
        exact run_job (fun budget who command _ _ hnamed h => h.execute_command budget who command hnamed)
          job htrace (.inl (htrace.settings_eq ▸ hbackground))
      have hok : (runGeneration e).1 = .ok () :=
        forM_ok (fun _ _ => rfl) e.jobs { e with latestJobs := [] }
      rw [Action.bind_of_ok (Prod.ext hok rfl)]
      exact ih hgeneration

theorem run_event (event : Event) (h : Trace first executions e)
    (hfirst : first.settings.background = false → first.latestJobs = []) :
    Trace first (executions ++ event.executions e) (event.after e) := by
  cases event with
  | statement session text => exact h.run_statement session text
  | createDatabase name =>
    change Trace first (executions ++ []) _
    rw [List.append_nil]
    exact h.createDatabase name
  | settle =>
    change Trace first (executions ++ generationExecutions e.generations e)
      (runGenerations e.generations e).2
    cases hbackground : first.settings.background with
    | true => exact h.run_generations _ hbackground
    | false =>
      have hempty := h.latestJobs_eq_nil hbackground (hfirst hbackground)
      have hnone : e.generations = 0 := by rw [generations, hempty]; rfl
      rw [hnone, generationExecutions, List.append_nil]
      exact h
  | reopen =>
    change Trace first (executions ++ []) _
    rw [List.append_nil]
    cases hopened : e.reopen with
    | error failure =>
      rw [Event.after_reopen_of_error hopened]
      exact h
    | ok opened =>
      rw [Event.after_reopen hopened]
      exact h.reopen hopened
  | pass nanoseconds =>
    change Trace first (executions ++ []) _
    rw [List.append_nil]
    exact h.pass nanoseconds

theorem run_events (events : List Event) (h : Trace first executions e)
    (hfirst : first.settings.background = false → first.latestJobs = []) :
    Trace first (executions ++ Run.executionsDuring events e) (Run.afterEvents e events) := by
  induction events generalizing executions e with
  | nil =>
    rw [Run.executionsDuring, List.append_nil]
    exact h
  | cons event rest ih =>
    rw [Run.executionsDuring, ← List.append_assoc]
    exact ih (h.run_event event hfirst)

end Trace

end Engine

theorem Run.latestJobs_first (run : Run) : run.first.latestJobs = [] := by
  obtain ⟨log, after, -, hfirst⟩ := Engine.openOn_eq_ok run.opened
  rw [hfirst]

/-- A run goes from its first engine to its last one through its executions. -/
theorem Run.trace (run : Run) : Engine.Trace run.first run.executions run.last :=
  Engine.Trace.run_events run.events .start fun _ => run.latestJobs_first

end FlatFileDb
