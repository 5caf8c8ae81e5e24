import FlatFileDb.Proofs.Queue
import FlatFileDb.Proofs.Reopening

/-!
# Triggers and transactions that begin later

Where maintenance waits, the triggers on a change run some time after it, and whether their statements
are executed at once or put off is decided when they run. As long as nobody begins a transaction while
a trigger of theirs waits that changes rows, none of these triggers runs in a transaction, and what a
transaction holds are the changes that statements of its user have put off since it began. A
transaction that begins earlier takes in what the trigger does, and drops it with a rollback.
-/

namespace FlatFileDb

/-- Whether a job is to run a trigger that inserts, updates or deletes rows for a user. -/
def Job.changesFor (user : String) : Job → Bool
  | runTrigger who action _ =>
    who.user == user && ((Statement.parse action).toOption.bind Command.changedTable?).isSome
  | _ => false

/-- What may happen next where maintenance waits: something from outside, or the job that has waited
longest runs. -/
inductive Turn where
  | event (happened : Event)
  | job
  deriving DecidableEq, Repr

namespace Turn

/-- The engine after a turn. -/
def after (engine : Engine) : Turn → Engine
  | event happened => happened.after engine
  | job => engine.runOldest

/-- What happens from outside. -/
def event? : Turn → Option Event
  | event happened => some happened
  | job => none

/-- The user whose statement a turn is. -/
def user? (turn : Turn) : Option String :=
  turn.event?.bind Event.user?

end Turn

namespace Run

/-- The engine after some turns. -/
def afterTurns (engine : Engine) (turns : List Turn) : Engine :=
  turns.foldl Turn.after engine

theorem afterTurns_append (e : Engine) (turns more : List Turn) :
    afterTurns e (turns ++ more) = afterTurns (afterTurns e turns) more :=
  List.foldl_append

/-- The same happens from outside as in the run, and jobs run anywhere in between. -/
def Interleaves (run : Run) (turns : List Turn) : Prop :=
  turns.filterMap Turn.event? = run.events.filter (· != .settle)

/-- Settling is one placement of the jobs. -/
theorem exists_interleaves (run : Run) :
    ∃ turns, run.Interleaves turns ∧ afterTurns run.first turns = run.last := by
  have hevents (events : List Event) (e : Engine) : ∃ turns : List Turn,
      turns.filterMap Turn.event? = events.filter (· != .settle) ∧
        afterTurns e turns = afterEvents e events := by
    induction events generalizing e with
    | nil => exact ⟨[], rfl, rfl⟩
    | cons event rest ih =>
      obtain ⟨turns, hturns, hlast⟩ := ih (event.after e)
      by_cases hsettle : event = .settle
      · subst hsettle
        obtain ⟨count, hcount, -⟩ := Engine.settle_eq_iterate e
        have hjobs (count : Nat) (e : Engine) :
            afterTurns e (List.replicate count .job) = Engine.runOldest^[count] e := by
          induction count generalizing e with
          | zero => rfl
          | succ count ih => exact ih e.runOldest
        refine ⟨List.replicate count .job ++ turns, ?_, ?_⟩
        · rw [List.filterMap_append, hturns, List.filterMap_replicate_of_none rfl]
          rfl
        · rw [afterTurns_append, hjobs, ← hcount]
          exact hlast
      · refine ⟨.event event :: turns, ?_, hlast⟩
        have houtside : Turn.event? (.event event) = some event := rfl
        rw [List.filterMap_cons_some houtside, hturns, List.filter_cons_of_pos (by simpa using hsettle)]
  exact hevents run.events run.first

theorem Interleaves.ne_settle {run : Run} {turns : List Turn} (h : run.Interleaves turns)
    {event : Event} (hmem : .event event ∈ turns) : event ≠ .settle := by
  have hfound : event ∈ turns.filterMap Turn.event? := List.mem_filterMap.2 ⟨_, hmem, rfl⟩
  rw [h] at hfound
  simpa using (List.mem_filter.1 hfound).2

end Run

namespace Engine

variable {who : Identity} {command : Command} {e e' : Engine} {user : String}

/-! ### What waits after a command -/

theorem dispatch_background (hbackground : e.settings.background = true) (job : Job)
    (step : Action Engine Unit) :
    dispatch job step e = (.ok (), { e with latestJobs := job :: e.latestJobs }) := by
  rw [dispatch, Action.get_bind, if_pos hbackground]
  rfl

/-- For the indexes no more than a job of their own waits. -/
theorem upkeep_background (hbackground : e.settings.background = true) (upkeep : Upkeep) :
    ∃ jobs, (upkeep.step e).2 = { e with latestJobs := jobs ++ e.latestJobs } ∧
      ∀ job ∈ jobs, ∀ user, job.changesFor user = false := by
  cases upkeep with
  | none => exact ⟨[], rfl, by simp⟩
  | rows database schema removed added =>
    exact ⟨[_], congrArg Prod.snd (dispatch_background hbackground _ _),
      by simp [Job.changesFor]⟩
  | applied entries =>
    rw [Upkeep.step, patchCommitted]
    split
    · exact ⟨[], rfl, by simp⟩
    · exact ⟨[_], congrArg Prod.snd (dispatch_background hbackground _ _),
        by simp [Job.changesFor]⟩

/-- Triggers are due on changes of rows that were made at once, and on nothing else. -/
theorem of_firing {executing : Executing} {done : Effect}
    (h : (effect executing who command e).1 = .ok done) (hfiring : done.firing ≠ none) :
    e.inTransaction who.user = false ∧ command.changedTable?.isSome = true := by
  constructor
  · cases hactive : e.inTransaction who.user with
    | false => rfl
    | true => exact absurd (unfired_effect command e hactive done h) hfiring
  · have houtcome (step : Action Engine Outcome)
        (hstep : ((Effect.ofOutcome <$> step) e).1 = .ok done) : done.firing = none := by
      rw [Action.map_apply] at hstep
      cases hresult : (step e).1 with
      | error failure =>
        rw [hresult] at hstep
        exact absurd hstep (by simp [Except.map])
      | ok outcome =>
        rw [hresult] at hstep
        exact congrArg Effect.firing (Except.ok.inj hstep).symm
    unfold effect at h
    rw [Action.read_bind] at h
    cases hallowed : authorize who command e.role with
    | error failure =>
      rw [hallowed] at h
      exact absurd h (by simp)
    | ok _ =>
    rw [hallowed] at h
    cases command with
    | insert | update | delete => rfl
    | showDatabases | become => exact absurd (houtcome _ h) hfiring
    | _ =>
      dsimp only at h
      rw [Action.ofExcept_bind] at h
      cases hdatabase : who.requireDatabase with
      | error failure =>
        rw [hdatabase] at h
        exact absurd h (by simp)
      | ok database =>
        rw [hdatabase] at h
        first
        | exact absurd (houtcome _ h) hfiring
        | (rename_i control
           cases control <;> exact absurd (houtcome _ h) hfiring)

/-- A command does its own and lets jobs wait. Among them are triggers that change rows only if it
changed rows at once, and then for the same user. -/
theorem executeWithin_background (hbackground : e.settings.background = true) (budget : Nat)
    (who : Identity) (command : Command) :
    ∃ e₁ upkeep jobs, Own who command e e₁ upkeep ∧
      (executeWithin budget who command e).2 = { e₁ with latestJobs := jobs ++ e.latestJobs } ∧
      ∀ job ∈ jobs, ∀ user, job.changesFor user = true →
        who.user = user ∧ e.inTransaction user = false ∧ command.changedTable?.isSome = true := by
  cases budget with
  | zero => exact ⟨e, .none, [], .quiet (refl e), rfl, by simp⟩
  | succ budget =>
    obtain ⟨e₁, upkeep, hown, hafter⟩ :=
      effect_cases (observes_executeWithin budget) who command e
    obtain ⟨hsettings, hlatest⟩ := hown.frame
    have hbackground₁ : e₁.settings.background = true := by rw [hsettings, hbackground]
    obtain ⟨patches, hpatches, hnone⟩ := upkeep_background hbackground₁ upkeep
    rw [hpatches, hlatest] at hafter
    have hfew : ∀ job ∈ patches, ∀ user, job.changesFor user = true →
        who.user = user ∧ e.inTransaction user = false ∧ command.changedTable?.isSome = true :=
      fun job hjob user hchanges => absurd (hchanges.symm.trans (hnone job hjob user)) (by simp)
    rw [executeWithin, perform]
    rcases heffect : effect (executeWithin budget) who command e with ⟨failure | done, after⟩
    · rw [heffect] at hafter
      rw [Action.bind_of_error heffect]
      exact ⟨e₁, upkeep, patches, hown, hafter, hfew⟩
    rw [heffect] at hafter
    rw [Action.bind_of_ok heffect]
    have hdone : (effect (executeWithin budget) who command e).1 = .ok done := by rw [heffect]
    obtain ⟨outcome, firing⟩ := done
    cases firing with
    | none => exact ⟨e₁, upkeep, patches, hown, hafter, hfew⟩
    | some firing =>
      obtain ⟨hfree, hchanged⟩ := of_firing hdone (by simp)
      dsimp only at hafter ⊢
      subst hafter
      rw [bind_pure_snd]
      let fired := triggerJobs e₁.disk budget who firing
      refine ⟨e₁, upkeep, fired.reverse ++ patches, hown, ?_, fun job hjob user hchanges => ?_⟩
      · rw [List.append_assoc]
        exact Trace.forM_dispatch (fun job => job.run fun _ => executeWithin budget) fired _
          hbackground₁
      · rw [List.mem_append, List.mem_reverse] at hjob
        rcases hjob with hjob | hjob
        · obtain ⟨action, rfl⟩ := Trace.isTrigger_of_mem_triggerJobs hjob
          rw [Job.changesFor, Bool.and_eq_true, beq_iff_eq] at hchanges
          obtain ⟨rfl, -⟩ := hchanges
          exact ⟨rfl, hfree, hchanged⟩
        · exact hfew job hjob user hchanges

/-! ### Transactions along the turns -/

/-- A change that is made at once leaves all transactions alone. -/
theorem Own.transactions_eq {upkeep : Upkeep} (h : Own who command e e' upkeep)
    (hchanged : command.changedTable?.isSome = true) (hfree : e.inTransaction who.user = false) :
    e'.transactions = e.transactions := by
  have hnone {transaction : Transaction} (hactive : e.transactions.get? who.user = some transaction) :
      e'.transactions = e.transactions :=
    absurd ((inTransaction_of_get? hactive).symm.trans hfree) (by simp)
  cases h with
  | quiet hquiet | insert _ hquiet | update _ hquiet | delete _ hquiet => exact hquiet.transactions
  | insertLater _ _ hactive | updateLater _ _ hactive | deleteLater _ _ hactive =>
    exact hnone hactive
  | _ => exact absurd hchanged (by simp [Command.changedTable?])

/-- A transaction of a user has just begun, or goes on from the one in an engine; more waits in it than
before only if that is `allowed`. -/
def GoesOn (e : Engine) (user : String) (allowed : Prop) (transaction : Transaction) : Prop :=
  (e.transactions.get? user = none ∧ transaction.latest = []) ∨
    ∃ before added, e.transactions.get? user = some before ∧
      transaction.latest = added ++ before.latest ∧ (added ≠ [] → allowed)

theorem GoesOn.of_get? {transaction : Transaction} (h : e.transactions.get? user = some transaction)
    (allowed : Prop) : GoesOn e user allowed transaction :=
  .inr ⟨transaction, [], h, rfl, by simp⟩

theorem GoesOn.mono {allowed allowed' : Prop} {transaction : Transaction}
    (h : GoesOn e user allowed transaction) (hle : allowed → allowed') :
    GoesOn e user allowed' transaction := by
  rcases h with hbegun | ⟨before, added, hbefore, hlatest, hadded⟩
  · exact .inl hbegun
  · exact .inr ⟨before, added, hbefore, hlatest, fun hmore => hle (hadded hmore)⟩

/-- A command puts changes of rows off, and only for its own user. -/
theorem Own.goesOn {upkeep : Upkeep} (h : Own who command e e' upkeep) {transaction : Transaction}
    (hafter : e'.transactions.get? user = some transaction) :
    GoesOn e user (who.user = user ∧ command.changedTable?.isSome = true) transaction := by
  have herased (hafter : (e.transactions.erase who.user).get? user = some transaction) :
      e.transactions.get? user = some transaction := by
    rw [Keyed.get?_erase] at hafter
    split at hafter
    · exact absurd hafter (by simp)
    · exact hafter
  have hwaiting {e₁ : Engine} {active : Transaction} {entries : List Log.Entry} (hquiet : Quiet e e₁)
      (hactive : e.transactions.get? who.user = some active)
      (hchanged : command.changedTable?.isSome = true)
      (hmore : (e₁.waiting who.user active entries).transactions.get? user = some transaction) :
      GoesOn e user (who.user = user ∧ command.changedTable?.isSome = true) transaction := by
    rw [Engine.waiting, Keyed.get?_insert, hquiet.transactions] at hmore
    split at hmore
    · rename_i hsame
      obtain rfl := eq_of_beq hsame
      obtain rfl := Option.some.inj hmore
      exact .inr ⟨active, entries.reverse, hactive, rfl, fun _ => ⟨rfl, hchanged⟩⟩
    · exact .of_get? hmore _
  cases h with
  | quiet hquiet | insert _ hquiet | update _ hquiet | delete _ hquiet | createIndex _ hquiet
  | createTrigger _ _ hquiet =>
    exact .of_get? (hquiet.transactions ▸ hafter) _
  | become | createNothing | createTable | createView => exact .of_get? hafter _
  | rollback | commitNothing | commit => exact .of_get? (herased hafter) _
  | insertLater _ hquiet hactive | updateLater _ hquiet hactive | deleteLater _ hquiet hactive =>
    exact hwaiting hquiet hactive rfl hafter
  | begin id hfree =>
    rw [Keyed.get?_insert] at hafter
    split at hafter
    · rename_i hsame
      obtain rfl := eq_of_beq hsame
      refine .inl ⟨?_, by rw [← Option.some.inj hafter]⟩
      rwa [inTransaction, Keyed.contains, Option.isSome_eq_false_iff,
        Option.isNone_iff_eq_none] at hfree
    · exact .of_get? hafter _

/-- No trigger waits that changes rows for somebody in a transaction. -/
def Uncaptured (e : Engine) : Prop :=
  ∀ job ∈ e.latestJobs, ∀ user, job.changesFor user = true → e.inTransaction user = false

/-- What a turn comes to where maintenance waits: all transactions stay or all are gone, or one command
is executed, which somebody asked for or a trigger that waited. -/
inductive TurnsInto (turn : Turn) (e : Engine) : Engine → Prop where
  | idle {e' : Engine} (hjobs : ∀ job ∈ e'.latestJobs, job ∈ e.latestJobs)
    (htransactions : e'.transactions = e.transactions ∨ e'.transactions = .empty) :
    TurnsInto turn e e'
  | command {who : Identity} {command : Command} {e₁ : Engine} {upkeep : Upkeep}
    {waiting jobs : List Job} (hwaiting : ∀ job ∈ waiting, job ∈ e.latestJobs)
    (hown : Own who command { e with latestJobs := waiting } e₁ upkeep)
    (hjobs : ∀ job ∈ jobs, ∀ user, job.changesFor user = true → e.inTransaction user = false)
    (hasked : turn.user? = some who.user ∨
      ∃ job ∈ e.latestJobs, command.changedTable?.isSome = true → job.changesFor who.user = true) :
    TurnsInto turn e { e₁ with latestJobs := jobs ++ waiting }

theorem turnsInto_runOldest (hbackground : e.settings.background = true) :
    TurnsInto .job e e.runOldest := by
  cases hjobs : e.jobs with
  | nil =>
    rw [runOldest, hjobs]
    exact .idle (fun _ hjob => hjob) (.inl rfl)
  | cons job rest =>
    have hlatest : e.latestJobs = rest.reverse ++ [job] := by
      rw [← List.reverse_cons, ← hjobs, jobs, List.reverse_reverse]
    have hwaiting : ∀ other ∈ rest.reverse, other ∈ e.latestJobs := fun other hother => by
      rw [hlatest]
      exact List.mem_append_left _ hother
    have hmaintains (h : Maintains { e with latestJobs := rest.reverse } e.runOldest) :
        TurnsInto .job e e.runOldest :=
      .idle (by rw [h.latestJobs]; exact hwaiting) (.inl h.transactions)
    have hrun := runOldest_of_jobs hjobs
    cases job with
    | patchRows database schema removed added =>
      exact hmaintains (hrun ▸ maintains_patchTable _ _ _ _ _)
    | patchEntries entries =>
      have hpatched : Action.Within Maintains (entries.forM Job.patchEntry) :=
        .forM fun entry _ => maintains_patchEntry entry
      exact hmaintains (hrun ▸ hpatched _)
    | runTrigger who action budget =>
      rw [Job.run, Action.ofExcept_bind] at hrun
      cases hparse : Statement.parse action with
      | error failure =>
        rw [hparse] at hrun
        rw [hrun]
        exact .idle hwaiting (.inl rfl)
      | ok command =>
        rw [hparse] at hrun
        dsimp only at hrun
        rw [bind_pure_snd] at hrun
        obtain ⟨e₁, upkeep, jobs, hown, hafter, hfired⟩ := @executeWithin_background
          { e with latestJobs := rest.reverse } hbackground budget who command
        rw [hrun, hafter]
        refine .command hwaiting hown (fun job hjob user hchanges => (hfired job hjob user hchanges).2.1)
          (.inr ⟨.runTrigger who action budget, by rw [hlatest]; simp, fun hchanged => ?_⟩)
        rw [Job.changesFor, hparse, beq_self_eq_true, Bool.true_and]
        exact hchanged

theorem turnsInto_after {turn : Turn} (hbackground : e.settings.background = true)
    (hsettle : turn ≠ .event .settle) : TurnsInto turn e (turn.after e) := by
  cases turn with
  | job => exact turnsInto_runOldest hbackground
  | event event =>
    cases event with
    | settle => exact absurd rfl hsettle
    | createDatabase name => exact .idle (fun _ hjob => hjob) (.inl rfl)
    | pass nanoseconds => exact .idle (fun _ hjob => hjob) (.inl rfl)
    | reopen =>
      change TurnsInto (.event .reopen) e (Event.after e .reopen)
      cases hopened : e.reopen with
      | error failure =>
        rw [Event.after_reopen_of_error hopened]
        exact .idle (fun _ hjob => hjob) (.inl rfl)
      | ok opened =>
        rw [Event.after_reopen hopened]
        obtain ⟨log, after, -, rfl⟩ := openOn_eq_ok hopened
        exact .idle (by simp) (.inr rfl)
    | statement session text =>
      change TurnsInto _ e (Engine.run session text e).2
      rcases run_cases session text e with ⟨failure, hrun⟩ | ⟨who, command, rfl, -, hrun⟩
      · rw [hrun]
        exact .idle (fun _ hjob => hjob) (.inl rfl)
      · obtain ⟨e₁, upkeep, jobs, hown, hafter, hfired⟩ :=
          executeWithin_background hbackground (e.settings.nestingLimit + 1) who command
        rw [hrun, hafter]
        exact .command (fun _ hjob => hjob) hown
          (fun job hjob user hchanges => (hfired job hjob user hchanges).2.1) (.inl rfl)

/-- Unless a transaction begins that would take in what waits, nothing comes to wait that a transaction
would take in. -/
theorem TurnsInto.uncaptured {turn : Turn} (h : TurnsInto turn e e') (huncaptured : e.Uncaptured)
    (hbegins : ∀ user, e.inTransaction user = false → e'.inTransaction user = true →
      ∀ job ∈ e'.latestJobs, job.changesFor user = false) : e'.Uncaptured := by
  intro job hjob user hchanges
  by_contra hactive
  rw [Bool.not_eq_false] at hactive
  have hfree : e.inTransaction user = false := by
    cases h with
    | idle hjobs => exact huncaptured job (hjobs job hjob) user hchanges
    | command hwaiting hown hjobs =>
      rcases List.mem_append.1 hjob with hnew | hold
      · exact hjobs job hnew user hchanges
      · exact huncaptured job (hwaiting job hold) user hchanges
  exact absurd (hchanges.symm.trans (hbegins user hfree hactive job hjob)) (by simp)

/-- Where no transaction would take in what waits, more comes into a transaction only by a statement of
its user. -/
theorem TurnsInto.goesOn {turn : Turn} (h : TurnsInto turn e e') (huncaptured : e.Uncaptured)
    {transaction : Transaction} (hafter : e'.transactions.get? user = some transaction) :
    GoesOn e user (turn.user? = some user) transaction := by
  cases h with
  | idle hjobs htransactions =>
    rcases htransactions with hsame | hnone
    · exact .of_get? (hsame ▸ hafter) _
    · rw [hnone] at hafter
      exact absurd hafter (by simp)
  | @command who command e₁ upkeep waiting jobs hwaiting hown hjobs hasked =>
    have hgoes : GoesOn e user (who.user = user ∧ command.changedTable?.isSome = true) transaction :=
      hown.goesOn hafter
    rcases hgoes with hbegun | ⟨before, added, hbefore, hlatest, hadded⟩
    · exact .inl hbegun
    · refine .inr ⟨before, added, hbefore, hlatest, fun hmore => ?_⟩
      obtain ⟨rfl, hchanged⟩ := hadded hmore
      rcases hasked with hasked | ⟨job, hjob, hchanges⟩
      · exact hasked
      · have hfree := huncaptured job hjob who.user (hchanges hchanged)
        exact absurd ((inTransaction_of_get? hbefore).symm.trans hfree) (by simp)

/-- A trigger that changes rows for somebody outside of any transaction leaves all transactions as they
are, and makes of the files and the queue what it makes of them where there are none. -/
theorem runOldest_directly (hbackground : e.settings.background = true) (hopen : e.IsOpen)
    (hfiled : e.disk.IsFiled) {action : String} {budget : Nat} {rest : List Job}
    (hjobs : e.jobs = .runTrigger who action budget :: rest)
    (hparse : Statement.parse action = .ok command) (hchanged : command.changedTable?.isSome = true)
    (hfree : e.inTransaction who.user = false) :
    let direct := { e with transactions := .empty }
    e.runOldest.transactions = e.transactions ∧ e.runOldest.disk = direct.runOldest.disk ∧
      e.runOldest.jobs = direct.runOldest.jobs := by
  intro direct
  have hrun (e : Engine) : ((Job.runTrigger who action budget).run executeWithin e).2
      = (executeWithin budget who command e).2 := by
    rw [Job.run, Action.ofExcept_bind, hparse]
    dsimp only
    rw [bind_pure_snd]
  have hjobs' : direct.jobs = .runTrigger who action budget :: rest := hjobs
  rw [runOldest_of_jobs hjobs, runOldest_of_jobs hjobs', hrun, hrun]
  let trying := { e with latestJobs := rest.reverse }
  obtain ⟨e₁, upkeep, jobs, hown, hafter, -⟩ :=
    @executeWithin_background trying hbackground budget who command
  -- Whoever else is in a transaction is not seen.
  have hself : Twins (fun user => user ≠ who.user) trying trying := .of_self hfiled hopen.path
  have htwins : Twins (fun user => user ≠ who.user) trying { trying with transactions := .empty } := by
    refine hself.withTransactions fun user huser => ?_
    obtain rfl := Decidable.not_not.1 huser
    rw [inTransaction, Keyed.contains, Option.isSome_eq_false_iff, Option.isNone_iff_eq_none] at hfree
    exact hfree.symm
  have hparallel : Parallel (fun user => user ≠ who.user) (executeWithin budget who command) :=
    parallel_executeWithin (fun hno => hno rfl) budget command (Statement.isWellNamed_of_parse hparse)
  obtain ⟨-, hsame⟩ := hparallel.stable _ _ htwins
  exact ⟨by rw [hafter]; exact hown.transactions_eq hchanged hfree, hsame.view.disk.symm,
    congrArg List.reverse hsame.latestJobs.symm⟩

/-- Turns are a trace as well. -/
theorem Trace.run_turns {first : Engine} {executions : List Execution} (turns : List Turn)
    (h : Trace first executions e) (hbackground : first.settings.background = true) :
    ∃ executions, Trace first executions (Run.afterTurns e turns) := by
  induction turns generalizing executions e with
  | nil => exact ⟨_, h⟩
  | cons turn rest ih =>
    cases turn with
    | event happened =>
      exact ih (h.run_event happened fun hinline => absurd (hinline.symm.trans hbackground) (by simp))
    | job =>
      change ∃ executions, Trace first executions (Run.afterTurns e.runOldest rest)
      cases hjobs : e.jobs with
      | nil =>
        rw [runOldest, hjobs]
        exact ih h
      | cons job others =>
        rw [runOldest_of_jobs hjobs]
        have hnow : e.settings.background = true := h.settings_eq ▸ hbackground
        exact ih (run_job (fun budget who command _ _ hnamed h => h.execute_command budget who command
          hnamed) job (h.queue hnow others.reverse) (.inl hnow))

end Engine

namespace Run

/-- Whether nobody begins a transaction while a trigger of theirs waits that changes rows. -/
def beginsUncaptured : List Turn → Engine → Bool
  | [], _ => true
  | turn :: rest, engine =>
    let next := turn.after engine
    (next.transactions.keys.all fun user =>
        engine.inTransaction user || next.jobs.all fun job => !job.changesFor user)
      && beginsUncaptured rest next

theorem beginsUncaptured_append (turns more : List Turn) (e : Engine) :
    beginsUncaptured (turns ++ more) e
      = (beginsUncaptured turns e && beginsUncaptured more (afterTurns e turns)) := by
  induction turns generalizing e with
  | nil => rfl
  | cons turn rest ih =>
    rw [List.cons_append, beginsUncaptured, ih, ← Bool.and_assoc]
    rfl

theorem changesFor_of_beginsUncaptured {turn : Turn} {e : Engine}
    (h : beginsUncaptured [turn] e = true) {user : String} (hfree : e.inTransaction user = false)
    (hactive : (turn.after e).inTransaction user = true) :
    ∀ job ∈ (turn.after e).latestJobs, job.changesFor user = false := by
  obtain ⟨transaction, htransaction⟩ := Option.isSome_iff_exists.1 hactive
  rw [beginsUncaptured, beginsUncaptured, Bool.and_true, List.all_eq_true] at h
  have hjobs := h user (Keyed.mem_keys_of_get? htransaction)
  rw [hfree, Bool.false_or, List.all_eq_true] at hjobs
  intro job hjob
  simpa using hjobs job (List.mem_reverse.2 hjob)

/-- What waits in the transaction of a user, the latest first. -/
def waitingFor (user : String) (engine : Engine) : List Log.Entry :=
  ((engine.transactions.get? user).map Transaction.latest).getD []

/-- What the statements of a user have put off in some turns, the latest first. The other turns, those
of the queue among them, do not count. -/
def putOff (user : String) : List Turn → Engine → List Log.Entry
  | [], _ => []
  | turn :: rest, engine =>
    putOff user rest (turn.after engine) ++
      if turn.user? = some user then
        (waitingFor user (turn.after engine)).take
          ((waitingFor user (turn.after engine)).length - (waitingFor user engine).length)
      else []

theorem putOff_append (user : String) (turns more : List Turn) (e : Engine) :
    putOff user (turns ++ more) e = putOff user more (afterTurns e turns) ++ putOff user turns e := by
  induction turns generalizing e with
  | nil => exact (List.append_nil _).symm
  | cons turn rest ih =>
    rw [List.cons_append, putOff, ih, List.append_assoc]
    rfl

/-- One of the turns began the transaction of a user with nothing in it, it has been going on ever
since, and what waits in it is what the statements of the user have put off since then. -/
def HoldsOwn (first : Engine) (turns : List Turn) (user : String) (transaction : Transaction) : Prop :=
  ∃ earlier opening during, turns = earlier ++ opening :: during ∧
    let before := afterTurns first earlier
    let opened := opening.after before
    before.inTransaction user = false ∧ waitingFor user opened = [] ∧
      (∀ front back, during = front ++ back → (afterTurns opened front).inTransaction user = true) ∧
        transaction.latest = putOff user during opened

/-- A transaction that begins in a turn holds nothing yet. -/
theorem holdsOwn_of_begun {first : Engine} {turns : List Turn} {turn : Turn} {user : String}
    {transaction : Transaction} (hbefore : (afterTurns first turns).transactions.get? user = none)
    (hafter : (turn.after (afterTurns first turns)).transactions.get? user = some transaction)
    (hlatest : transaction.latest = []) : HoldsOwn first (turns ++ [turn]) user transaction := by
  refine ⟨turns, turn, [], rfl, ?_, ?_, fun front back hnone => ?_, hlatest⟩
  · rw [Engine.inTransaction, Keyed.contains, hbefore]
    rfl
  · rw [waitingFor, hafter]
    exact hlatest
  · obtain ⟨rfl, -⟩ := List.append_eq_nil_iff.1 hnone.symm
    exact Engine.inTransaction_of_get? hafter

/-- A transaction that goes on still holds what statements of its user have put off, if nothing else
comes into it. -/
theorem HoldsOwn.goesOn {first : Engine} {turns : List Turn} {turn : Turn} {user : String}
    {before transaction : Transaction} {added : List Log.Entry}
    (h : HoldsOwn first turns user before)
    (hbefore : (afterTurns first turns).transactions.get? user = some before)
    (hafter : (turn.after (afterTurns first turns)).transactions.get? user = some transaction)
    (hlatest : transaction.latest = added ++ before.latest)
    (hadded : added ≠ [] → turn.user? = some user) : HoldsOwn first (turns ++ [turn]) user transaction := by
  obtain ⟨earlier, opening, during, rfl, hfree, hnothing, hactive, hown⟩ := h
  have hthere : afterTurns (opening.after (afterTurns first earlier)) during
      = afterTurns first (earlier ++ opening :: during) :=
    (afterTurns_append first earlier (opening :: during)).symm
  refine ⟨earlier, opening, during ++ [turn], by simp, hfree, hnothing, fun front back hsplit => ?_, ?_⟩
  · rcases List.append_eq_append_iff.1 hsplit with ⟨more, rfl, hmore⟩ | ⟨more, rfl, -⟩
    · rcases List.singleton_eq_append_iff.1 hmore with ⟨rfl, -⟩ | ⟨rfl, -⟩
      · rw [List.append_nil]
        exact hactive during [] (List.append_nil _).symm
      · rw [afterTurns_append, hthere]
        exact Engine.inTransaction_of_get? hafter
    · exact hactive front more rfl
  · have hnow : waitingFor user (turn.after (afterTurns first (earlier ++ opening :: during)))
        = added ++ before.latest := by
      rw [waitingFor, hafter]
      exact hlatest
    have hthen : waitingFor user (afterTurns first (earlier ++ opening :: during)) = before.latest := by
      rw [waitingFor, hbefore]
      rfl
    rw [hlatest, hown, putOff_append, hthere]
    refine congrArg (· ++ _) ?_
    change added = [] ++ if turn.user? = some user then _ else _
    rw [hnow, hthen, List.nil_append, List.length_append, Nat.add_sub_cancel, List.take_left']
    · split
      · rfl
      · rename_i hother
        exact Decidable.not_not.1 fun hmore => hother (hadded hmore)
    · rfl

/-- As long as nobody begins a transaction that would take in what waits, no transaction would, and
every transaction holds what its own user has put off. -/
theorem uncaptured_afterTurns {first : Engine} (hbackground : first.settings.background = true)
    (hjobs : first.latestJobs = []) (hfree : first.transactions = .empty) {turns : List Turn}
    (hsettle : ∀ turn ∈ turns, turn ≠ .event .settle) (hbegins : beginsUncaptured turns first = true) :
    (afterTurns first turns).Uncaptured ∧ ∀ user transaction,
      (afterTurns first turns).transactions.get? user = some transaction →
        HoldsOwn first turns user transaction := by
  induction turns using List.reverseRecOn with
  | nil =>
    refine ⟨fun job hjob => ?_, fun user transaction hactive => ?_⟩
    · rw [afterTurns, List.foldl_nil, hjobs] at hjob
      exact absurd hjob (by simp)
    · rw [afterTurns, List.foldl_nil, hfree] at hactive
      exact absurd hactive (by simp)
  | append_singleton turns turn ih =>
    rw [beginsUncaptured_append, Bool.and_eq_true] at hbegins
    obtain ⟨huncaptured, hholds⟩ :=
      ih (fun other hother => hsettle other (by simp [hother])) hbegins.1
    obtain ⟨executions, htrace⟩ := (Engine.Trace.start : Engine.Trace first [] first).run_turns turns hbackground
    have hinto := Engine.turnsInto_after (htrace.settings_eq.symm ▸ hbackground)
      (hsettle turn (by simp))
    have hlast : afterTurns first (turns ++ [turn]) = turn.after (afterTurns first turns) := by
      rw [afterTurns_append]
      rfl
    rw [hlast]
    refine ⟨hinto.uncaptured huncaptured fun user => changesFor_of_beginsUncaptured hbegins.2,
      fun user transaction hactive => ?_⟩
    rcases hinto.goesOn huncaptured hactive with ⟨hnone, hnothing⟩ | ⟨before, added, hbefore, hlatest, hadded⟩
    · exact holdsOwn_of_begun hnone hactive hnothing
    · exact (hholds user before hbefore).goesOn hbefore hactive hlatest hadded

/-- Triggers are not captured by transactions that begin later, as long as nobody begins one while a
trigger of theirs waits that changes rows. Where maintenance waits, whatever happens in a run and
wherever the jobs are placed in it: a trigger that inserts, updates or deletes rows finds its user
outside of any transaction when it runs, leaves all transactions as they are, and makes of the files and
the queue what it makes of them where there are no transactions. And a rollback drops what statements
of its user have put off since the transaction began, and nothing else. -/
theorem triggers_uncaptured (run : Run) (hbackground : run.settings.background = true)
    {turns : List Turn} (hturns : run.Interleaves turns) (hbegins : beginsUncaptured turns run.first = true) :
    (∀ earlier later who action budget rest command, turns = earlier ++ .job :: later →
        let before := afterTurns run.first earlier
        let direct := { before with transactions := .empty }
        before.jobs = .runTrigger who action budget :: rest →
          Statement.parse action = .ok command → command.changedTable?.isSome = true →
            before.inTransaction who.user = false ∧
              before.runOldest.transactions = before.transactions ∧
                before.runOldest.disk = direct.runOldest.disk ∧
                  before.runOldest.jobs = direct.runOldest.jobs) ∧
      let last := afterTurns run.first turns
      ∀ who text transaction, last.transactions.get? who.user = some transaction →
        Statement.parse text = .ok (.transaction .rollback) →
          (Engine.run (some who) text last).1.isOk = true →
            HoldsOwn run.first turns who.user transaction ∧
              Engine.run (some who) text last = (.ok (Engine.rolledBack transaction),
                { last with transactions := last.transactions.erase who.user }) := by
  have hfirst : run.first.settings.background = true := run.settings_first ▸ hbackground
  have hfree : run.first.transactions = .empty := run.transactions_first
  have hsettle : ∀ turn ∈ turns, turn ≠ .event .settle := fun turn hmem hsettle =>
    hturns.ne_settle (hsettle ▸ hmem) rfl
  constructor
  · intro earlier later who action budget rest command hsplit before direct hjobs hparse hchanged
    subst hsplit
    rw [beginsUncaptured_append, Bool.and_eq_true] at hbegins
    have huncaptured : before.Uncaptured := (uncaptured_afterTurns hfirst run.latestJobs_first hfree
      (fun turn hmem => hsettle turn (List.mem_append_left _ hmem)) hbegins.1).1
    have hout : before.inTransaction who.user = false := by
      refine huncaptured (.runTrigger who action budget)
        (List.mem_reverse.1 (by rw [← Engine.jobs, hjobs]; simp)) who.user ?_
      rw [Job.changesFor, hparse, beq_self_eq_true, Bool.true_and]
      exact hchanged
    obtain ⟨executions, htrace⟩ := (Engine.Trace.start : Engine.Trace run.first [] run.first).run_turns earlier hfirst
    have hopen := Engine.isOpen_openOn run.opened
    exact ⟨hout, Engine.runOldest_directly (htrace.settings_eq.symm ▸ hfirst) (htrace.isOpen hopen)
      (htrace.remembers run.isSound_first hopen run.remembers_first).filed hjobs hparse hchanged hout⟩
  · intro last who text transaction hactive hparse hok
    exact ⟨(uncaptured_afterTurns hfirst run.latestJobs_first hfree hsettle hbegins).2 _ _ hactive,
      Engine.run_rollback hactive hparse hok⟩

/-- A trigger that copies into another table, and a settling before its user begins a transaction. -/
def settledFirst : Run :=
  inBackground [.createDatabase "kantor", byAuthor "CREATE TABLE t id:INT",
    byAuthor "CREATE TABLE u id:INT", byAuthor "CREATE TRIGGER x WHEN INSERT ON t DO INSERT u 1",
    byAuthor "INSERT t 1", byReader "BEGIN", .settle, byAuthor "BEGIN", byAuthor "INSERT t 2"]

/-- What happens before the trigger runs, and what happens behind it. -/
def triggerTurns : List Turn × List Turn :=
  ((settledFirst.events.take 6).map .event ++ [.job],
    [.job, .event (byAuthor "BEGIN"), .event (byAuthor "INSERT t 2")])

theorem triggers_uncaptured_settledFirst :
    let before := afterTurns settledFirst.first triggerTurns.1
    let last := afterTurns settledFirst.first (triggerTurns.1 ++ .job :: triggerTurns.2)
    before.jobs = [.runTrigger author "INSERT u 1" 16] ∧ before.inTransaction "budi" = true ∧
      before.runOldest.transactions = before.transactions ∧
        before.runOldest.disk = { before with transactions := .empty }.runOldest.disk ∧
          last.pending "asep" = 1 ∧ ∃ transaction,
            HoldsOwn settledFirst.first (triggerTurns.1 ++ .job :: triggerTurns.2) author.user transaction ∧
              Engine.run (some author) "ROLLBACK" last = (.ok (Engine.rolledBack transaction),
                { last with transactions := last.transactions.erase author.user }) := by
  intro before last
  have hrun : beginsUncaptured (triggerTurns.1 ++ .job :: triggerTurns.2) settledFirst.first = true ∧
      (afterTurns settledFirst.first triggerTurns.1).jobs = [.runTrigger author "INSERT u 1" 16] ∧
      (afterTurns settledFirst.first triggerTurns.1).inTransaction "budi" = true ∧
      (afterTurns settledFirst.first (triggerTurns.1 ++ .job :: triggerTurns.2)).pending "asep" = 1 ∧
      (afterTurns settledFirst.first (triggerTurns.1 ++ .job :: triggerTurns.2)).inTransaction "asep"
        = true ∧
      (Engine.run (some author) "ROLLBACK"
        (afterTurns settledFirst.first (triggerTurns.1 ++ .job :: triggerTurns.2))).1.isOk = true := by
    decide +kernel
  have hparse : Statement.parse "INSERT u 1" = .ok (.insert "u" "1") ∧
      Statement.parse "ROLLBACK" = .ok (.transaction .rollback) := by decide +kernel
  have hturns : settledFirst.Interleaves (triggerTurns.1 ++ .job :: triggerTurns.2) := by
    unfold Interleaves
    decide +kernel
  obtain ⟨hbegins, hjobs, hother, hpending, hactive, hok⟩ := hrun
  have hsome (e : Engine) (h : e.inTransaction "asep" = true) :
      ∃ transaction, e.transactions.get? author.user = some transaction := Option.isSome_iff_exists.1 h
  obtain ⟨transaction, htransaction⟩ := hsome _ hactive
  obtain ⟨hdirect, hrollback⟩ := settledFirst.triggers_uncaptured rfl hturns hbegins
  obtain ⟨-, hsame, hdisk, -⟩ := hdirect triggerTurns.1 triggerTurns.2 author "INSERT u 1" 16 []
    (.insert "u" "1") rfl hjobs hparse.1 rfl
  refine ⟨hjobs, hother, ?_, ?_, hpending, transaction, ?_⟩
  · exact hsame
  · exact hdisk
  · exact hrollback author "ROLLBACK" transaction htransaction hparse.2 hok

end Run

end FlatFileDb
