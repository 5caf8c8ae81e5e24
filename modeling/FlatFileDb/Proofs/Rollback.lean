import FlatFileDb.Proofs.Parallel
import FlatFileDb.Proofs.Undisturbed

/-!
# Transactions that never happened

A run in which a transaction is rolled back is laid beside the run without it. What its user does in
the block stays in the transaction, but for schemas that are read into memory: the two engines are
twins from its beginning to its end, and whatever others do comes to the same in both. A transaction
takes its identifier from the time, which moves on with each one begun; so that the others find the
same time, the run without the block lets that much time pass.
-/

namespace FlatFileDb

/-- Whether a command looks at rows or changes them, and does nothing else. -/
def Command.isOnRows : Command → Bool
  | insert .. | update .. | delete .. | select .. => true
  | _ => false

namespace Engine

/-! ### What stays in a transaction -/

/-- Nothing happened but that schemas were read, and something to the transaction of a user. -/
structure Aside (user : String) (before after : Engine) : Prop where
  quiet : Quiet { before with transactions := after.transactions } after
  others : ∀ other, other ≠ user →
    after.transactions.get? other = before.transactions.get? other

variable {e e' : Engine} {who : Identity} {user : String}

theorem Quiet.aside (h : Quiet e e') (user : String) : Aside user e e' := by
  refine ⟨?_, fun other _ => by rw [h.transactions]⟩
  rw [h.transactions]
  exact h

theorem Aside.waiting (h : Quiet e e') (user : String) (transaction : Transaction)
    (entries : List Log.Entry) : Aside user e (e'.waiting user transaction entries) := by
  refine ⟨⟨h.settings, h.disk, h.log, rfl, h.role, h.latestJobs, h.clock, h.kept, h.read⟩,
    fun other hother => ?_⟩
  rw [Engine.waiting, Keyed.get?_insert, if_neg (by simpa using hother), h.transactions]

/-- In a transaction a command on rows leaves everything else alone, and the transaction goes on. -/
theorem Own.aside {command : Command} {upkeep : Upkeep} (h : Own who command e e' upkeep)
    (hrows : command.isOnRows = true) (hactive : e.inTransaction who.user = true) :
    upkeep = .none ∧ Aside who.user e e' ∧ e'.inTransaction who.user = true := by
  have hwaiting (e₁ : Engine) (transaction : Transaction) (entries : List Log.Entry) :
      (e₁.waiting who.user transaction entries).inTransaction who.user = true := by
    simp [Engine.inTransaction, Engine.waiting, Keyed.contains]
  cases h with
  | quiet hquiet => exact ⟨rfl, hquiet.aside _, by rw [hquiet.inTransaction]; exact hactive⟩
  | insertLater _ hquiet | updateLater _ hquiet | deleteLater _ hquiet =>
    exact ⟨rfl, .waiting hquiet _ _ _, hwaiting _ _ _⟩
  | insert _ _ hfree | update _ _ hfree | delete _ _ hfree =>
    exact absurd (hactive.symm.trans hfree) (by simp)
  | _ => exact absurd hrows (by simp [Command.isOnRows])

/-- A transaction that ends is gone. -/
theorem Own.aside_rollback {upkeep : Upkeep}
    (h : Own who (.transaction .rollback) e e' upkeep) :
    upkeep = .none ∧ Aside who.user e e' := by
  cases h with
  | quiet hquiet => exact ⟨rfl, hquiet.aside _⟩
  | rollback =>
    refine ⟨rfl, refl _, fun other hother => ?_⟩
    rw [Keyed.get?_erase, if_neg (by simpa using hother)]

/-! ### Commands on which no triggers are due -/

/-- Whether triggers are not due on what a step does for a user in a transaction. -/
def Unfired (user : String) (step : Action Engine Effect) : Prop :=
  ∀ e, e.inTransaction user = true → ∀ effect, (step e).1 = .ok effect → effect.firing = none

namespace Unfired

variable {α : Type}

theorem bind {step : Action Engine α} {next : α → Action Engine Effect}
    (h : Action.Within Quiet step) (hnext : ∀ a, Unfired user (next a)) :
    Unfired user (step >>= next) := by
  intro e hactive effect heffect
  have hquiet := h e
  rw [Action.bind_apply] at heffect
  cases hstep : step e with
  | mk result e' =>
  rw [hstep] at heffect hquiet
  cases result with
  | error failure => exact absurd heffect (by simp)
  | ok a => exact hnext a e' (by rw [hquiet.inTransaction]; exact hactive) effect heffect

theorem map (step : Action Engine α) {f : α → Effect} (hf : ∀ a, (f a).firing = none) :
    Unfired user (f <$> step) := by
  intro e _ effect heffect
  rw [Action.map_apply] at heffect
  cases hstep : (step e).1 with
  | error failure =>
    rw [hstep] at heffect
    exact absurd heffect (by simp [Except.map])
  | ok a =>
    rw [hstep] at heffect
    rw [← Except.ok.inj heffect]
    exact hf a

theorem message (step : Action Engine α) (f : α → String) :
    Unfired user (step >>= fun a => pure (Effect.ofMessage (f a))) :=
  map step fun _ => rfl

theorem outcome (step : Action Engine Outcome) : Unfired user (Effect.ofOutcome <$> step) :=
  map step fun _ => rfl

theorem buffering {later now : Action Engine Effect} (h : Unfired who.user later) :
    Unfired who.user (isBuffering who >>= fun buffering => if buffering then later else now) := by
  intro e hactive effect heffect
  have hrun : (isBuffering who >>= fun buffering => if buffering then later else now) e
      = later e := by
    change (if e.inTransaction who.user then later else now) e = _
    rw [if_pos hactive]
  rw [hrun] at heffect
  exact h e hactive effect heffect

end Unfired

theorem unfired_effectIn {executing : Executing} (database : String) (command : Command) :
    Unfired who.user (effectIn executing who database command) := by
  cases command with
  | insert table row =>
    exact .bind (observes_writableSchema _ _ _).quiet fun _ =>
      .bind (observes_checkRow _ _ _).quiet fun _ => .buffering (.message _ _)
  | update table assigned conditions =>
    exact .bind (observes_writableSchema _ _ _).quiet fun _ =>
      .bind (Observes.mapM fun _ => observes_checkAssignment _ _ _ _).quiet fun _ =>
      .buffering (.bind (Observes.readDisk _).quiet fun _ =>
        .bind (Observes.ofExcept _).quiet fun (_, _) => .message _ _)
  | delete table conditions =>
    exact .bind (observes_writableSchema _ _ _).quiet fun _ =>
      .buffering (.bind (Observes.readDisk _).quiet fun _ => .message _ _)
  | transaction control => cases control <;> exact .outcome _
  | _ => exact .outcome _

/-- In a transaction no triggers are due on anything. -/
theorem unfired_effect {executing : Executing} (command : Command) :
    Unfired who.user (effect executing who command) := by
  intro e hactive done hdone
  unfold effect at hdone
  rw [Action.read_bind] at hdone
  cases hallowed : authorize who command e.role with
  | error failure =>
    rw [hallowed] at hdone
    exact absurd hdone (by simp)
  | ok _ =>
  rw [hallowed] at hdone
  have hin : Unfired who.user (Action.ofExcept who.requireDatabase >>= fun database =>
      effectIn executing who database command) :=
    .bind (Observes.ofExcept _).quiet fun database => unfired_effectIn database command
  cases command with
  | showDatabases => exact Unfired.outcome showDatabases e hactive done hdone
  | become role => exact Unfired.outcome (become role) e hactive done hdone
  | _ => exact hin e hactive done hdone

/-- In a transaction nothing follows a command. -/
theorem perform_inTransaction {executing : Executing} {budget : Nat} {command : Command}
    (hactive : e.inTransaction who.user = true) :
    (perform executing budget who command e).2 = (effect executing who command e).2 := by
  have hunfired : ∀ done, (effect executing who command e).1 = .ok done → done.firing = none :=
    unfired_effect command e hactive
  rw [perform]
  cases heffect : effect executing who command e with
  | mk result after =>
  rw [heffect] at hunfired
  cases result with
  | error failure => rw [Action.bind_of_error heffect]
  | ok done =>
  rw [Action.bind_of_ok heffect, hunfired done rfl]
  rfl

/-- In a transaction a command on rows stays in it, and so does its end without effect. -/
theorem aside_executeWithin (budget : Nat) {command : Command}
    (h : command.isOnRows = true ∨ command = .transaction .rollback)
    (hactive : e.inTransaction who.user = true) :
    Aside who.user e (executeWithin budget who command e).2 ∧
      (command.isOnRows = true →
        (executeWithin budget who command e).2.inTransaction who.user = true) := by
  cases budget with
  | zero => exact ⟨(refl e : Quiet e e).aside _, fun _ => hactive⟩
  | succ budget =>
  obtain ⟨e₁, upkeep, hown, hafter⟩ := effect_cases (observes_executeWithin budget) who command e
  have hstays : upkeep = .none ∧ Aside who.user e e₁ ∧
      (command.isOnRows = true → e₁.inTransaction who.user = true) := by
    rcases h with hrows | rfl
    · obtain ⟨hnone, haside, hgoes⟩ := hown.aside hrows hactive
      exact ⟨hnone, haside, fun _ => hgoes⟩
    · obtain ⟨hnone, haside⟩ := hown.aside_rollback
      exact ⟨hnone, haside, fun hrows => absurd hrows (by simp [Command.isOnRows])⟩
  obtain ⟨rfl, hstays⟩ := hstays
  rw [executeWithin, perform_inTransaction hactive, hafter]
  exact hstays

/-- A query answers the same wherever the same is seen. -/
theorem run_select {first second : Engine} (hview : SameView first second) {text : String}
    {query : Query} (hparse : Statement.parse text = .ok (.select query)) :
    (run (some who) text second).1 = (run (some who) text first).1 := by
  rw [run_of_parse hparse, run_of_parse hparse, hview.settings]
  exact (observes_executeWithin (first.settings.nestingLimit + 1) who query).stable first second hview

/-- With maintenance at once, nothing waits. -/
structure IsIdle (e : Engine) : Prop where
  background : e.settings.background = false
  latestJobs : e.latestJobs = []

theorem IsIdle.after (h : e.IsIdle) (event : Event) : (event.after e).IsIdle := by
  have htrace := (Trace.start : Trace e [] e).run_event event fun _ => h.latestJobs
  exact ⟨by rw [htrace.settings_eq]; exact h.background,
    htrace.latestJobs_eq_nil h.background h.latestJobs⟩

end Engine

/-! ### Events side by side -/

namespace Event

/-- The user whose statement an event is. -/
def user? : Event → Option String
  | statement (some who) _ => some who.user
  | _ => none

theorem user?_of_identity {session : Session} {who : Identity} (h : session.identity = .ok who)
    (text : String) : (statement session text).user? = some who.user := by
  cases session with
  | none => exact absurd h (by simp [Session.identity])
  | some other =>
    rw [← Except.ok.inj h]
    rfl

/-- The command that a statement asks for. -/
def command? : Event → Option Command
  | statement _ text => (Statement.parse text).toOption
  | _ => none

/-- What a statement is answered. -/
def answer? (engine : Engine) : Event → Option (Except Error Outcome)
  | statement session text => some (Engine.run session text engine).1
  | _ => none

/-- Whether an event may come up while a transaction of a user is in progress: anything that is not
the user's, but that the engine is opened anew, and commands of the user on rows. -/
def isTurn (user : String) : Event → Bool
  | reopen => false
  | event => event.user? != some user || event.command?.all Command.isOnRows

end Event

namespace Run

/-- What the statements of everybody but one user are answered. -/
def answersBut (user : String) : List Event → Engine → List (Except Error Outcome)
  | [], _ => []
  | event :: rest, engine =>
    (if event.user? = some user then [] else (event.answer? engine).toList)
      ++ answersBut user rest (event.after engine)

/-- What all statements are answered. -/
def answers : List Event → Engine → List (Except Error Outcome)
  | [], _ => []
  | event :: rest, engine => (event.answer? engine).toList ++ answers rest (event.after engine)

end Run

namespace Engine

variable {hidden : String → Prop} {first second : Engine} {user : String}

theorem settle_of_nil {e : Engine} (h : e.latestJobs = []) : Event.after e .settle = e := by
  change (runGenerations e.generations e).2 = e
  have hnone : e.generations = 0 := by rw [generations, h]; rfl
  rw [hnone]
  rfl

/-- What happens by others comes to the same in twins. -/
theorem Twins.after (h : Twins hidden first second) (hidle : first.IsIdle) {event : Event}
    (hevent : ∀ user, event.user? = some user → ¬hidden user) :
    event.answer? second = event.answer? first ∧
      Twins hidden (event.after first) (event.after second) := by
  cases event with
  | statement session text =>
    have hrun : Parallel hidden (Engine.run session text) :=
      parallel_run (fun _ hwho => hevent _ (Event.user?_of_identity hwho text)) text
    obtain ⟨hanswer, hafter⟩ := hrun.stable first second h
    exact ⟨congrArg some hanswer, hafter⟩
  | createDatabase name =>
    exact ⟨rfl, ((Parallel.sparing (Database.sparesDefinitions_create name)).stable first second h).2⟩
  | settle =>
    rw [settle_of_nil hidle.latestJobs, settle_of_nil (h.latestJobs.trans hidle.latestJobs)]
    exact ⟨rfl, h⟩
  | reopen =>
    have hsame : second.reopen = first.reopen := by
      rw [reopen, reopen, h.view.settings, h.view.disk, h.clock]
    refine ⟨rfl, ?_⟩
    cases hopened : first.reopen with
    | error failure =>
      rw [Event.after_reopen_of_error hopened, Event.after_reopen_of_error (hsame.trans hopened)]
      exact h
    | ok opened =>
      rw [Event.after_reopen hopened, Event.after_reopen (hsame.trans hopened)]
      obtain ⟨log, after, hlog, rfl⟩ := openOn_eq_ok hopened
      exact .of_self (((Log.sparesDefinitions_openAt _).after hlog).recalls.filed h.filed) (isOpen_openOn hopened).path
  | pass nanoseconds =>
    refine ⟨rfl, ⟨h.view.settings, h.view.disk, h.view.schema⟩, h.log, h.role, h.latestJobs, ?_,
      h.transactions, h.filed, h.path⟩
    exact congrArg (· + nanoseconds) h.clock

/-- Whatever happens in twins that nobody could tell apart is the same. -/
theorem Twins.afterEvents (h : Twins (fun _ => False) first second) (hidle : first.IsIdle)
    (events : List Event) :
    Run.answers events second = Run.answers events first ∧
      Twins (fun _ => False) (Run.afterEvents first events) (Run.afterEvents second events) := by
  induction events generalizing first second with
  | nil => exact ⟨rfl, h⟩
  | cons event rest ih =>
    have hspares : ∀ who, event.user? = some who → ¬False := fun _ _ => not_false
    obtain ⟨hanswer, hafter⟩ := h.after hidle hspares
    obtain ⟨hrest, hlast⟩ := ih hafter (hidle.after event)
    exact ⟨by rw [Run.answers, Run.answers, hanswer, hrest], hlast⟩

/-- An engine in which a user is in a transaction, and one in which the user is not. -/
structure Beside (user : String) (first second : Engine) : Prop where
  twins : Twins (· = user) first second
  idle : first.IsIdle
  active : first.inTransaction user = true
  free : second.inTransaction user = false

/-- What the user does in the transaction is not seen elsewhere. -/
theorem Aside.twins (h : Aside user first e) (htwins : Twins (· = user) first second) :
    Twins (· = user) e second := by
  have hchanged : Twins (· = user) { first with transactions := e.transactions }
      { second with transactions := second.transactions } :=
    htwins.withTransactions fun other hother => by
      rw [h.others other hother, htwins.transactions other hother]
  exact hchanged.quiet h.quiet (refl second)

theorem aside_after {event : Event} (huser : event.user? = some user)
    (hactive : first.inTransaction user = true)
    (hcommand : ∀ command, event.command? = some command →
      command.isOnRows = true ∨ command = .transaction .rollback) :
    Aside user first (event.after first) ∧
      ((∀ command, event.command? = some command → command.isOnRows = true) →
        (event.after first).inTransaction user = true) := by
  cases event with
  | statement session text =>
    cases session with
    | none => exact absurd huser (by simp [Event.user?])
    | some who =>
    obtain rfl : who.user = user := by simpa [Event.user?] using huser
    rw [Event.after_statement]
    rcases run_cases (some who) text first with ⟨failure, hrefused⟩ | ⟨_, command, ⟨⟩, hparse, hrun⟩
    · rw [hrefused]
      exact ⟨(refl first : Quiet first first).aside _, fun _ => hactive⟩
    · have hfound : (Event.statement (some who) text).command? = some command := by
        rw [Event.command?, hparse]
        rfl
      obtain ⟨haside, hgoes⟩ := aside_executeWithin (first.settings.nestingLimit + 1)
        (hcommand command hfound) hactive
      rw [hrun]
      exact ⟨haside, fun hall => hgoes (hall command hfound)⟩
  | _ => exact absurd huser (by simp [Event.user?])

theorem Beside.own (h : Beside user first second) {event : Event} (hturn : event.isTurn user = true)
    (huser : event.user? = some user) : Beside user (event.after first) second := by
  have hrows : ∀ command, event.command? = some command → command.isOnRows = true := by
    intro command hcommand
    cases event <;> simp_all [Event.isTurn, Event.user?]
  obtain ⟨haside, hgoes⟩ := aside_after huser h.active fun command hcommand =>
    .inl (hrows command hcommand)
  exact ⟨haside.twins h.twins, h.idle.after event, hgoes hrows, h.free⟩

/-- What others do touches no transaction of the user. -/
theorem inTransaction_after {event : Event} (hturn : event.isTurn user = true)
    (huser : event.user? ≠ some user) {e : Engine} (hjobs : e.latestJobs = []) :
    (event.after e).inTransaction user = e.inTransaction user := by
  have hsame : (event.after e).transactions.get? user = e.transactions.get? user := by
    cases event with
    | statement session text =>
      have hrun : Parallel (· = user) (Engine.run session text) := parallel_run
        (fun who hwho hsame => huser
          ((Event.user?_of_identity hwho text).trans (congrArg some hsame))) text
      rw [Event.after_statement]
      exact hrun.untouched e user rfl
    | createDatabase name =>
      have hcreate : Parallel (· = user) (Engine.onDisk (Database.create name)) :=
        .sparing (Database.sparesDefinitions_create name)
      exact hcreate.untouched e user rfl
    | settle => rw [settle_of_nil hjobs]
    | reopen => exact absurd hturn (by simp [Event.isTurn])
    | pass nanoseconds => rfl
  unfold inTransaction Keyed.contains
  rw [hsame]

theorem Beside.others (h : Beside user first second) {event : Event}
    (hturn : event.isTurn user = true) (huser : event.user? ≠ some user) :
    event.answer? second = event.answer? first ∧
      Beside user (event.after first) (event.after second) := by
  have hspares : ∀ who, event.user? = some who → ¬who = user := fun other hother hsame =>
    huser (hsame ▸ hother)
  obtain ⟨hanswer, hafter⟩ := h.twins.after h.idle hspares
  exact ⟨hanswer, hafter, h.idle.after event,
    (inTransaction_after hturn huser h.idle.latestJobs).trans h.active,
    (inTransaction_after hturn huser (h.twins.latestJobs.trans h.idle.latestJobs)).trans h.free⟩

theorem IsIdle.afterEvents (h : e.IsIdle) (events : List Event) :
    (Run.afterEvents e events).IsIdle := by
  induction events generalizing e with
  | nil => exact h
  | cons event rest ih => exact ih (h.after event)

/-- The engine with the transaction goes through all turns, the other one through those of others. -/
theorem Beside.afterEvents (h : Beside user first second) {turns : List Event}
    (hturns : ∀ event ∈ turns, event.isTurn user = true) :
    let others := turns.filter fun event => event.user? != some user
    Run.answersBut user turns first = Run.answers others second ∧
      Beside user (Run.afterEvents first turns) (Run.afterEvents second others) := by
  induction turns generalizing first second with
  | nil => exact ⟨rfl, h⟩
  | cons event rest ih =>
    have hturn := hturns event (by simp)
    have hrest : ∀ event ∈ rest, event.isTurn user = true := fun other hother =>
      hturns other (by simp [hother])
    by_cases huser : event.user? = some user
    · obtain ⟨hanswers, hlast⟩ := ih (h.own hturn huser) hrest
      dsimp only
      rw [List.filter_cons, if_neg (by simp [huser]), Run.answersBut, if_pos huser, List.nil_append]
      exact ⟨hanswers, hlast⟩
    · obtain ⟨hanswer, hafter⟩ := h.others hturn huser
      obtain ⟨hanswers, hlast⟩ := ih hafter hrest
      dsimp only
      rw [List.filter_cons, if_pos (by simpa using huser), Run.answersBut, if_neg huser, Run.answers,
        hanswer, hanswers]
      exact ⟨rfl, hlast⟩

/-- What a rollback reports: how many changes are discarded. -/
def rolledBack (transaction : Transaction) : Outcome :=
  let count := countText transaction.latest.length
  .ofMessage s!"Transaction {transaction.id} rolled back ({count} operations discarded)"

/-- A rollback that is not refused drops what waits in the transaction, and does nothing else. -/
theorem run_rollback {text : String} {transaction : Transaction}
    (hactive : e.transactions.get? who.user = some transaction)
    (hparse : Statement.parse text = .ok (.transaction .rollback))
    (h : (run (some who) text e).1.isOk = true) :
    run (some who) text e
      = (.ok (rolledBack transaction),
          { e with transactions := e.transactions.erase who.user }) := by
  obtain ⟨hallowed, database, hdatabase⟩ := authorize_of_isOk hparse h
  have hstep : effect (executeWithin e.settings.nestingLimit) who (.transaction .rollback) e
      = (Effect.ofOutcome <$> executeRollback who) e :=
    effect_of_authorize hallowed hdatabase (by simp) (by simp)
  have hfound : transactionOf who.user e = (.ok transaction, e) := by
    rw [transactionOf, Action.read_apply, hactive]
  rw [Action.map_apply, executeRollback, rollback, bind_assoc, Action.bind_of_ok hfound] at hstep
  rw [run_of_parse hparse, perform, Action.bind_of_ok hstep]
  rfl

/-- A transaction that was rolled back is gone. -/
theorem free_of_rollback {text : String} (hactive : e.inTransaction who.user = true)
    (hparse : Statement.parse text = .ok (.transaction .rollback))
    (h : (run (some who) text e).1.isOk = true) :
    (run (some who) text e).2.transactions.get? who.user = none := by
  obtain ⟨transaction, htransaction⟩ := Option.isSome_iff_exists.1 hactive
  rw [run_rollback htransaction hparse h]
  simp

end Engine

namespace Event

theorem eq_statement {event : Event} {user : String} (h : event.user? = some user) :
    ∃ who text, event = .statement (some who) text ∧ who.user = user := by
  cases event with
  | statement session text =>
    cases session with
    | none => exact absurd h (by simp [user?])
    | some who => exact ⟨who, text, rfl, Option.some.inj h⟩
  | _ => exact absurd h (by simp [user?])

theorem command?_statement {session : Session} {text : String} {command : Command} :
    (statement session text).command? = some command ↔ Statement.parse text = .ok command := by
  cases hparse : Statement.parse text <;> simp [command?, hparse, Except.toOption]

end Event

namespace Run

/-- A user who is in no transaction at the end of a run begins one, with success. In each turn the
user looks at rows or changes some, or something else happens but that the engine is opened anew. Then
the user asks for the transaction to be rolled back. -/
structure IsRolledBack (run : Run) (user : String) (opening : Event) (turns : List Event)
    (closing : Event) : Prop where
  inline : run.settings.background = false
  free : run.last.inTransaction user = false
  opens : opening.user? = some user ∧ opening.command? = some (.transaction .begin)
  begun : opening.succeeds run.last = true
  turns : ∀ event ∈ turns, event.isTurn user = true
  closes : closing.user? = some user ∧ closing.command? = some (.transaction .rollback)

theorem twins_last (run : Run) (hinline : run.settings.background = false) :
    Engine.Twins (fun _ => False) run.last run.last ∧ run.last.IsIdle := by
  have hidle : run.first.IsIdle :=
    ⟨by rw [run.settings_first]; exact hinline, run.latestJobs_first⟩
  have hfiled : run.first.disk.IsFiled := by
    obtain ⟨log, after, hlog, hfirst⟩ := Engine.openOn_eq_ok run.opened
    rw [hfirst]
    exact ((Log.sparesDefinitions_openAt _).after hlog).recalls.filed Disk.isFiled_empty
  have hfirst : Engine.Twins (fun _ => False) run.first run.first :=
    .of_self hfiled (Engine.isOpen_openOn run.opened).path
  exact ⟨(hfirst.afterEvents hidle run.events).2, hidle.afterEvents run.events⟩

variable {run : Run} {user : String} {opening closing : Event} {turns : List Event}

/-- Once the transaction is begun, the run without it is where it was, only a little later. -/
theorem IsRolledBack.beside (h : run.IsRolledBack user opening turns closing) :
    Engine.Beside user (opening.after run.last) (Event.after run.last (.pass 1)) := by
  obtain ⟨who, text, rfl, rfl⟩ := Event.eq_statement h.opens.1
  obtain ⟨htwins, hidle⟩ := run.twins_last h.inline
  have hsucceeds := h.begun
  rw [Event.succeeds_statement] at hsucceeds
  obtain ⟨id, hbegun⟩ := Engine.run_begin (Event.command?_statement.1 h.opens.2) h.free hsucceeds
  have hidle' := hidle.after (.statement (some who) text)
  rw [Event.after_statement, hbegun] at hidle' ⊢
  refine ⟨⟨⟨rfl, rfl, fun _ _ => rfl⟩, rfl, rfl, rfl, rfl, fun user huser => ?_, htwins.filed,
    htwins.path⟩, hidle', by simp [Engine.inTransaction, Keyed.contains], h.free⟩
  rw [Keyed.get?_insert, if_neg (by simpa using huser)]
  rfl

/-- What is rolled back never happened. Without the transaction, and with the nanosecond that its
identifier takes, everything lies on the disk as it does with it, and everybody else is answered the
same. The queries of the user are answered as they are where the user is in no transaction. And if the
transaction was rolled back indeed, whatever happens later is the same, whoever asks for it. -/
theorem IsRolledBack.same_without (h : run.IsRolledBack user opening turns closing) :
    let others := turns.filter fun event => event.user? != some user
    let begun := opening.after run.last
    let ended := closing.after (afterEvents begun turns)
    let passed := Event.after run.last (.pass 1)
    let without := afterEvents passed others
    ended.disk = without.disk ∧
      answersBut user turns begun = answers others passed ∧
      (∀ front event rest query, turns = front ++ event :: rest → event.user? = some user →
        event.command? = some (.select query) →
          let aside := afterEvents passed (front.filter fun event => event.user? != some user)
          aside.inTransaction user = false ∧
            event.answer? (afterEvents begun front) = event.answer? aside) ∧
      (closing.succeeds (afterEvents begun turns) = true → ∀ later,
        (afterEvents ended later).disk = (afterEvents without later).disk ∧
          answers later ended = answers later without) := by
  dsimp only
  obtain ⟨hanswers, hlast⟩ := h.beside.afterEvents h.turns
  obtain ⟨hclosed, -⟩ := Engine.aside_after h.closes.1 hlast.active fun command hcommand =>
    .inr (Option.some.inj (hcommand.symm.trans h.closes.2))
  have hended := hclosed.twins hlast.twins
  refine ⟨hended.view.disk.symm, hanswers, fun front event rest query hturns huser hquery => ?_,
    fun hsucceeds later => ?_⟩
  · have hturn : ∀ event ∈ front, event.isTurn user = true := fun event hevent =>
      h.turns event (by rw [hturns]; simp [hevent])
    obtain ⟨-, hfront⟩ := h.beside.afterEvents hturn
    obtain ⟨who, text, rfl, rfl⟩ := Event.eq_statement huser
    refine ⟨hfront.free, congrArg some ?_⟩
    exact (Engine.run_select hfront.twins.view (Event.command?_statement.1 hquery)).symm
  · obtain ⟨who, text, rfl, rfl⟩ := Event.eq_statement h.closes.1
    rw [Event.succeeds_statement] at hsucceeds
    have hgone := Engine.free_of_rollback hlast.active (Event.command?_statement.1 h.closes.2)
      hsucceeds
    have hsame : Engine.Twins (fun _ => False)
        (Event.after (afterEvents (opening.after run.last) turns) (.statement (some who) text))
        (afterEvents (Event.after run.last (.pass 1))
          (turns.filter fun event => event.user? != some who.user)) := by
      refine hended.mono fun user _ => ?_
      by_cases huser : user = who.user
      · have hfree := hlast.free
        rw [Engine.inTransaction, Keyed.contains, Option.isSome_eq_false_iff,
          Option.isNone_iff_eq_none] at hfree
        rw [huser, hfree, Event.after_statement, hgone]
      · exact hended.transactions user huser
    obtain ⟨hlater, htwins⟩ := hsame.afterEvents (hlast.idle.after _) later
    exact ⟨htwins.view.disk.symm, hlater.symm⟩

/-! ### A transaction beside another user -/

/-- A statement of another user than the author. -/
def byReader (text : String) : Event :=
  .statement (some ⟨"budi", .supermaung, some "kantor"⟩) text

/-- A statement of the author. -/
def byAuthor (text : String) : Event :=
  .statement (some author) text

/-- A table with one row. -/
def oneRow : Run :=
  .script "asep" "kantor" ["CREATE TABLE t id:INT:PK, nama:STRING", "INSERT t 1|a"]

/-- Changes that succeed and fail, a query among them, and what the other user does meanwhile. -/
def sharedTurns : List Event :=
  [byAuthor "INSERT t 2|b", byReader "INSERT t 3|c", byAuthor "INSERT t 3|d", byAuthor "SELECT * FROM t",
    byReader "UPDATE t SET nama=e WHERE id = 1", byAuthor "DELETE FROM t WHERE id = 1"]

theorem same_without_sharedTurns :
    oneRow.IsRolledBack "asep" (byAuthor "BEGIN") sharedTurns (byAuthor "ROLLBACK") ∧
      (Event.after (afterEvents (Event.after oneRow.last (byAuthor "BEGIN")) sharedTurns)
          (byAuthor "ROLLBACK")).disk
        = (afterEvents (Event.after oneRow.last (.pass 1))
            [byReader "INSERT t 3|c", byReader "UPDATE t SET nama=e WHERE id = 1"]).disk := by
  have hrolledBack :
      oneRow.IsRolledBack "asep" (byAuthor "BEGIN") sharedTurns (byAuthor "ROLLBACK") := by
    constructor <;> decide +kernel
  exact ⟨hrolledBack, hrolledBack.same_without.1⟩

end Run

end FlatFileDb
