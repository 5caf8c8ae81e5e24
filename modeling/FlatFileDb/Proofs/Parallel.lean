import FlatFileDb.Proofs.Recall

/-!
# Engines side by side

Two engines are twins if only some hidden users could tell them apart: they agree on everything but
the transactions of those users and, perhaps, on which schemas are in memory already. A step is
parallel if it comes to the same in both of two twins and leaves twins behind. Every command of a
user who is not hidden is parallel, and with it everything that it fires; so what one of two runs has
beyond the other, as long as it is hidden, is never seen.
-/

namespace FlatFileDb

namespace Engine

/-- Only hidden users could tell one engine from the other. -/
structure Twins (hidden : String → Prop) (first second : Engine) : Prop where
  view : SameView first second
  log : second.log = first.log
  role : second.role = first.role
  latestJobs : second.latestJobs = first.latestJobs
  clock : second.clock = first.clock
  transactions : ∀ user, ¬hidden user →
    second.transactions.get? user = first.transactions.get? user
  filed : first.disk.IsFiled
  path : first.log.path = Path.log first.settings

variable {hidden : String → Prop} {first second : Engine}

namespace Twins

theorem of_self {e : Engine} (hfiled : e.disk.IsFiled) (hpath : e.log.path = Path.log e.settings) :
    Twins hidden e e :=
  ⟨.refl e, rfl, rfl, rfl, rfl, fun _ _ => rfl, hfiled, hpath⟩

theorem inTransaction (h : Twins hidden first second) {user : String} (huser : ¬hidden user) :
    second.inTransaction user = first.inTransaction user := by
  unfold Engine.inTransaction Keyed.contains
  rw [h.transactions user huser]

/-- Reading in either engine is not seen. -/
theorem quiet (h : Twins hidden first second) {first' second' : Engine} (hfirst : Quiet first first')
    (hsecond : Quiet second second') : Twins hidden first' second' where
  view := {
    settings := by rw [hsecond.settings, hfirst.settings, h.view.settings]
    disk := by rw [hsecond.disk, hfirst.disk, h.view.disk]
    schema := fun database table => by
      rw [hsecond.sameView.schema, hfirst.sameView.schema, h.view.schema] }
  log := by rw [hsecond.log, hfirst.log, h.log]
  role := by rw [hsecond.role, hfirst.role, h.role]
  latestJobs := by rw [hsecond.latestJobs, hfirst.latestJobs, h.latestJobs]
  clock := by rw [hsecond.clock, hfirst.clock, h.clock]
  transactions user huser := by
    rw [hsecond.transactions, hfirst.transactions, h.transactions user huser]
  filed := by rw [hfirst.disk]; exact h.filed
  path := by rw [hfirst.log, hfirst.settings]; exact h.path

/-- A schema that only one of the engines has in memory is the same on the disk ever after. -/
theorem onDisk (h : Twins hidden first second) {disk : Disk}
    (hdisk : Disk.Recalls first.disk disk) :
    Twins hidden { first with disk } { second with disk } := by
  refine ⟨⟨h.view.settings, rfl, fun database table => ?_⟩, h.log, h.role, h.latestJobs, h.clock,
    h.transactions, hdisk.filed h.filed, h.path⟩
  have hknown := h.view.schema database table
  unfold knownSchema at hknown ⊢
  cases hfirst : first.schemas.get? (database, table) with
  | some schema =>
    cases hsecond : second.schemas.get? (database, table) with
    | some other => simpa only [hfirst, hsecond] using hknown
    | none =>
      simp only [hfirst, hsecond, h.view.disk] at hknown
      exact hdisk.schema h.filed _ _ _ hknown
  | none =>
    cases hsecond : second.schemas.get? (database, table) with
    | some other =>
      simp only [hfirst, hsecond] at hknown
      exact (hdisk.schema h.filed _ _ _ hknown.symm).symm
    | none => rfl

theorem withTransactions (h : Twins hidden first second)
    {one other : Keyed String Transaction}
    (hsame : ∀ user, ¬hidden user → other.get? user = one.get? user) :
    Twins hidden { first with transactions := one } { second with transactions := other } :=
  ⟨⟨h.view.settings, h.view.disk, h.view.schema⟩, h.log, h.role, h.latestJobs, h.clock, hsame,
    h.filed, h.path⟩

theorem mono {hidden' : String → Prop} (h : Twins hidden first second)
    (hsame : ∀ user, ¬hidden' user →
      second.transactions.get? user = first.transactions.get? user) : Twins hidden' first second :=
  ⟨h.view, h.log, h.role, h.latestJobs, h.clock, hsame, h.filed, h.path⟩

end Twins

/-- The transactions of hidden users are as they were. -/
def Untouched (hidden : String → Prop) (before after : Engine) : Prop :=
  ∀ user, hidden user → after.transactions.get? user = before.transactions.get? user

instance : IsPreorder Engine (Untouched hidden) where
  refl _ _ _ := rfl
  trans _ _ _ h h' user huser := (h' user huser).trans (h user huser)

/-- A step that comes to the same in twins and leaves twins behind, and does nothing for hidden
users. -/
structure Parallel (hidden : String → Prop) {α : Type} (step : Action Engine α) : Prop where
  untouched : Action.Within (Untouched hidden) step
  stable : ∀ first second, Twins hidden first second →
    (step second).1 = (step first).1 ∧ Twins hidden (step first).2 (step second).2

namespace Parallel

variable {α β : Type}

theorem of_observes {step : Action Engine α} (h : Observes step) : Parallel hidden step where
  untouched e _ _ := by rw [(h.quiet e).transactions]
  stable first second htwins := ⟨h.stable first second htwins.view,
    htwins.quiet (h.quiet first) (h.quiet second)⟩

theorem pure (a : α) : Parallel hidden (Pure.pure a : Action Engine α) :=
  of_observes (.pure a)

theorem throw (e : Error) : Parallel hidden (throw e : Action Engine α) :=
  of_observes (.throw e)

theorem ofExcept (result : Except Error α) : Parallel hidden (Action.ofExcept result) :=
  of_observes (.ofExcept result)

theorem look (f : Disk → α) : Parallel hidden (look f) :=
  of_observes (.look f)

theorem readDisk (f : Disk → Except Error α) : Parallel hidden (readDisk f) :=
  of_observes (.readDisk f)

theorem read {f : Engine → Except Error α}
    (h : ∀ first second, Twins hidden first second → f second = f first) :
    Parallel hidden (Action.read f) :=
  ⟨.read f, fun first second htwins => ⟨h first second htwins, htwins⟩⟩

theorem modify {f : Engine → Engine}
    (huntouched : ∀ e user, hidden user →
      (f e).transactions.get? user = e.transactions.get? user)
    (h : ∀ first second, Twins hidden first second → Twins hidden (f first) (f second)) :
    Parallel hidden (Action.modify f) :=
  ⟨huntouched, fun first second htwins => ⟨rfl, h first second htwins⟩⟩

theorem onDisk {step : Action Disk α} (h : Action.Within Disk.Recalls step) :
    Parallel hidden (onDisk step) := by
  refine ⟨fun _ _ _ => rfl, fun first second htwins => ?_⟩
  rw [Engine.onDisk, Action.onPart_apply, Action.onPart_apply, htwins.view.disk]
  exact ⟨rfl, htwins.onDisk (h first.disk)⟩

theorem sparing {step : Action Disk α} (h : Action.Within Disk.SparesDefinitions step) :
    Parallel hidden (Engine.onDisk step) :=
  onDisk (Disk.recalls_of_spares h)

theorem bind {step : Action Engine α} {next : α → Action Engine β} (h : Parallel hidden step)
    (hnext : ∀ a, Parallel hidden (next a)) : Parallel hidden (step >>= next) :=
  ⟨.bind h.untouched fun a => (hnext a).untouched,
    Action.Alike.bind h.stable fun a => (hnext a).stable⟩

theorem map {step : Action Engine α} (f : α → β) (h : Parallel hidden step) :
    Parallel hidden (f <$> step) :=
  h.bind fun a => pure (f a)

/-- What comes behind a look at the whole engine may use what twins agree on. -/
theorem get {next : Engine → Action Engine β}
    (hsame : ∀ first second, Twins hidden first second → next second = next first)
    (hnext : ∀ e, Parallel hidden (next e)) : Parallel hidden (Action.get >>= next) :=
  ⟨.bind .get fun e => (hnext e).untouched, Action.Alike.get hsame fun e => (hnext e).stable⟩

theorem ite {p : Prop} [Decidable p] {yes no : Action Engine α} (hyes : Parallel hidden yes)
    (hno : Parallel hidden no) : Parallel hidden (if p then yes else no) := by
  by_cases h : p
  · rw [if_pos h]
    exact hyes
  · rw [if_neg h]
    exact hno

theorem forM {list : List α} {step : α → Action Engine Unit}
    (h : ∀ a ∈ list, Parallel hidden (step a)) : Parallel hidden (list.forM step) := by
  induction list with
  | nil => exact pure ()
  | cons a list ih =>
    rw [List.forM_eq_forM, List.forM_cons]
    exact bind (h a (by simp)) fun _ => ih fun other hother => h other (by simp [hother])

theorem attempt {step : Action Engine α} (h : Parallel hidden step) :
    Parallel hidden (Action.attempt step) :=
  ⟨h.untouched.attempt, Action.Alike.attempt h.stable⟩

theorem tryCatch {step : Action Engine α} {handle : Error → Action Engine α}
    (h : Parallel hidden step) (hhandle : ∀ failure, Parallel hidden (handle failure)) :
    Parallel hidden (tryCatch step handle : Action Engine α) := by
  refine ⟨fun e => ?_, Action.Alike.tryCatch h.stable fun failure => (hhandle failure).stable⟩
  have hstep := h.untouched e
  rw [Action.tryCatch_apply]
  cases hrun : step e with
  | mk result e' =>
  rw [hrun] at hstep
  cases result with
  | ok a => exact hstep
  | error failure => exact IsTrans.trans _ _ _ hstep ((hhandle failure).untouched e')

end Parallel

/-! ### What follows a change -/

theorem parallel_dispatch (job : Job) {step : Action Engine Unit} (h : Parallel hidden step) :
    Parallel hidden (dispatch job step) := by
  refine .get (fun first second htwins => by rw [htwins.view.settings]) fun e => .ite ?_ h.attempt
  refine .modify (fun _ _ _ => rfl) fun first second htwins => ?_
  rw [htwins.latestJobs]
  exact ⟨⟨htwins.view.settings, htwins.view.disk, htwins.view.schema⟩, htwins.log, htwins.role, rfl,
    htwins.clock, htwins.transactions, htwins.filed, htwins.path⟩

theorem parallel_patchTable (database : String) (schema : TableSchema)
    (removed added : List String) :
    Parallel hidden (Job.patchTable database schema removed added) :=
  .bind (.forM fun _ _ => .sparing (Index.sparesDefinitions_patch _ _ _)) fun _ =>
    .forM fun _ _ => .sparing (Index.sparesDefinitions_patch _ _ _)

theorem parallel_patchEntry (entry : Log.Entry) : Parallel hidden (Job.patchEntry entry) := by
  have hadd : Parallel hidden (do
      let schema ← schema entry.database entry.table
      onDisk (Index.addRow entry.database entry.table schema.fieldNames entry.row)) :=
    .bind (.of_observes (observes_schema _ _)) fun _ => .sparing (Index.sparesDefinitions_patch _ _ _)
  have hrest : Parallel hidden (if entry.operation != .delete then do
      let schema ← schema entry.database entry.table
      onDisk (Index.addRow entry.database entry.table schema.fieldNames entry.row)
      else pure ()) := .ite hadd (.pure ())
  unfold Job.patchEntry
  exact .ite (.bind (.sparing (Index.sparesDefinitions_patch _ _ _)) fun _ => hrest) hrest

theorem parallel_patchIndexes (database : String) (schema : TableSchema)
    (removed added : List String) :
    Parallel hidden (patchIndexes database schema removed added) :=
  parallel_dispatch _ (parallel_patchTable _ _ _ _)

theorem parallel_patchCommitted (entries : List Log.Entry) :
    Parallel hidden (patchCommitted entries) :=
  .ite (.pure ()) (parallel_dispatch _ (.forM fun entry _ => parallel_patchEntry entry))

/-! ### Transactions -/

theorem parallel_now : Parallel hidden now :=
  .read fun _ _ htwins => by rw [htwins.clock]

theorem untouched_logChanges (changes : List Log.Entry) :
    Action.Within (Untouched hidden) (logChanges changes) := by
  intro e
  rcases logChanges_apply changes e with ⟨-, hrun⟩ | ⟨logged, -, hrun⟩
  · rw [hrun]
    exact refl e
  · rw [hrun]
    exact fun _ _ => rfl

/-- The log is written, and its next number moves on, in both engines or in neither. -/
theorem parallel_logChanges (changes : List Log.Entry) : Parallel hidden (logChanges changes) := by
  refine ⟨untouched_logChanges changes, fun first second htwins => ?_⟩
  rcases logChanges_apply changes first with ⟨hno, hfirst⟩ | ⟨logged, hwrite, hfirst⟩ <;>
    rcases logChanges_apply changes second with ⟨hno', hsecond⟩ | ⟨logged', hwrite', hsecond⟩
  · rw [hfirst, hsecond]
    exact ⟨rfl, htwins⟩
  · rw [htwins.log, htwins.view.disk] at hwrite'
    exact absurd (congrArg Prod.fst hwrite') hno
  · rw [htwins.log, htwins.view.disk] at hno'
    exact absurd (congrArg Prod.fst hwrite) hno'
  · rw [htwins.log, htwins.view.disk] at hwrite'
    obtain rfl : logged = logged' := congrArg Prod.snd (hwrite.symm.trans hwrite')
    have hafter := htwins.onDisk ((Log.sparesDefinitions_write htwins.path _).after hwrite).recalls
    rw [hfirst, hsecond, htwins.log]
    exact ⟨rfl, ⟨hafter.view.settings, rfl, hafter.view.schema⟩, rfl, hafter.role,
      hafter.latestJobs, hafter.clock, hafter.transactions, hafter.filed, hafter.path⟩

theorem parallel_applyChanges (id : String) (entries : List Log.Entry) :
    Parallel hidden (applyChanges id entries) := by
  refine ⟨fun e user _ => ?_, fun first second htwins => ?_⟩
  · unfold applyChanges
    rcases Log.Entry.performAll entries e.disk with ⟨⟨done, failure⟩, disk⟩
    cases failure <;> rfl
  have hrecalls := (Log.Entry.sparesDefinitions_performAll entries first.disk).recalls
  unfold applyChanges
  rw [htwins.view.disk]
  cases hdone : Log.Entry.performAll entries first.disk with
  | mk result disk =>
  rw [hdone] at hrecalls
  obtain ⟨done, failure⟩ := result
  cases failure with
  | none => exact ⟨rfl, htwins.onDisk hrecalls⟩
  | some cause => exact ⟨rfl, htwins.onDisk hrecalls⟩

section Visible

variable {who : Identity} (hwho : ¬hidden who.user)

include hwho

theorem parallel_isBuffering : Parallel hidden (isBuffering who) :=
  .read fun _ _ htwins => by rw [htwins.inTransaction hwho]

theorem parallel_transactionOf : Parallel hidden (transactionOf who.user) :=
  .read fun _ _ htwins => by rw [htwins.transactions _ hwho]

/-- Only the transaction of a user who is not hidden is written. -/
theorem get?_insert_of_hidden {user : String} (huser : hidden user)
    (transactions : Keyed String Transaction) (transaction : Transaction) :
    (transactions.insert who.user transaction).get? user = transactions.get? user := by
  rw [Keyed.get?_insert, if_neg]
  rw [beq_iff_eq]
  rintro rfl
  exact hwho huser

theorem parallel_endTransaction : Parallel hidden (endTransaction who.user) := by
  refine .modify (fun e user huser => ?_) fun first second htwins =>
    htwins.withTransactions fun other hother => ?_
  · rw [Keyed.get?_erase, if_neg]
    rw [beq_iff_eq]
    rintro rfl
    exact hwho huser
  · rw [Keyed.get?_erase, Keyed.get?_erase, htwins.transactions other hother]

theorem parallel_begin : Parallel hidden (begin who.user) := by
  refine .get (fun first second htwins => by rw [htwins.inTransaction hwho, htwins.clock]) fun e =>
    .ite (.throw _) (.bind (.modify (fun e user huser => get?_insert_of_hidden hwho huser _ _)
      fun first second htwins => ?_) fun _ => .pure _)
  rw [htwins.clock]
  refine ⟨⟨htwins.view.settings, htwins.view.disk, htwins.view.schema⟩, htwins.log, htwins.role,
    htwins.latestJobs, rfl, fun user huser => ?_, htwins.filed, htwins.path⟩
  rw [Keyed.get?_insert, Keyed.get?_insert, htwins.transactions user huser]

theorem parallel_buffer (operation : Operation) (database table rowId row : String)
    (before : Option String) :
    Parallel hidden (buffer who.user operation database table rowId row before) := by
  refine .bind (parallel_transactionOf hwho) fun transaction => .bind parallel_now fun time =>
    .modify (fun e user huser => get?_insert_of_hidden hwho huser _ _) fun first second htwins =>
      htwins.withTransactions fun user huser => ?_
  rw [Keyed.get?_insert, Keyed.get?_insert, htwins.transactions user huser]

theorem parallel_rollback : Parallel hidden (rollback who.user) :=
  .bind (parallel_transactionOf hwho) fun _ => .bind (parallel_endTransaction hwho) fun _ => .pure _

theorem parallel_commit : Parallel hidden (commit who.user) :=
  .bind (parallel_transactionOf hwho) fun _ => .ite
    (.bind (parallel_endTransaction hwho) fun _ => .pure _)
    (.bind (parallel_logChanges _) fun _ => .bind (parallel_endTransaction hwho) fun _ =>
      .bind (parallel_applyChanges _ _) fun _ => .pure _)

theorem parallel_executeCommit : Parallel hidden (executeCommit who) := by
  refine .tryCatch (.bind (parallel_commit hwho) fun _ =>
    .bind (parallel_patchCommitted _) fun _ => .pure _) fun failure => ?_
  cases failure with
  | partlyApplied id cause applied =>
    exact .bind (parallel_patchCommitted _) fun _ => .throw _
  | _ => exact .bind (.pure _) fun _ => .throw _

/-! ### Changes of rows -/

theorem parallel_insert (database table row : String) :
    Parallel hidden (insert who database table row) :=
  .bind (.of_observes (observes_writableSchema _ _ _)) fun _ =>
    .bind (.of_observes (observes_checkRow _ _ _)) fun _ =>
    .bind (parallel_isBuffering hwho) fun _ => .ite
      (.bind (parallel_buffer hwho _ _ _ _ _ _) fun _ => .pure _)
      (.bind (.sparing (Table.sparesDefinitions_append _ _ _)) fun _ =>
        .bind (parallel_patchIndexes _ _ _ _) fun _ => .pure _)

theorem parallel_update (database table : String) (assigned : Keyed String String)
    (conditions : List Condition) :
    Parallel hidden (update who database table assigned conditions) :=
  .bind (.of_observes (observes_writableSchema _ _ _)) fun _ =>
    .bind (.of_observes (.mapM fun _ => observes_checkAssignment _ _ _ _)) fun _ =>
    .bind (parallel_isBuffering hwho) fun _ => .ite
      (.bind (.readDisk _) fun _ => .bind (.ofExcept _) fun (_, _) =>
        .bind (.forM fun _ _ => parallel_buffer hwho _ _ _ _ _ _) fun _ => .pure _)
      (.bind (.sparing (Table.sparesDefinitions_modify _ _ _)) fun _ => .ite
        (.bind (parallel_patchIndexes _ _ _ _) fun _ => .pure _) (.pure _))

theorem parallel_delete (database table : String) (conditions : List Condition) :
    Parallel hidden (delete who database table conditions) :=
  .bind (.of_observes (observes_writableSchema _ _ _)) fun _ =>
    .bind (parallel_isBuffering hwho) fun _ => .ite
      (.bind (.readDisk _) fun _ =>
        .bind (.forM fun _ _ => parallel_buffer hwho _ _ _ _ _ _) fun _ => .pure _)
      (.bind (.sparing (Table.sparesDefinitions_modify _ _ _)) fun _ => .ite
        (.bind (parallel_patchIndexes _ _ _ _) fun _ => .pure _) (.pure _))

end Visible

/-! ### Definitions -/

theorem parallel_remember (database table : String) (schema : TableSchema) :
    Parallel hidden (remember database table schema) := by
  refine .modify (fun _ _ _ => rfl) fun first second htwins => ⟨⟨htwins.view.settings,
    htwins.view.disk, ?_⟩, htwins.log, htwins.role, htwins.latestJobs, htwins.clock, htwins.transactions, htwins.filed,
    htwins.path⟩
  intro other name
  have hknown := htwins.view.schema other name
  unfold knownSchema at hknown ⊢
  dsimp only
  rw [Keyed.get?_insert, Keyed.get?_insert]
  by_cases hsame : ((other, name) == (database, table)) = true
  · rw [if_pos hsame, if_pos hsame]
  · rw [if_neg hsame, if_neg hsame]
    exact hknown

theorem parallel_createTable (database table definition : String) :
    Parallel hidden (createTable database table definition) := by
  refine .bind (.look _) fun _ => .ite (.throw _) (.bind (.ofExcept _) fun _ => .bind ?_ fun _ =>
    .bind (.sparing (Table.sparesDefinitions_init _ _)) fun _ => .pure _)
  rw [createSchema_eq]
  exact .bind (.onDisk (recalls_storeSchema _ _ _ _)) fun _ =>
    .bind (parallel_remember _ _ _) fun _ => .pure _

theorem parallel_createIndex (kind : IndexKind) (database table column : String) :
    Parallel hidden (createIndex kind database table column) :=
  .bind (.of_observes (observes_schema _ _)) fun _ => .bind (.ofExcept _) fun _ =>
    .bind (.sparing (Index.sparesDefinitions_build _ _ _ _ _)) fun _ => .pure _

theorem parallel_createView (database name query : String) :
    Parallel hidden (createView database name query) :=
  .bind (.look _) fun _ => .ite (.throw _)
    (.bind (.sparing (View.sparesDefinitions_save _ _ _)) fun _ => .pure _)

theorem parallel_createTrigger (database : String) {definition : TriggerDefinition}
    (hname : Name.isValid definition.name = true) (htable : Name.isValid definition.table = true) :
    Parallel hidden (createTrigger database definition) :=
  .bind (.of_observes (observes_schema _ _)) fun _ => .bind parallel_now fun _ =>
    .bind (.onDisk (Trigger.recalls_save _ _ hname htable)) fun _ => .pure _

theorem parallel_become (role : NodeRole) : Parallel hidden (become role) := by
  refine .bind (.modify (fun _ _ _ => rfl) fun first second htwins => ⟨⟨htwins.view.settings,
    htwins.view.disk, htwins.view.schema⟩, htwins.log, rfl, htwins.latestJobs, htwins.clock, htwins.transactions,
    htwins.filed, htwins.path⟩) fun _ => ?_
  cases role with
  | master => exact .pure _
  | replica host => exact .pure _

/-! ### All commands -/

section Visible

variable {who : Identity} (hwho : ¬hidden who.user) {executing : Executing}

include hwho

theorem parallel_effectIn (hselect : ∀ who query, Observes (executing who (.select query)))
    (database : String) (command : Command) (hnamed : command.isWellNamed = true) :
    Parallel hidden (effectIn executing who database command) := by
  cases command with
  | insert table row => exact parallel_insert hwho database table row
  | update table assigned conditions => exact parallel_update hwho database table assigned conditions
  | delete table conditions => exact parallel_delete hwho database table conditions
  | createTable table definition => exact .map _ (parallel_createTable database table definition)
  | select query => exact .map _ (.of_observes (observes_select hselect who database query))
  | transaction control =>
    cases control with
    | begin => exact .map _ (.bind (parallel_begin hwho) fun _ => .pure _)
    | commit => exact .map _ (parallel_executeCommit hwho)
    | rollback => exact .map _ (.bind (parallel_rollback hwho) fun (_, _) => .pure _)
  | createIndex kind table column => exact .map _ (parallel_createIndex kind database table column)
  | createView name query => exact .map _ (parallel_createView database name query)
  | createTrigger definition =>
    rw [Command.isWellNamed, Bool.and_eq_true] at hnamed
    exact .map _ (parallel_createTrigger database hnamed.1 hnamed.2)
  | search table column word =>
    exact .map _ (.of_observes (observes_search who database table column word))
  | showDatabases => exact .map _ (.bind (.look _) fun _ => .pure _)
  | become role => exact .map _ (parallel_become role)

theorem parallel_effect (hselect : ∀ who query, Observes (executing who (.select query)))
    (command : Command) (hnamed : command.isWellNamed = true) :
    Parallel hidden (effect executing who command) := by
  refine .bind (.read fun _ _ htwins => by rw [htwins.role]) fun _ => ?_
  have hin : Parallel hidden (do
      let database ← Action.ofExcept who.requireDatabase
      effectIn executing who database command) :=
    .bind (.ofExcept _) fun database => parallel_effectIn hwho hselect database command hnamed
  cases command with
  | showDatabases => exact .map _ (.bind (.look _) fun _ => .pure _)
  | become role => exact .map _ (parallel_become role)
  | _ => exact hin

omit hwho in
theorem parallel_fireTriggers (hnested : ∀ command : Command, command.isWellNamed = true →
      Parallel hidden (executing who command)) (budget : Nat) (firing : Firing) :
    Parallel hidden (fireTriggers executing budget who firing) := by
  refine .get (fun first second htwins => by rw [htwins.view.disk]) fun e =>
    .forM fun job hjob => parallel_dispatch job ?_
  obtain ⟨action, rfl⟩ := Trace.isTrigger_of_mem_triggerJobs hjob
  rw [Job.run]
  cases hparse : Statement.parse action with
  | error failure => exact .throw _
  | ok command =>
  have hcommand : Parallel hidden (executing who command >>= fun _ => pure ()) :=
    .bind (hnested command (Statement.isWellNamed_of_parse hparse)) fun _ => .pure _
  exact hcommand

theorem parallel_executeWithin (budget : Nat) (command : Command)
    (hnamed : command.isWellNamed = true) :
    Parallel hidden (executeWithin budget who command) := by
  induction budget generalizing command with
  | zero => exact .read fun _ _ htwins => by rw [htwins.view.settings]
  | succ budget ih =>
    refine .bind (parallel_effect hwho (observes_executeWithin budget) command hnamed) fun effect =>
      .bind ?_ fun _ => .pure _
    cases effect.firing with
    | none => exact .pure _
    | some firing => exact parallel_fireTriggers ih budget firing

end Visible

/-- The statement of a session is parallel if its user is not hidden. -/
theorem parallel_run {session : Session}
    (hsession : ∀ who, session.identity = .ok who → ¬hidden who.user) (text : String) :
    Parallel hidden (run session text) := by
  unfold run
  cases hparse : Statement.parse text with
  | error failure => exact .throw _
  | ok command =>
  unfold execute
  cases hidentity : session.identity with
  | error failure => exact .throw _
  | ok who =>
  have hcommand : Parallel hidden (executeAs who command) :=
    .get (fun first second htwins => by rw [htwins.view.settings]) fun _ =>
      parallel_executeWithin (hsession who hidentity) _ command (Statement.isWellNamed_of_parse hparse)
  exact hcommand

end Engine

end FlatFileDb
