import FlatFileDb.Proofs.Single

/-!
# Commands that fail

Everything is checked before anything is changed, and what is left to do after the first change
cannot fail: patching indexes and running triggers report to nobody. So a command that fails has
changed nothing, unless the file system fails between two of its writes, or a commit finds that a
change of the transaction cannot be made and stops there.
-/

namespace FlatFileDb

/-- Whether something may have happened before a failure. -/
def Error.leavesTraces : Error → Bool
  | .fileFailure | .partlyApplied .. => true
  | _ => false

namespace Engine

variable {α β : Type} {who : Identity} {e e₁ : Engine}

/-- Where a step fails, nothing was done since the given engine but reading. -/
def FailsQuietly (e : Engine) (step : Action Engine α) (e₁ : Engine) : Prop :=
  ∀ failure e₂, step e₁ = (.error failure, e₂) → failure.leavesTraces = false → Quiet e e₂

namespace FailsQuietly

theorem of_ok {step : Action Engine α} (h : ∃ a, (step e₁).1 = .ok a) : FailsQuietly e step e₁ := by
  intro failure e₂ hfails
  obtain ⟨a, ha⟩ := h
  rw [hfails] at ha
  exact nomatch ha

theorem of_within {step : Action Engine α} (h : Action.Within Quiet step) (hbefore : Quiet e e₁) :
    FailsQuietly e step e₁ :=
  fun _ _ hfails _ => IsTrans.trans _ _ _ hbefore (h.after hfails)

/-- Reading comes first; what is checked then is checked from where nothing was changed. -/
theorem bind {step : Action Engine α} {next : α → Action Engine β} (h : Action.Within Quiet step)
    (hbefore : Quiet e e₁) (hnext : ∀ a e₂, Quiet e e₂ → FailsQuietly e (next a) e₂) :
    FailsQuietly e (step >>= next) e₁ := by
  intro failure e₂ hfails htraces
  rcases Action.bind_cases hfails with ⟨other, hstep, -⟩ | ⟨a, e₃, hstep, hrest⟩
  · exact IsTrans.trans _ _ _ hbefore (h.after hstep)
  · exact hnext a e₃ (IsTrans.trans _ _ _ hbefore (h.after hstep)) failure e₂ hrest htraces

/-- A change that can fail comes last. -/
theorem andThen {step : Action Engine α} {next : α → Action Engine β} (h : FailsQuietly e step e₁)
    (hnext : ∀ a e₂, ∃ b, (next a e₂).1 = .ok b) : FailsQuietly e (step >>= next) e₁ := by
  intro failure e₂ hfails htraces
  rcases Action.bind_cases hfails with ⟨other, hstep, hsame⟩ | ⟨a, e₃, hstep, hrest⟩
  · rw [Except.error.inj hsame] at htraces
    exact h other e₂ hstep htraces
  · obtain ⟨b, hb⟩ := hnext a e₃
    rw [hrest] at hb
    exact nomatch hb

theorem map {step : Action Engine α} (f : α → β) (h : FailsQuietly e step e₁) :
    FailsQuietly e (f <$> step) e₁ :=
  h.andThen fun a _ => ⟨f a, rfl⟩

theorem onDisk {step : Action Disk α} (hbefore : Quiet e e₁)
    (h : ∀ failure disk, step e₁.disk = (.error failure, disk) → failure.leavesTraces = false →
      disk = e₁.disk) : FailsQuietly e (Engine.onDisk step) e₁ := by
  intro failure e₂ hfails htraces
  rw [Engine.onDisk, Action.onPart_apply, Prod.mk.injEq] at hfails
  obtain ⟨hfailure, rfl⟩ := hfails
  exact IsTrans.trans _ _ _ hbefore (quiet_of_disk_eq (h failure _ (Prod.ext hfailure rfl) htraces))

/-- In a transaction the changes are buffered, outside of one they are made. -/
theorem buffering {later now : Action Engine β}
    (hlater : ∀ transaction, e₁.transactions.get? who.user = some transaction →
      FailsQuietly e later e₁)
    (hnow : FailsQuietly e now e₁) :
    FailsQuietly e (isBuffering who >>= fun buffering => if buffering then later else now) e₁ := by
  intro failure e₂ hfails htraces
  rw [isBuffering_bind] at hfails
  split at hfails
  · rename_i hbuffering
    rw [inTransaction, Keyed.contains, Option.isSome_iff_exists] at hbuffering
    obtain ⟨transaction, hactive⟩ := hbuffering
    exact hlater transaction hactive failure e₂ hfails htraces
  · exact hnow failure e₂ hfails htraces

end FailsQuietly

/-! ### Changes of rows -/

theorem forM_buffer_ok {user : String} {transaction : Transaction}
    (h : e.transactions.get? user = some transaction) (operation : Operation)
    (database table : String) (list : List α) (rowId row : α → String)
    (before : α → Option String) :
    ∃ e', (list.forM fun a => buffer user operation database table (rowId a) (row a) (before a)) e
      = (.ok (), e') :=
  ⟨_, forM_buffer
    (fun id time a => pendingEntry ⟨id, []⟩ user time operation database table (rowId a) (row a)
      (before a))
    _ (fun _ _ _ h => buffer_apply h ..) list e h⟩

theorem failsQuietly_insert (database table row : String) (e : Engine) :
    FailsQuietly e (insert who database table row) e := by
  refine .bind (observes_writableSchema who database table).quiet (refl e) fun schema e₁ hquiet => ?_
  refine .bind (observes_checkRow schema database row).quiet hquiet fun _ e₂ hquiet => ?_
  refine .buffering (fun transaction hactive => .of_ok ?_) ?_
  · rw [Action.bind_of_ok (buffer_apply hactive ..)]
    exact ⟨_, rfl⟩
  · refine .andThen (.onDisk hquiet fun failure disk hwrite _ => appendFile_error hwrite) fun _ e₃ => ?_
    rw [Action.bind_of_ok (patchIndexes_ok schema [] [row] e₃)]
    exact ⟨_, rfl⟩

theorem modify_error {database table : String}
    {f : List String → Except Error (List String × α)} {disk disk' : Disk} {failure : Error}
    (h : Table.modify database table f disk = (.error failure, disk')) : disk' = disk := by
  rcases modify_cases h with ⟨-, hdisk⟩ | ⟨rows, after, a, -, -, hresult, -⟩
  · exact hdisk
  · exact nomatch hresult

theorem failsQuietly_update (database table : String) (assigned : Keyed String String)
    (conditions : List Condition) (e : Engine) :
    FailsQuietly e (update who database table assigned conditions) e := by
  refine .bind (observes_writableSchema who database table).quiet (refl e) fun schema e₁ hquiet => ?_
  refine .bind (Observes.mapM fun pair => observes_checkAssignment schema database table pair).quiet
    hquiet fun assignments e₂ hquiet => ?_
  refine .buffering (fun transaction hactive => ?_) ?_
  · refine .bind (Observes.readDisk _).quiet hquiet fun rows e₃ hquiet₃ => ?_
    refine .bind (Observes.ofExcept _).quiet hquiet₃ fun (after, changed) e₄ hquiet₄ => .of_ok ?_
    obtain ⟨e', hbuffered⟩ := forM_buffer_ok (e := e₄)
      (by rw [hquiet₄.transactions, ← hquiet.transactions]; exact hactive) .update database table
      changed (fun pair => Row.id pair.1) Prod.snd fun pair => some pair.1
    exact ⟨_, congrArg Prod.fst (Action.bind_of_ok hbuffered)⟩
  · refine .andThen (.onDisk hquiet fun failure disk hmodify _ => modify_error hmodify)
      fun changed e₃ => ?_
    cases changed with
    | nil => exact ⟨_, rfl⟩
    | cons first rest =>
      exact ⟨_, congrArg Prod.fst (Action.bind_of_ok (patchIndexes_ok schema _ _ e₃))⟩

theorem failsQuietly_delete (database table : String) (conditions : List Condition) (e : Engine) :
    FailsQuietly e (delete who database table conditions) e := by
  refine .bind (observes_writableSchema who database table).quiet (refl e) fun schema e₁ hquiet => ?_
  refine .buffering (fun transaction hactive => ?_) ?_
  · refine .bind (Observes.readDisk _).quiet hquiet fun rows e₂ hquiet₂ => .of_ok ?_
    obtain ⟨e', hbuffered⟩ := forM_buffer_ok (e := e₂)
      (by rw [hquiet₂.transactions, ← hquiet.transactions]; exact hactive) .delete database table
      (schema.delete conditions rows).2 Row.id (fun _ => "") some
    exact ⟨_, congrArg Prod.fst (Action.bind_of_ok hbuffered)⟩
  · refine .andThen (.onDisk hquiet fun failure disk hmodify _ => modify_error hmodify)
      fun removed e₂ => ?_
    cases removed with
    | nil => exact ⟨_, rfl⟩
    | cons first rest =>
      exact ⟨_, congrArg Prod.fst (Action.bind_of_ok (patchIndexes_ok schema _ _ e₂))⟩

/-! ### Transactions -/

theorem failsQuietly_begin (e : Engine) : FailsQuietly e (executeBegin who) e := by
  refine .andThen (fun failure e₂ hfails _ => ?_) fun _ _ => ⟨_, rfl⟩
  rw [begin, Action.get_bind] at hfails
  split at hfails
  · obtain rfl : e = e₂ := congrArg Prod.snd hfails
    exact refl e
  · cases congrArg Prod.fst hfails

theorem failsQuietly_rollback (e : Engine) : FailsQuietly e (executeRollback who) e := by
  refine .andThen ?_ fun _ _ => ⟨_, rfl⟩
  exact .bind (.read _) (refl e) fun _ _ _ => .of_ok ⟨_, rfl⟩

/-- A commit fails before anything was done, or it leaves traces. -/
theorem failsQuietly_commit (e : Engine) : FailsQuietly e (executeCommit who) e := by
  intro failure e₂ hfails htraces
  have hcommits := commit_cases who.user e
  cases hcommit : commit who.user e with
  | mk result e₁ =>
  rw [hcommit] at hcommits
  cases result with
  | ok committed =>
    obtain ⟨id, done⟩ := committed
    have hok : ∃ outcome, (executeCommit who e).1 = .ok outcome := by
      unfold executeCommit
      rw [Action.tryCatch_of_ok]
      · exact ⟨_, rfl⟩
      · rw [Action.bind_of_ok hcommit]
        exact Action.bind_of_ok (patchCommitted_ok done e₁)
    exact FailsQuietly.of_ok hok failure e₂ hfails htraces
  | error other =>
    have hthrown {next : String × List Log.Entry → Action Engine Outcome} :
        (commit who.user >>= next) e = (.error other, e₁) := Action.bind_of_error hcommit
    unfold executeCommit at hfails
    rw [Action.tryCatch_of_error hthrown] at hfails
    generalize hresult : (Except.error other, e₁) = result at hcommits
    cases hcommits with
    | noTransaction hfree =>
      obtain ⟨hother, rfl⟩ := Prod.mk.inj hresult
      obtain rfl := Except.error.inj hother
      obtain rfl : e₁ = e₂ := congrArg Prod.snd hfails
      exact refl e₁
    | nothing => exact nomatch congrArg Prod.fst hresult
    | logFailure hactive hchanges hlog =>
      obtain rfl := Except.error.inj (congrArg Prod.fst hresult)
      obtain rfl := Except.error.inj (congrArg Prod.fst hfails)
      exact nomatch htraces
    | @applied transaction logged disk done cause hactive hchanges hlog happly =>
      cases cause with
      | none => exact nomatch congrArg Prod.fst hresult
      | some cause =>
        obtain rfl := Except.error.inj (congrArg Prod.fst hresult)
        dsimp only at hfails
        rw [Action.bind_of_ok (patchCommitted_ok done e₁)] at hfails
        obtain rfl := Except.error.inj (congrArg Prod.fst hfails)
        exact nomatch htraces

/-! ### Definitions -/

/-- Where the file is written after reading only, a failure is one before writing, or of the file
system. -/
theorem writeFile_traces {path : Path} {text : String} {disk disk' : Disk} {failure : Error}
    (h : Disk.writeFile path text disk = (.error failure, disk')) :
    failure.leavesTraces = true := by
  rw [writeFile_failure h]
  rfl

theorem failsQuietly_createIndex (kind : IndexKind) (database table column : String) (e : Engine) :
    FailsQuietly e (createIndex kind database table column) e := by
  refine .bind (observes_schema database table).quiet (refl e) fun schema e₁ hquiet => ?_
  refine .bind (Observes.ofExcept _).quiet hquiet fun position e₂ hquiet => ?_
  refine .andThen (.onDisk hquiet fun failure disk hbuild htraces => ?_) fun _ _ => ⟨_, rfl⟩
  rcases Action.bind_cases hbuild with ⟨other, hrows, -⟩ | ⟨rows, disk₁, hrows, hbuild⟩
  · exact (congrArg Prod.snd hrows).symm
  rcases Action.bind_cases hbuild with ⟨other, hwrite, hsame⟩ | ⟨⟨⟩, disk₂, -, hdone⟩
  · rw [Except.error.inj hsame, writeFile_traces hwrite] at htraces
    exact nomatch htraces
  · exact nomatch congrArg Prod.fst hdone

theorem failsQuietly_createView (database name query : String) (e : Engine) :
    FailsQuietly e (createView database name query) e := by
  refine .bind (Observes.look _).quiet (refl e) fun there e₁ hquiet => ?_
  cases there with
  | true => exact .of_within (.throw _) hquiet
  | false =>
  refine .andThen (.onDisk hquiet fun failure disk hsave htraces => ?_) fun _ _ => ⟨_, rfl⟩
  rcases Action.bind_cases hsave with ⟨other, hrequire, -⟩ | ⟨⟨⟩, disk₁, -, hwrite⟩
  · exact (congrArg Prod.snd hrequire).symm
  · rw [writeFile_traces hwrite] at htraces
    exact nomatch htraces

theorem failsQuietly_createTrigger (database : String) (definition : TriggerDefinition)
    (e : Engine) : FailsQuietly e (createTrigger database definition) e := by
  refine .bind (observes_schema database definition.table).quiet (refl e) fun schema e₁ hquiet => ?_
  refine .bind (.read _) hquiet fun created e₂ hquiet => ?_
  refine .andThen (.onDisk hquiet fun failure disk hsave htraces => ?_) fun _ _ => ⟨_, rfl⟩
  rcases Action.bind_cases hsave with ⟨other, hrequire, -⟩ | ⟨⟨⟩, disk₁, -, hsave⟩
  · exact (congrArg Prod.snd hrequire).symm
  rcases Action.bind_cases hsave with ⟨other, hmake, hsame⟩ | ⟨⟨⟩, disk₂, -, hwrite⟩
  · rw [Except.error.inj hsame, Disk.makeDirectories_failure hmake] at htraces
    exact nomatch htraces
  · rw [writeFile_traces hwrite] at htraces
    exact nomatch htraces

/-- Once its schema is stored, a table fails to be made only where the file system fails. -/
theorem failsQuietly_createTable (database table definition : String) (e : Engine) :
    FailsQuietly e (createTable database table definition) e := by
  refine .bind (Observes.look _).quiet (refl e) fun there e₁ hquiet => ?_
  cases there with
  | true => exact .of_within (.throw _) hquiet
  | false =>
  refine .bind (.ofExcept _) hquiet fun columns e₂ hquiet => ?_
  intro failure e₃ hfails htraces
  rcases createSchema_cases database table columns Permissions.standard e₂ with
    ⟨other, e₄, hrun, hafter⟩ | ⟨made, written, -, hdatabase, -, hmake, hwrite, hrun⟩
  · have hthrown := hfails.symm.trans (Action.bind_of_error hrun)
    obtain ⟨hsame, rfl⟩ := Prod.mk.inj hthrown
    rcases hafter with rfl | ⟨hfailure, -⟩
    · exact hquiet
    · rw [Except.error.inj hsame, hfailure] at htraces
      exact nomatch htraces
  · rw [Action.bind_of_ok hrun] at hfails
    rcases Action.bind_cases hfails with ⟨other, hinit, hsame⟩ | ⟨⟨⟩, e₄, -, hdone⟩
    · have hmade : Disk.Grows (fun _ => True) (fun _ => True) e₂.disk made :=
        (Disk.within_makeDirectories fun _ _ _ _ _ => trivial).after hmake
      have hwritten : Disk.Grows (fun _ => True) (fun _ => True) made written :=
        (Disk.within_writeFile _ fun _ _ => trivial).after hwrite
      obtain ⟨home, hhome⟩ := Database.liesAt_of_require hdatabase
      have hthere := ((hhome.grows hmade).grows hwritten).require
      have hfailure : (Table.init database table written).1 = .error other :=
        congrArg Prod.fst hinit
      unfold Table.init at hfailure
      rw [Action.read_bind, hthere] at hfailure
      rw [Except.error.inj hsame, writeFile_traces (Prod.ext hfailure rfl)] at htraces
      exact nomatch htraces
    · exact nomatch congrArg Prod.fst hdone

/-! ### All commands -/

theorem failsQuietly_effect {executing : Executing}
    (hselect : ∀ who query, Observes (executing who (.select query))) (who : Identity)
    (command : Command) (e : Engine) : FailsQuietly e (effect executing who command) e := by
  unfold effect
  rw [FailsQuietly, Action.read_bind]
  cases authorize who command e.role with
  | error failure => exact FailsQuietly.of_within (.ofExcept (.error failure)) (refl e)
  | ok _ =>
  have inDatabase {step : String → Action Engine Effect}
      (h : ∀ database, FailsQuietly e (step database) e) :
      FailsQuietly e (Action.ofExcept who.requireDatabase >>= step) e := by
    rw [FailsQuietly, Action.ofExcept_bind]
    cases who.requireDatabase with
    | error failure => exact FailsQuietly.of_within (.ofExcept (.error failure)) (refl e)
    | ok database => exact h database
  cases command with
  | insert table row => exact inDatabase fun _ => failsQuietly_insert _ table row e
  | update table assigned conditions =>
    exact inDatabase fun _ => failsQuietly_update _ table assigned conditions e
  | delete table conditions => exact inDatabase fun _ => failsQuietly_delete _ table conditions e
  | createTable table definition =>
    exact inDatabase fun _ => .map _ (failsQuietly_createTable _ table definition e)
  | select query =>
    exact inDatabase fun database =>
      .map _ (.of_within (observes_select hselect who database query).quiet (refl e))
  | transaction control =>
    cases control with
    | begin => exact inDatabase fun _ => .map _ (failsQuietly_begin e)
    | commit => exact inDatabase fun _ => .map _ (failsQuietly_commit e)
    | rollback => exact inDatabase fun _ => .map _ (failsQuietly_rollback e)
  | createIndex kind table column =>
    exact inDatabase fun _ => .map _ (failsQuietly_createIndex kind _ table column e)
  | createView name query => exact inDatabase fun _ => .map _ (failsQuietly_createView _ name query e)
  | createTrigger definition =>
    exact inDatabase fun _ => .map _ (failsQuietly_createTrigger _ definition e)
  | search table column word =>
    exact inDatabase fun database =>
      .map _ (.of_within (observes_search who database table column word).quiet (refl e))
  | showDatabases => exact FailsQuietly.map _ (.of_ok ⟨_, rfl⟩)
  | become role => exact FailsQuietly.map _ (.of_ok (by cases role <;> exact ⟨_, rfl⟩))

/-- Triggers run, or wait, without a failure of their own. -/
theorem fireTriggers_ok (executing : Executing) (budget : Nat) (who : Identity) (firing : Firing)
    (e : Engine) : (fireTriggers executing budget who firing e).1 = .ok () :=
  Trace.forM_ok (fun job e => by rw [dispatch_ok]) _ e

theorem failsQuietly_executeWithin (budget : Nat) (who : Identity) (command : Command) (e : Engine) :
    FailsQuietly e (executeWithin budget who command) e := by
  cases budget with
  | zero => exact .of_within (.read _) (refl e)
  | succ budget =>
    refine (failsQuietly_effect (observes_executeWithin budget) who command e).andThen
      fun done e₁ => ?_
    cases done.firing with
    | none => exact ⟨_, rfl⟩
    | some firing =>
      exact ⟨_, congrArg Prod.fst (Action.bind_of_ok (Prod.ext (fireTriggers_ok _ _ _ _ e₁) rfl))⟩

/-- A command that fails leaves every file and every transaction as it was, unless the file system
fails or a commit is cut short. -/
theorem unchanged_of_error {command : Command} {after : Engine} {failure : Error}
    (h : executeAs who command e = (.error failure, after))
    (hcommit : ∀ id cause done, failure ≠ .partlyApplied id cause done)
    (hfile : failure ≠ .fileFailure) :
    after.disk = e.disk ∧ after.transactions = e.transactions := by
  have htraces : failure.leavesTraces = false := by
    cases failure with
    | fileFailure => exact absurd rfl hfile
    | partlyApplied id cause done => exact absurd rfl (hcommit id cause done)
    | _ => rfl
  have hquiet := failsQuietly_executeWithin (e.settings.nestingLimit + 1) who command e failure after
    h htraces
  exact ⟨hquiet.disk, hquiet.transactions⟩

end Engine

namespace Run

/-- A row waits in a transaction. -/
def oneWaiting : Run :=
  .script "asep" "kantor"
    ["CREATE TABLE t id:INT:PK, umur:INT", "INSERT t 1|20", "BEGIN", "INSERT t 2|30"]

/-- An update to a text that is no number. -/
def badUpdate : Command :=
  .update "t" (Keyed.empty.insert "umur" "tua") []

theorem unchanged_of_error_oneWaiting :
    oneWaiting.last.pending "asep" = 1 ∧
      (Engine.executeAs author badUpdate oneWaiting.last).1
        = .error (.typeMismatch "umur" "INT" "tua") ∧
      (Engine.executeAs author badUpdate oneWaiting.last).2.disk = oneWaiting.last.disk ∧
      (Engine.executeAs author badUpdate oneWaiting.last).2.transactions
        = oneWaiting.last.transactions := by
  have hrun : oneWaiting.last.pending "asep" = 1 ∧
      (Engine.executeAs author badUpdate oneWaiting.last).1
        = .error (.typeMismatch "umur" "INT" "tua") := by
    decide +kernel
  obtain ⟨hpending, hfails⟩ := hrun
  generalize oneWaiting.last = e at *
  exact ⟨hpending, hfails, Engine.unchanged_of_error (Prod.ext hfails rfl) (by simp) (by simp)⟩

end Run

end FlatFileDb
