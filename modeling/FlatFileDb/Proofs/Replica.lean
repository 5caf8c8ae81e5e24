import FlatFileDb.Proofs.Rollback

/-!
# Replicas

A replica refuses every command that can reach a write: what is left are queries, the beginning and
the end without effect of a transaction, and a new role of the node. None of them writes a file, and
no triggers are due on any of them. So as long as nobody makes the node the master, whatever anybody
asks for leaves the disk as it is, also what was begun before the node became a replica.
-/

namespace FlatFileDb

namespace Engine

variable {who : Identity} {command : Command} {e e' : Engine} {executing : Executing}

/-- A replica refuses whatever changes something, if nothing else is in the way. -/
theorem authorize_replica (hmutation : command.isMutation = true) {role : NodeRole}
    (hreplica : role ≠ .master) : ∃ failure, authorize who command role = .error failure := by
  have hrole : (role != .master) = true := by simpa using hreplica
  unfold authorize
  split
  · exact absurd hmutation (by simp [Command.isMutation])
  · exact absurd hmutation (by simp [Command.isMutation])
  rw [hmutation, hrole]
  cases who.requireDatabase with
  | error failure => exact ⟨failure, rfl⟩
  | ok database =>
  cases command.isDefinition with
  | false => exact ⟨.readOnlyReplica, rfl⟩
  | true =>
  cases who.requireRole .admin with
  | error failure => exact ⟨failure, rfl⟩
  | ok _ => exact ⟨.readOnlyReplica, rfl⟩

/-- A command that changes nothing stored leaves the disk alone, and the role of the node unless it
is about that. -/
theorem Own.of_not_isMutation {upkeep : Upkeep} (h : Own who command e e' upkeep)
    (hmutation : command.isMutation = false) :
    upkeep = .none ∧ e'.disk = e.disk ∧ (e'.role = e.role ∨ command = .become e'.role) := by
  cases h with
  | quiet hquiet => exact ⟨rfl, hquiet.disk, .inl hquiet.role⟩
  | become role => exact ⟨rfl, rfl, .inr rfl⟩
  | begin | rollback => exact ⟨rfl, rfl, .inl rfl⟩
  | _ => exact absurd hmutation (by simp [Command.isMutation])

/-- Triggers are due on changes of rows only. -/
theorem firing_of_not_isMutation (hmutation : command.isMutation = false) {done : Effect}
    (h : (effect executing who command e).1 = .ok done) : done.firing = none := by
  have houtcome {step : Action Engine Outcome} {e₁ : Engine}
      (h : ((Effect.ofOutcome <$> step) e₁).1 = .ok done) : done.firing = none := by
    rw [Action.map_apply] at h
    cases hstep : (step e₁).1 with
    | error failure =>
      rw [hstep] at h
      exact nomatch h
    | ok outcome =>
      rw [hstep] at h
      rw [← Except.ok.inj h]
      rfl
  unfold effect at h
  rw [Action.read_bind] at h
  cases hallowed : authorize who command e.role with
  | error failure =>
    rw [hallowed] at h
    exact nomatch h
  | ok _ =>
  rw [hallowed] at h
  have hin {step : String → Action Engine Outcome}
      (h : ((Action.ofExcept who.requireDatabase >>= fun database =>
        Effect.ofOutcome <$> step database) e).1 = .ok done) : done.firing = none := by
    rw [Action.ofExcept_bind] at h
    cases hdatabase : who.requireDatabase with
    | error failure =>
      rw [hdatabase] at h
      exact nomatch h
    | ok database =>
      rw [hdatabase] at h
      exact houtcome h
  cases command with
  | showDatabases | become => exact houtcome h
  | select query => exact hin h
  | search table column word => exact hin h
  | transaction control =>
    cases control with
    | begin | rollback => exact hin h
    | commit => exact absurd hmutation (by simp [Command.isMutation])
  | _ => exact absurd hmutation (by simp [Command.isMutation])

theorem effect_become {role : NodeRole} (h : authorize who (.become role) e.role = .ok ()) :
    (effect executing who (.become role) e).1.isOk = true := by
  unfold effect
  rw [Action.read_bind, h]
  cases role <;> rfl

/-- What a replica executes leaves the disk alone, and the node stays a replica unless it is made the
master on purpose. -/
theorem executeWithin_replica (budget : Nat) (who : Identity) (command : Command)
    (hreplica : e.role ≠ .master) :
    (executeWithin budget who command e).2.disk = e.disk ∧
      ((executeWithin budget who command e).2.role ≠ .master ∨
        command = .become .master ∧ (executeWithin budget who command e).1.isOk = true) := by
  cases budget with
  | zero => exact ⟨rfl, .inl hreplica⟩
  | succ budget =>
  rw [executeWithin, perform]
  cases hallowed : authorize who command e.role with
  | error failure =>
    rw [Action.bind_of_error (effect_of_refused hallowed)]
    exact ⟨rfl, .inl hreplica⟩
  | ok _ =>
  have hmutation : command.isMutation = false := by
    rw [← Bool.not_eq_true]
    intro hmutation
    obtain ⟨failure, hrefused⟩ : ∃ failure, authorize who command e.role = .error failure :=
      authorize_replica hmutation hreplica
    cases hallowed.symm.trans hrefused
  obtain ⟨e₁, upkeep, hown, hafter⟩ := effect_cases (observes_executeWithin budget) who command e
  obtain ⟨rfl, hdisk, hrole⟩ := hown.of_not_isMutation hmutation
  have hfiring := @firing_of_not_isMutation who command e (executeWithin budget) hmutation
  have hbecome {role : NodeRole} (hcommand : command = .become role) :
      (effect (executeWithin budget) who command e).1.isOk = true := by
    rw [hcommand] at hallowed ⊢
    exact effect_become hallowed
  cases heffect : effect (executeWithin budget) who command e with
  | mk result after =>
  rw [heffect] at hafter hfiring hbecome
  obtain rfl : after = e₁ := hafter
  cases result with
  | error failure =>
    rw [Action.bind_of_error heffect]
    refine ⟨hdisk, .inl ?_⟩
    rcases hrole with hrole | hcommand
    · rwa [hrole]
    · cases hbecome hcommand
  | ok done =>
    obtain ⟨outcome, firing⟩ := done
    obtain rfl : firing = none := hfiring rfl
    rw [Action.bind_of_ok heffect]
    refine ⟨hdisk, ?_⟩
    by_cases hmaster : after.role = .master
    · rcases hrole with hrole | hcommand
      · exact absurd (hrole.symm.trans hmaster) hreplica
      · exact .inr ⟨by rw [hcommand, hmaster], rfl⟩
    · exact .inl hmaster

end Engine

namespace Event

/-- Whether an event is a statement of a session. -/
def isStatement : Event → Bool
  | statement _ _ => true
  | _ => false

/-- Whether an event is a statement that makes the node the master. -/
def promotes (engine : Engine) (event : Event) : Bool :=
  event.command? == some (.become .master) && event.succeeds engine

theorem after_of_replica {e : Engine} {event : Event} (hstatement : event.isStatement = true)
    (hreplica : e.role ≠ .master) (hpromotes : event.promotes e = false) :
    (event.after e).disk = e.disk ∧ (event.after e).role ≠ .master := by
  cases event with
  | statement session text =>
    rw [after_statement]
    rcases Engine.run_cases session text e with
      ⟨failure, hrefused⟩ | ⟨who, command, -, hparse, hrun⟩
    · rw [hrefused]
      exact ⟨rfl, hreplica⟩
    obtain ⟨hdisk, hrole⟩ :=
      Engine.executeWithin_replica (e.settings.nestingLimit + 1) who command hreplica
    rw [← hrun] at hdisk hrole
    refine ⟨hdisk, hrole.resolve_right fun ⟨hcommand, hok⟩ => ?_⟩
    rw [promotes, succeeds_statement, hok, command?, hparse, hcommand] at hpromotes
    exact absurd hpromotes (by decide)
  | _ => exact absurd hstatement (by simp [isStatement])

end Event

namespace Run

/-- Whether one of some events, one after the other, makes the node the master. -/
def promoteDuring : List Event → Engine → Bool
  | [], _ => false
  | event :: rest, engine => event.promotes engine || promoteDuring rest (event.after engine)

theorem afterEvents_of_replica {e : Engine} (hreplica : e.role ≠ .master) {events : List Event}
    (hstatements : ∀ event ∈ events, event.isStatement = true)
    (hpromote : promoteDuring events e = false) :
    (afterEvents e events).disk = e.disk ∧ (afterEvents e events).role ≠ .master := by
  induction events generalizing e with
  | nil => exact ⟨rfl, hreplica⟩
  | cons event rest ih =>
    rw [promoteDuring, Bool.or_eq_false_iff] at hpromote
    obtain ⟨hdisk, hrole⟩ :=
      Event.after_of_replica (hstatements event (by simp)) hreplica hpromote.1
    obtain ⟨hrest, hlast⟩ :=
      ih hrole (fun other hother => hstatements other (by simp [hother])) hpromote.2
    exact ⟨hrest.trans hdisk, hlast⟩

/-- From a replica on, no statements change a file until one of them makes the node the master. -/
theorem disk_of_replica (run : Run) (hreplica : run.last.role ≠ .master) {events : List Event}
    (hstatements : ∀ event ∈ events, event.isStatement = true)
    (hpromote : promoteDuring events run.last = false) :
    (afterEvents run.last events).disk = run.last.disk :=
  (afterEvents_of_replica hreplica hstatements hpromote).1

/-- A transaction is filled before the node becomes a replica. -/
def filledBefore : Run :=
  .script "asep" "kantor"
    ["CREATE TABLE t id:INT", "INSERT t 1", "BEGIN", "INSERT t 2", "BECOME REPLICA OF pusat"]

/-- What is asked of the replica: the commit, a row of another user, a query, and another user, who
may not, asks for the node to be the master. -/
def askedAfter : List Event :=
  [.statement (some author) "COMMIT",
    .statement (some ⟨"budi", .user, some "kantor"⟩) "INSERT t 3",
    .statement (some ⟨"budi", .user, some "kantor"⟩) "SELECT * FROM t",
    .statement (some ⟨"budi", .user, some "kantor"⟩) "BECOME MASTER"]

theorem disk_of_replica_filledBefore :
    filledBefore.last.pending "asep" = 1 ∧
      (afterEvents filledBefore.last askedAfter).disk = filledBefore.last.disk := by
  have hrun : filledBefore.last.pending "asep" = 1 ∧ filledBefore.last.role ≠ .master ∧
      (∀ event ∈ askedAfter, event.isStatement = true) ∧
      promoteDuring askedAfter filledBefore.last = false := by
    decide +kernel
  obtain ⟨hpending, hreplica, hstatements, hpromote⟩ := hrun
  exact ⟨hpending, filledBefore.disk_of_replica hreplica hstatements hpromote⟩

end Run

end FlatFileDb
