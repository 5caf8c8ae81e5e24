import FlatFileDb.Proofs.Application

/-!
# What waits in transactions

Every entry that waits was put there by an execution of its user, from what that execution found:
`Buffers` says which entry for which command. So what a commit applies can be traced back to the
statement that asked for it.
-/

namespace FlatFileDb

namespace Engine

/-- What a command puts into the transaction of its user. -/
inductive Buffers (who : Identity) : Command → Engine → Log.Entry → Prop where
  | insert {e : Engine} {database table row : String} {schema : TableSchema}
    {transaction : Transaction} (hdatabase : who.requireDatabase = .ok database)
    (hactive : e.transactions.get? who.user = some transaction)
    (hschema : e.knownSchema database table = .ok schema)
    (hrow : (schema.checkRow (storedValues database) row e).1 = .ok ()) :
    Buffers who (.insert table row) e
      (pendingEntry transaction who.user (e.clock / 1000000) .insert database table (Row.id row) row
        none)
  | update {e : Engine} {database table : String} {assigned : Keyed String String}
    {conditions : List Condition} {schema : TableSchema} {assignments : List Assignment}
    {rows : List String} {transaction : Transaction} {found : String}
    (hdatabase : who.requireDatabase = .ok database)
    (hactive : e.transactions.get? who.user = some transaction)
    (hschema : e.knownSchema database table = .ok schema)
    (hassigned : PassesAs schema assigned.entries assignments)
    (hrows : Table.rows e.disk database table = .ok rows) (hfound : found ∈ rows)
    (hmatches : schema.matchesRow conditions found = true) :
    Buffers who (.update table assigned conditions) e
      (pendingEntry transaction who.user (e.clock / 1000000) .update database table (Row.id found)
        (schema.assign assignments found) (some found))
  | delete {e : Engine} {database table : String} {conditions : List Condition}
    {schema : TableSchema} {rows : List String} {transaction : Transaction} {found : String}
    (hdatabase : who.requireDatabase = .ok database)
    (hactive : e.transactions.get? who.user = some transaction)
    (hschema : e.knownSchema database table = .ok schema)
    (hrows : Table.rows e.disk database table = .ok rows) (hfound : found ∈ rows)
    (hmatches : schema.matchesRow conditions found = true) :
    Buffers who (.delete table conditions) e
      (pendingEntry transaction who.user (e.clock / 1000000) .delete database table (Row.id found) ""
        (some found))

variable {who : Identity} {command : Command} {e e' : Engine}

theorem get?_waiting {user other : String} {transaction found : Transaction}
    {entries : List Log.Entry}
    (h : (e.waiting user transaction entries).transactions.get? other = some found) :
    (other = user ∧ found.latest = entries.reverse ++ transaction.latest) ∨
      e.transactions.get? other = some found := by
  rw [waiting, Keyed.get?_insert] at h
  split at h
  · rename_i hsame
    refine .inl ⟨eq_of_beq hsame, ?_⟩
    rw [← Option.some.inj h]
  · exact .inr h

/-- What waits after a command waited before, or the command put it there. -/
theorem Own.waiting {upkeep : Upkeep} (h : Own who command e e' upkeep) {user : String}
    {transaction : Transaction} (hactive : e'.transactions.get? user = some transaction)
    {entry : Log.Entry} (hentry : entry ∈ transaction.latest) :
    (∃ before, e.transactions.get? user = some before ∧ entry ∈ before.latest) ∨
      user = who.user ∧ Buffers who command e entry := by
  have hkept {e₁ : Engine} (hquiet : Quiet e e₁)
      (hactive : e₁.transactions.get? user = some transaction) :
      ∃ before, e.transactions.get? user = some before ∧ entry ∈ before.latest :=
    ⟨transaction, by rw [← hquiet.transactions, hactive], hentry⟩
  have herased {other : String}
      (hactive : (e.transactions.erase other).get? user = some transaction) :
      ∃ before, e.transactions.get? user = some before ∧ entry ∈ before.latest := by
    rw [Keyed.get?_erase] at hactive
    split at hactive
    · exact absurd hactive (by simp)
    · exact ⟨transaction, hactive, hentry⟩
  have hmore {e₁ : Engine} {before : Transaction} {entries : List Log.Entry} (hquiet : Quiet e e₁)
      (hbefore : e.transactions.get? who.user = some before)
      (hactive : (e₁.waiting who.user before entries).transactions.get? user = some transaction)
      (hentries : ∀ entry ∈ entries, Buffers who command e entry) :
      (∃ before, e.transactions.get? user = some before ∧ entry ∈ before.latest) ∨
        user = who.user ∧ Buffers who command e entry := by
    rcases get?_waiting hactive with ⟨rfl, hlatest⟩ | hother
    · rw [hlatest, List.mem_append, List.mem_reverse] at hentry
      rcases hentry with hentry | hentry
      · exact .inr ⟨rfl, hentries entry hentry⟩
      · exact .inl ⟨before, hbefore, hentry⟩
    · exact .inl (hkept hquiet hother)
  cases h with
  | quiet hquiet => exact .inl (hkept hquiet hactive)
  | become role => exact .inl (hkept (refl e) hactive)
  | begin id hfree =>
    rw [Keyed.get?_insert] at hactive
    split at hactive
    · rw [← Option.some.inj hactive] at hentry
      exact absurd hentry (by simp)
    · exact .inl ⟨transaction, hactive, hentry⟩
  | rollback => exact .inl (herased hactive)
  | commitNothing => exact .inl (herased hactive)
  | commit hrole hactive' hchanges hlog happly => exact .inl (herased hactive)
  | insert hdatabase hquiet => exact .inl (hkept hquiet hactive)
  | insertLater hdatabase hquiet hbefore hschema hrow =>
    refine hmore hquiet hbefore hactive fun entry hentry => ?_
    rw [List.mem_singleton.1 hentry]
    exact .insert hdatabase hbefore hschema hrow
  | update hdatabase hquiet => exact .inl (hkept hquiet hactive)
  | updateLater hdatabase hquiet hbefore hschema hassigned hrows hchange =>
    refine hmore hquiet hbefore hactive fun entry hentry => ?_
    obtain ⟨pair, hpair, rfl⟩ := List.mem_map.1 hentry
    obtain ⟨-, rfl, -⟩ := TableSchema.update_eq_ok hchange
    obtain ⟨found, hfound, rfl⟩ := List.mem_map.1 hpair
    rw [List.mem_filter] at hfound
    exact .update hdatabase hbefore hschema hassigned hrows hfound.1 hfound.2
  | delete hdatabase hquiet => exact .inl (hkept hquiet hactive)
  | deleteLater hdatabase hquiet hbefore hschema hrows =>
    refine hmore hquiet hbefore hactive fun entry hentry => ?_
    obtain ⟨found, hfound, rfl⟩ := List.mem_map.1 hentry
    rw [TableSchema.delete_eq, List.mem_filter] at hfound
    exact .delete hdatabase hbefore hschema hrows hfound.1 hfound.2
  | createNothing hdatabase => exact .inl (hkept (refl e) hactive)
  | createTable => exact .inl (hkept (refl e) hactive)
  | createIndex hdatabase hquiet => exact .inl (hkept hquiet hactive)
  | createView hdatabase => exact .inl (hkept (refl e) hactive)
  | createTrigger created hdatabase hquiet => exact .inl (hkept hquiet hactive)

theorem transactions_of_upkeep (upkeep : Upkeep) (e : Engine) :
    (upkeep.step e).2.transactions = e.transactions := by
  rcases upkeep_cases upkeep e with h | ⟨-, jobs, h⟩
  · exact h.transactions
  · rw [h]

/-- What waits was put there by an execution of its user, if nothing waited for the user at first. -/
theorem Trace.waiting {first : Engine} {executions : List Execution} {user : String}
    (h : Trace first executions e)
    (hfirst : ∀ before, first.transactions.get? user = some before → before.latest = [])
    {transaction : Transaction} (hactive : e.transactions.get? user = some transaction)
    {entry : Log.Entry} (hentry : entry ∈ transaction.latest) :
    ∃ y ∈ executions, y.who.user = user ∧ Buffers y.who y.command y.before entry := by
  induction h generalizing transaction with
  | start =>
    rw [hfirst transaction hactive] at hentry
    exact absurd hentry (by simp)
  | @command executions e e₁ who command upkeep h hnamed hown hafter ih =>
    rw [transactions_of_upkeep] at hactive
    rcases hown.waiting hactive hentry with ⟨before, hbefore, hmem⟩ | ⟨rfl, hbuffers⟩
    · obtain ⟨y, hy, hwaits⟩ := ih hbefore hmem
      exact ⟨y, List.mem_append_left _ hy, hwaits⟩
    · exact ⟨⟨who, command, e⟩, by simp, rfl, hbuffers⟩
  | createDatabase h name ih => exact ih hactive hentry
  | reopen h hopened ih =>
    obtain ⟨log, after, -, rfl⟩ := openOn_eq_ok hopened
    exact absurd hactive (by simp)
  | pass h nanoseconds ih => exact ih hactive hentry
  | maintain h hbackground hmaintains ih =>
    rw [hmaintains.transactions] at hactive
    exact ih hactive hentry
  | queue h hbackground jobs ih => exact ih hactive hentry

/-- What an execution applies was asked for by an earlier one of the same user; the disk that it finds
is that before the commit, but for what was applied since. -/
theorem Trace.application {first : Engine} {earlier : List Execution} {x : Execution}
    (h : Trace first earlier x.before) (hsound : first.IsSound)
    (hfirst : first.transactions = .empty) {a : Application} (ha : a ∈ x.applications) :
    (∃ y ∈ earlier, y.who.user = x.who.user ∧ ∃ entry number,
        Buffers y.who y.command y.before entry ∧ a.entry = { entry with number }) ∧
      a.disk.IsCatalogued ∧ a.entry.IsSound ∧
      ∃ after, a.entry.perform a.disk = (.ok (), after) := by
  have hbefore := h.isSound hsound
  obtain ⟨transaction, logged, -, hactive, hlog, hmem⟩ := Execution.committing ha
  have hentries : ∀ entry ∈ Log.numbered x.before.log.next transaction.changes, entry.IsSound :=
    isSound_numbered (fun entry hentry =>
      (hbefore.waiting _ transaction hactive entry (List.mem_reverse.1 hentry)).1) _
  have hlogged : Disk.Keeps (x.before.settings.isApart = true) x.before.disk logged :=
    (hbefore.spares_write hlog).keeps
  obtain ⟨hnumbered, hkeeps, hmade⟩ := Log.Entry.mem_applications hmem
    fun entry hentry => @Log.Entry.keeps_perform (x.before.settings.isApart = true) entry
      (hentries entry hentry)
  obtain ⟨entry, hentry, number, hnumber⟩ := Log.mem_numbered hnumbered
  obtain ⟨y, hy, huser, hbuffers⟩ :=
    h.waiting (fun before hbefore => absurd hbefore (by simp [hfirst])) hactive
      (List.mem_reverse.1 hentry)
  exact ⟨⟨y, hy, huser, entry, number, hbuffers, hnumber⟩,
    hkeeps.isCatalogued (hlogged.isCatalogued hbefore.disk), hentries _ hnumbered, hmade⟩

end Engine

theorem Run.transactions_first (run : Run) : run.first.transactions = .empty := by
  obtain ⟨log, after, -, hfirst⟩ := Engine.openOn_eq_ok run.opened
  rw [hfirst]

/-- What is applied was asked for by an earlier execution of the same user; the disk that it finds is
that before the commit, but for what was applied since. -/
theorem Run.application (run : Run) {x : Execution} (hx : x ∈ run.executions) {a : Application}
    (ha : a ∈ x.applications) :
    ∃ earlier later, run.executions = earlier ++ x :: later ∧
      (∃ y ∈ earlier, y.who.user = x.who.user ∧ ∃ entry number,
        Engine.Buffers y.who y.command y.before entry ∧ a.entry = { entry with number }) ∧
      a.disk.IsCatalogued ∧ a.entry.IsSound ∧
      ∃ after, a.entry.perform a.disk = (.ok (), after) := by
  obtain ⟨earlier, later, hexecutions, htrace⟩ := run.trace.before hx
  exact ⟨earlier, later, hexecutions,
    htrace.application run.isSound_first run.transactions_first ha⟩

end FlatFileDb
