import FlatFileDb.Proofs.Rebuilding
import FlatFileDb.Proofs.Single

/-!
# Recovery from the log

A run in which rows are changed in transactions only writes tables in two ways: a new table is made
without rows, and a commit makes the changes that it has logged. So the log, replayed on empty tables,
makes every table what it is. What a commit logs is replayed as it was applied because no transaction
before it went by the same identifier, and this is shown and not assumed: identifiers are made of the
time and the user, and the time moves on with every transaction begun.
-/

namespace FlatFileDb

/-! ### Identifiers of transactions -/

/-- What a number and a text were put together from. -/
theorem Number.decimalDigits_append_inj {n n' : Nat} {rest rest' : List Char}
    (h : decimalDigits n ++ '_' :: rest = decimalDigits n' ++ '_' :: rest') :
    n = n' ∧ rest = rest' := by
  have hfront (n : Nat) (rest : List Char) :
      (decimalDigits n ++ '_' :: rest).takeWhile Char.isDigit = decimalDigits n := by
    rw [List.takeWhile_append_of_pos fun c hc => isDigit_of_mem_decimalDigits hc,
      List.takeWhile_cons_of_neg (by decide), List.append_nil]
  have hdigits : decimalDigits n = decimalDigits n' := by
    rw [← hfront n rest, h, hfront n' rest']
  have hsame : n = n' := by
    rw [← Option.some.injEq, ← digitsFrom_decimalDigits n, hdigits, digitsFrom_decimalDigits]
  rw [hdigits] at h
  exact ⟨hsame, (List.cons.injEq _ _ _ _ ▸ List.append_cancel_left h).2⟩

/-- The identifier of a transaction that a user begins at a time. -/
def Transaction.idAt (time : Nat) (user : String) : String :=
  "tx_" ++ String.ofList (Number.decimalDigits time) ++ "_" ++ user

theorem Transaction.idAt_inj {time time' : Nat} {user user' : String}
    (h : idAt time user = idAt time' user') : time = time' ∧ user = user' := by
  have hlists := congrArg String.toList h
  simp only [idAt, String.toList_append, String.toList_ofList, List.append_assoc] at hlists
  obtain ⟨htime, huser⟩ := Number.decimalDigits_append_inj (List.append_cancel_left hlists)
  exact ⟨htime, String.toList_inj.1 huser⟩

namespace Engine

variable {e e' : Engine} {who : Identity} {command : Command} {upkeep : Upkeep} {user : String}
  {transaction : Transaction} {entries : List Log.Entry}

/-- The engine after a user began a transaction. -/
def begun (engine : Engine) (user : String) : Engine :=
  { engine with
    clock := engine.clock + 1
    transactions := engine.transactions.insert user
      { id := Transaction.idAt engine.clock user, latest := [] } }

theorem begin_cases (user : String) (e : Engine) :
    (∃ failure, begin user e = (.error failure, e)) ∨
      begin user e = (.ok (Transaction.idAt e.clock user), e.begun user) := by
  rw [begin, Action.get_bind]
  split
  · exact .inl ⟨_, rfl⟩
  · exact .inr rfl

/-- A transaction gets its identifier from the time and its user. -/
theorem effect_begin (executing : Executing) (who : Identity) (e : Engine) :
    (effect executing who (.transaction .begin) e).2 = e ∨
      (effect executing who (.transaction .begin) e).2 = e.begun who.user := by
  unfold effect
  rw [Action.read_bind]
  cases authorize who (.transaction .begin) e.role with
  | error failure => exact .inl rfl
  | ok _ =>
  dsimp only
  rw [Action.ofExcept_bind]
  cases who.requireDatabase with
  | error failure => exact .inl rfl
  | ok database =>
  dsimp only [effectIn]
  rw [Action.map_apply, executeBegin]
  rcases begin_cases who.user e with ⟨failure, hbegin⟩ | hbegin
  · exact .inl (by rw [Action.bind_of_error hbegin])
  · exact .inr (by rw [Action.bind_of_ok hbegin]; rfl)

/-- Every transaction that is logged or in progress has its identifier from when it began, and none of
those in progress is logged. -/
structure HasOwnIds (e : Engine) (entries : List Log.Entry) : Prop where
  logged : ∀ entry ∈ entries, ∃ time < e.clock, ∃ user, entry.transaction = Transaction.idAt time user
  active : ∀ user transaction, e.transactions.get? user = some transaction →
    (∃ time < e.clock, transaction.id = Transaction.idAt time user) ∧
      (∀ entry ∈ transaction.latest, entry.transaction = transaction.id) ∧
        ∀ entry ∈ entries, entry.transaction ≠ transaction.id

namespace HasOwnIds

theorem fewer (h : e.HasOwnIds entries) (hclock : e.clock ≤ e'.clock)
    (hactive : ∀ user transaction, e'.transactions.get? user = some transaction →
      e.transactions.get? user = some transaction) : e'.HasOwnIds entries where
  logged entry hentry :=
    (h.logged entry hentry).imp fun _ => And.imp_left fun htime => Nat.lt_of_lt_of_le htime hclock
  active user transaction hfound :=
    (h.active user transaction (hactive user transaction hfound)).imp_left fun hid =>
      hid.imp fun _ => And.imp_left fun htime => Nat.lt_of_lt_of_le htime hclock

theorem congr (h : e.HasOwnIds entries) (hclock : e.clock ≤ e'.clock)
    (htransactions : e'.transactions = e.transactions) : e'.HasOwnIds entries :=
  h.fewer hclock fun _ _ hfound => htransactions ▸ hfound

theorem endTransaction (h : e.HasOwnIds entries) (user : String) :
    HasOwnIds { e with transactions := e.transactions.erase user } entries :=
  h.fewer (Nat.le_refl _) fun other transaction hfound => by
    rw [Keyed.get?_erase] at hfound
    split at hfound
    · exact absurd hfound (by simp)
    · exact hfound

theorem waiting (h : e.HasOwnIds entries) (hactive : e.transactions.get? user = some transaction)
    {more : List Log.Entry} (hmore : ∀ entry ∈ more, entry.transaction = transaction.id) :
    (e.waiting user transaction more).HasOwnIds entries where
  logged := h.logged
  active other found hfound := by
    rw [Engine.waiting, Keyed.get?_insert] at hfound
    split at hfound
    · rename_i hsame
      obtain rfl := eq_of_beq hsame
      obtain ⟨hid, hlatest, hnone⟩ := h.active _ _ hactive
      rw [← Option.some.inj hfound]
      refine ⟨hid, fun entry hentry => ?_, hnone⟩
      rcases List.mem_append.1 hentry with hnew | hold
      · exact hmore entry (List.mem_reverse.1 hnew)
      · exact hlatest entry hold
    · exact h.active other found hfound

/-- A transaction that begins now is none of those before. -/
theorem begin (h : e.HasOwnIds entries) (user : String) : (e.begun user).HasOwnIds entries := by
  have hlater : HasOwnIds { e with clock := e.clock + 1 } entries := h.congr (Nat.le_succ _) rfl
  refine ⟨hlater.logged, fun other found hfound => ?_⟩
  rw [begun, Keyed.get?_insert] at hfound
  split at hfound
  · rename_i hsame
    obtain rfl := eq_of_beq hsame
    rw [← Option.some.inj hfound]
    refine ⟨⟨e.clock, Nat.lt_succ_self _, rfl⟩, by simp, fun entry hentry hno => ?_⟩
    obtain ⟨time, htime, other, hid⟩ := h.logged entry hentry
    exact absurd (Transaction.idAt_inj (hid.symm.trans hno)).1 (Nat.ne_of_lt htime)
  · exact hlater.active other found hfound

/-- What a transaction logs is told apart from all others in progress. -/
theorem commit (h : e.HasOwnIds entries) (hactive : e.transactions.get? user = some transaction)
    {changes : List Log.Entry} (hchanges : ∀ change ∈ changes, change.transaction = transaction.id) :
    HasOwnIds { e with transactions := e.transactions.erase user } (entries ++ changes) := by
  obtain ⟨⟨time, htime, hid⟩, -, -⟩ := h.active user transaction hactive
  refine ⟨fun entry hentry => ?_, fun other found hfound => ?_⟩
  · rcases List.mem_append.1 hentry with hold | hnew
    · exact h.logged entry hold
    · exact ⟨time, htime, user, (hchanges entry hnew).trans hid⟩
  · rw [Keyed.get?_erase] at hfound
    split at hfound
    · exact absurd hfound (by simp)
    · rename_i hother
      obtain ⟨⟨time', htime', hid'⟩, hlatest, hnone⟩ := h.active other found hfound
      refine ⟨⟨time', htime', hid'⟩, hlatest, fun entry hentry hno => ?_⟩
      rcases List.mem_append.1 hentry with hold | hnew
      · exact hnone entry hold hno
      · rw [hchanges entry hnew, hid, hid'] at hno
        exact hother (by rw [(Transaction.idAt_inj hno).2]; simp)

theorem own (h : e.HasOwnIds entries) (hown : Own who command e e' upkeep)
    (hafter : ∃ executing, (effect executing who command e).2 = (upkeep.step e').2)
    (hother : command ≠ .transaction .commit) : e'.HasOwnIds entries := by
  have hwaiting {e₁ : Engine} {transaction : Transaction} {more : List Log.Entry}
      (hquiet : Quiet e e₁) (hactive : e.transactions.get? who.user = some transaction)
      (hmore : ∀ entry ∈ more, entry.transaction = transaction.id) :
      (e₁.waiting who.user transaction more).HasOwnIds entries :=
    (h.congr (Nat.le_of_eq hquiet.clock.symm) hquiet.transactions).waiting
      (by rw [hquiet.transactions, hactive]) hmore
  cases hown with
  | quiet hquiet | insert _ hquiet | update _ hquiet | delete _ hquiet | createIndex _ hquiet
  | createTrigger _ _ hquiet =>
    exact h.congr (Nat.le_of_eq hquiet.clock.symm) hquiet.transactions
  | become | createNothing | createTable | createView => exact h.congr (Nat.le_refl _) rfl
  | @begin _ id hfree =>
    obtain ⟨executing, hafter⟩ := hafter
    rcases effect_begin executing who e with hnothing | hbegun
    · have hclock := congrArg Engine.clock (hnothing.symm.trans hafter)
      exact absurd hclock (Nat.ne_of_lt (Nat.lt_succ_self _))
    · have hids := h.begin who.user
      rw [hbegun.symm.trans hafter] at hids
      exact hids
  | rollback => exact h.endTransaction who.user
  | commitNothing | commit => exact absurd rfl hother
  | insertLater hdatabase hquiet hactive =>
    exact hwaiting hquiet hactive fun entry hentry => by rw [List.mem_singleton.1 hentry]; rfl
  | updateLater hdatabase hquiet hactive =>
    refine hwaiting hquiet hactive fun entry hentry => ?_
    obtain ⟨pair, -, rfl⟩ := List.mem_map.1 hentry
    rfl
  | deleteLater hdatabase hquiet hactive =>
    refine hwaiting hquiet hactive fun entry hentry => ?_
    obtain ⟨row, -, rfl⟩ := List.mem_map.1 hentry
    rfl

end HasOwnIds

end Engine

/-! ### New tables -/

namespace Disk

variable {disk disk' : Disk}

theorem AddsTables.refl (disk : Disk) : AddsTables disk disk :=
  ⟨Std.Refl.refl disk, fun _ _ => .inl rfl⟩

theorem SparesRows.at?_eq (h : SparesRows disk disk')
    (hmade : Grows Path.IsUndotted (fun _ => True) disk disk') {place : Path}
    (hends : Path.EndsIn ".mg" place) : disk'.at? place = disk.at? place := by
  rcases (hmade.and h) place with hsame | ⟨⟨hundotted, -⟩, -⟩ | ⟨⟨-, -, hno⟩, -⟩
  · exact hsame
  · exact absurd hends (hundotted.not_endsIn (by decide))
  · exact absurd hends hno

/-- No table is added where neither schemas nor tables are written. -/
theorem SparesRows.addsTables (h : SparesRows disk disk')
    (hmade : Grows Path.IsUndotted (fun _ => True) disk disk') : AddsTables disk disk' where
  grows := h.mono (fun _ _ => trivial) fun _ _ => trivial
  tables _ hends := .inl (h.at?_eq hmade hends)

theorem addsTables_of_indexes (h : Grows (fun _ => False) Path.IsIndex disk disk') :
    AddsTables disk disk' :=
  (sparesRows_of_indexes h).addsTables (h.mono (fun _ hno => hno.elim) fun _ _ => trivial)

end Disk

namespace Engine

variable {e e' : Engine} {who : Identity} {command : Command} {upkeep : Upkeep}

/-- A table that is defined is new and has no rows. -/
theorem IsSound.addsTables_createTable (h : e.IsSound) {database table text : String}
    {made written : Disk} (htable : Name.isValid table = true)
    (hdatabase : Database.require e.disk database = .ok ())
    (hnew : hasSchema e.disk database table = false)
    (hmake : Disk.makeDirectories (Path.schemas database) e.disk = (.ok (), made))
    (hwrite : Disk.writeFile (Path.schema database table) text made = (.ok (), written))
    (hundotted : Disk.Grows Path.IsUndotted (fun _ => True) e.disk made) :
    e.disk.AddsTables (Table.init database table written).2 := by
  obtain ⟨home, hhome, -, hnone, hplace, hwritten⟩ :=
    schemaPlace_of_write (h.disk.folder htable) htable hdatabase hnew hmake hwrite
  have hspares := (@spares_schemas True _ _ _ hdatabase hmake).sparesRows
  have hput : Disk.Grows (fun _ => True) (fun _ => True) made written := by
    rw [hwritten]
    exact Disk.grows_put_file trivial (by rw [hnone]; simp) text
  have hinit : Disk.Grows (fun _ => True) (fun _ => True) written
      (Table.init database table written).2 := by
    have hkeeps : Disk.Keeps True written (Table.init database table written).2 :=
      Table.keeps_init database table written
    exact hkeeps.grows.mono (fun _ _ => trivial) fun _ _ => trivial
  refine ⟨IsTrans.trans _ _ _ (IsTrans.trans _ _ _ (hspares.addsTables hundotted).grows hput) hinit,
    fun place hends => ?_⟩
  have hkept : written.at? place = e.disk.at? place := by
    rw [hwritten, Disk.at?_put, if_neg, hspares.at?_eq hundotted hends]
    intro hschema
    rw [eq_of_beq hschema] at hends
    exact (Path.endsIn_schemaPlace home table).not (by decide) hends
  rcases init_cases (hhome.grows hput) htable with hnothing | hempty
  · exact .inl (by rw [hnothing, hkept])
  · rw [hempty, Disk.at?_put]
    split
    · rename_i hplaces
      refine .inr ⟨rfl, fun home' name hplace' => ?_⟩
      obtain ⟨rfl, rfl⟩ := Path.tablePlace_inj ((eq_of_beq hplaces).symm.trans hplace')
      exact Disk.Grows.missing hspares hnone
    · exact .inl hkept

/-- Where rows are changed in transactions only, nothing but a commit writes tables that were there. -/
theorem IsSound.addsTables_own (h : e.IsSound) (hnamed : command.isWellNamed = true)
    (hown : Own who command e e' upkeep) (hother : command ≠ .transaction .commit)
    (hinside : command.changedTable?.isSome = true → e.inTransaction who.user = true) :
    e.disk.AddsTables e'.disk := by
  have hundotted := hown.undotted
  have hsame {disk : Disk} (hdisk : disk = e.disk) : e.disk.AddsTables disk := by
    rw [hdisk]
    exact .refl e.disk
  have hdirectly (hfree : e.inTransaction who.user = false)
      (hchanges : command.changedTable?.isSome = true) : e.disk.AddsTables e'.disk :=
    absurd ((hinside hchanges).symm.trans hfree) (by simp)
  cases hown with
  | quiet hquiet | insertLater _ hquiet | updateLater _ hquiet | deleteLater _ hquiet =>
    exact hsame hquiet.disk
  | become | begin | rollback => exact .refl e.disk
  | commitNothing | commit => exact absurd rfl hother
  | insert _ _ hfree | update _ _ hfree | delete _ _ hfree => exact hdirectly hfree rfl
  | createNothing hdatabase =>
    exact (@Disk.spares_makeDirectories_below True _ _ _ hdatabase (by decide)).sparesRows.addsTables
      hundotted
  | @createTable database table definition _ columns made written hrole hcolumns hnames hdatabase
      hnew hmake hwrite =>
    have hmade : Disk.Grows Path.IsUndotted (fun _ => True) e.disk
        (Disk.makeDirectories (Path.schemas database) e.disk).2 :=
      Disk.grows_makeDirectories_below hdatabase (by decide)
    rw [hmake] at hmade
    exact h.addsTables_createTable hnamed hdatabase hnew hmake hwrite hmade
  | createIndex => exact Disk.addsTables_of_indexes (Index.grows_build _ _ _ _ _ e.disk)
  | createView =>
    exact (@View.spares_save True _ _ _ e.disk).sparesRows.addsTables hundotted
  | @createTrigger database definition _ e₁ created hdatabase hquiet =>
    rw [Command.isWellNamed, Bool.and_eq_true] at hnamed
    exact (@Trigger.spares_save True database { definition, created }
      hnamed.1 hnamed.2 e.disk).sparesRows.addsTables hundotted

/-! ### Runs -/

/-- The log can be read back, and its entries, replayed on empty tables, make all tables what they
are. -/
structure Rebuilds (e : Engine) (entries : List Log.Entry) : Prop where
  text : ∃ text, e.disk.textAt e.log.path = .ok text ∧ Text.IsEnded text ∧
    Log.entriesOf text = entries
  known : e.disk.Knows entries
  rebuilt : e.disk.IsRebuilt entries
  ids : e.HasOwnIds entries

variable {entries : List Log.Entry}

/-- What waits in a transaction is a change of a table. -/
theorem IsSound.knows_numbered (h : e.IsSound) {user : String} {transaction : Transaction}
    (hactive : e.transactions.get? user = some transaction) (first : Nat) :
    e.disk.Knows (Log.numbered first transaction.changes) := by
  intro entry hentry
  obtain ⟨before, hbefore, number, rfl⟩ := Log.mem_numbered hentry
  obtain ⟨hsound, hschema⟩ := h.waiting user transaction hactive before (List.mem_reverse.1 hbefore)
  exact ⟨⟨hsound.table, hsound.row⟩, hschema⟩

/-- Whatever adds tables at most. -/
theorem Rebuilds.addsTables (h : e.Rebuilds entries) (hsound : e.IsSound)
    (hpath : e'.log.path = e.log.path) (hlogs : Disk.SparesLogs e.disk e'.disk)
    (hschemas : ∀ {database name schema}, Name.isValid name = true →
      readSchema e.disk database name = .ok schema → readSchema e'.disk database name = .ok schema)
    (hadds : e.disk.AddsTables e'.disk) (hids : e'.HasOwnIds entries) : e'.Rebuilds entries where
  text := by
    obtain ⟨text, htext, hended, hentries⟩ := h.text
    rw [hpath]
    exact ⟨text, hlogs.textAt hsound.endsIn_log htext, hended, hentries⟩
  known := h.known.keeps hschemas
  rebuilt := h.rebuilt.addsTables h.known hadds
  ids := hids

theorem Rebuilds.congr (h : e.Rebuilds entries) (hsound : e.IsSound)
    (hpath : e'.log.path = e.log.path) (hdisk : e'.disk = e.disk) (hids : e'.HasOwnIds entries) :
    e'.Rebuilds entries :=
  h.addsTables hsound hpath (by rw [hdisk]; exact refl e.disk)
    (fun _ hschema => by rw [hdisk, hschema]) (by rw [hdisk]; exact .refl e.disk) hids

theorem Rebuilds.maintains (h : e.Rebuilds entries) (hsound : e.IsSound)
    (hmaintains : Maintains e e') : e'.Rebuilds entries := by
  have hkeeps : Disk.Keeps True e.disk e'.disk := Disk.keeps_of_indexes hmaintains.disk.grows
  exact h.addsTables hsound (by rw [hmaintains.log])
    (hmaintains.disk.sparesLogs fun _ => Index.not_endsIn_log)
    (fun hname => readSchema_of_keeps hname hkeeps)
    (Disk.addsTables_of_indexes hmaintains.disk.grows)
    (h.ids.congr (Nat.le_of_eq hmaintains.clock.symm) hmaintains.transactions)

theorem Rebuilds.step (h : e.Rebuilds entries) (hsound : e.IsSound) (upkeep : Upkeep) :
    (upkeep.step e).2.Rebuilds entries := by
  rcases upkeep_cases upkeep e with hmaintains | ⟨-, jobs, hjobs⟩
  · exact h.maintains hsound hmaintains
  · rw [hjobs]
    exact h.congr hsound rfl rfl (h.ids.congr (Nat.le_refl _) rfl)

/-- What a commit logs is what it makes of the tables. -/
theorem Rebuilds.commit (h : e.Rebuilds entries) (hsound : e.IsSound) (hopen : e.IsOpen)
    (hpast : e.HasPast) (htime : e.clock / 1000000 < 2 ^ 64) {user : String}
    {transaction : Transaction} (hactive : e.transactions.get? user = some transaction)
    {logged disk : Disk} {done : List Log.Entry} {failure : Option Error}
    (hlog : e.log.write (Log.numbered e.log.next transaction.changes) e.disk = (.ok (), logged))
    (happly : Log.Entry.performAll (Log.numbered e.log.next transaction.changes) logged
      = ((done, failure), disk))
    (hschemas : ∀ {database name schema}, Name.isValid name = true →
      readSchema e.disk database name = .ok schema → readSchema disk database name = .ok schema) :
    (e.committed user transaction.changes disk).Rebuilds
      (entries ++ Log.numbered e.log.next transaction.changes) := by
  set changes := Log.numbered e.log.next transaction.changes with hchanges
  obtain ⟨text, hbefore, hended, hentries⟩ := h.text
  obtain ⟨hrewrites, text', hbefore', hlogged⟩ := hopen.write hlog
  obtain rfl := Except.ok.inj (hbefore'.symm.trans hbefore)
  obtain ⟨-, hlatest, hfresh⟩ := h.ids.active user transaction hactive
  have hid : ∀ change ∈ changes, change.transaction = transaction.id := by
    intro change hchange
    obtain ⟨before, hwaits, number, rfl⟩ := Log.mem_numbered hchange
    exact hlatest before (List.mem_reverse.1 hwaits)
  have hread : Log.entriesOf (text' ++ Text.ofLines (changes.map Log.line)) = entries ++ changes := by
    have htimes : ∀ change ∈ transaction.changes, change.timestamp < 2 ^ 64 := fun change hchange =>
      Nat.lt_of_le_of_lt (hpast user transaction hactive change (List.mem_reverse.1 hchange)) htime
    rw [Log.entriesOf_append hended, hentries,
      Log.entriesOf_ofLines (Log.isStorable_numbered hopen.next htimes)]
  have hafter : disk = (Log.Entry.performAll changes logged).2 := by rw [happly]
  have happlied : Disk.SparesLogs logged disk := hafter ▸
    (Log.Entry.rewrites_performAll changes logged).sparesLogs fun _ hends => hends.not (by decide)
  exact {
    text := ⟨_, happlied.textAt hsound.endsIn_log hlogged, hended.append (Text.isEnded_ofLines _),
      hread⟩
    known := (h.known.append (hsound.knows_numbered hactive e.log.next)).keeps hschemas
    rebuilt := by
      change disk.IsRebuilt _
      rw [hafter]
      exact h.rebuilt.commit hrewrites hid hfresh
    ids := (h.ids.commit hactive hid).congr (Nat.le_refl _) rfl }

/-- Where rows are changed in transactions only, the log is enough after every command. -/
theorem Rebuilds.own (h : e.Rebuilds entries) (hsound : e.IsSound) (hopen : e.IsOpen)
    (hpast : e.HasPast) (htime : e.clock / 1000000 < 2 ^ 64) (hnamed : command.isWellNamed = true)
    (hown : Own who command e e' upkeep)
    (hafter : ∃ executing, (effect executing who command e).2 = (upkeep.step e').2)
    (hinside : command.changedTable?.isSome = true → e.inTransaction who.user = true) :
    ∃ entries', e'.Rebuilds entries' := by
  have hschemas {database name : String} {schema : TableSchema} (hname : Name.isValid name = true) :
      readSchema e.disk database name = .ok schema → readSchema e'.disk database name = .ok schema :=
    hsound.readSchema_own hnamed hown hname
  by_cases hother : command = .transaction .commit
  · subst hother
    cases hown with
    | quiet hquiet =>
      exact ⟨entries, h.congr hsound (by rw [hquiet.log]) hquiet.disk
        (h.ids.congr (Nat.le_of_eq hquiet.clock.symm) hquiet.transactions)⟩
    | commitNothing => exact ⟨entries, h.congr hsound rfl rfl (h.ids.endTransaction who.user)⟩
    | commit hrole hactive hchanges hlog happly =>
      exact ⟨_, h.commit hsound hopen hpast htime hactive hlog happly hschemas⟩
  · obtain ⟨hlog, hlogs⟩ := hown.sparesLogs hother
    exact ⟨entries, h.addsTables hsound (by rw [hlog]) hlogs hschemas
      (hsound.addsTables_own hnamed hown hother hinside) (h.ids.own hown hafter hother)⟩

theorem clock_of_upkeep (upkeep : Upkeep) (e : Engine) : (upkeep.step e).2.clock = e.clock := by
  rcases upkeep_cases upkeep e with hmaintains | ⟨-, jobs, hjobs⟩
  · exact hmaintains.clock
  · rw [hjobs]

theorem Trace.rebuilds {first : Engine} {executions : List Execution}
    (h : Trace first executions e) (hsound : first.IsSound) (hopen : first.IsOpen)
    (hjournals : first.Journals) (hfirst : first.Rebuilds [])
    (hinside : ∀ x ∈ executions, x.command.changedTable?.isSome = true →
      x.before.inTransaction x.who.user = true)
    (htime : e.clock / 1000000 < 2 ^ 64) : ∃ entries, e.Rebuilds entries := by
  induction h with
  | start => exact ⟨[], hfirst⟩
  | @command executions e e₁ who command upkeep h hnamed hown hafter ih =>
    have hpast := (h.journals hsound hopen hjournals).times
    have hbefore := h.isSound hsound
    rw [clock_of_upkeep] at htime
    have htime' := Nat.lt_of_le_of_lt (Nat.div_le_div_right (hpast.own hown).1) htime
    obtain ⟨entries, hentries⟩ := ih (fun x hx => hinside x (List.mem_append_left _ hx)) htime'
    obtain ⟨entries', hentries'⟩ := hentries.own hbefore (h.isOpen hopen) hpast htime' hnamed hown
      hafter (hinside ⟨who, command, e⟩ (by simp))
    exact ⟨entries', hentries'.step (hbefore.own hnamed hown) upkeep⟩
  | @createDatabase executions e h name ih =>
    obtain ⟨entries, hentries⟩ := ih hinside htime
    have hspares : Disk.Spares True e.disk (Database.create name e.disk).2 :=
      Database.spares_create name e.disk
    have hundotted : Disk.Grows Path.IsUndotted (fun _ => False) e.disk
        (Database.create name e.disk).2 := Database.grows_create name e.disk
    exact ⟨entries, hentries.addsTables (h.isSound hsound) rfl
      (hundotted.mono (fun _ _ => trivial) fun _ hno => hno.elim)
      (fun hname => readSchema_of_keeps hname hspares.keeps)
      (hspares.sparesRows.addsTables (hundotted.mono (fun _ => id) fun _ _ => trivial))
      (hentries.ids.congr (Nat.le_refl _) rfl)⟩
  | @reopen executions e opened h hopened ih =>
    have hdisk := disk_of_reopen (h.isSound hsound) (h.isOpen hopen) hopened
    have hpath := (isOpen_openOn hopened).path
    obtain ⟨log, after, -, rfl⟩ := openOn_eq_ok hopened
    obtain ⟨entries, hentries⟩ := ih hinside htime
    exact ⟨entries, hentries.congr (h.isSound hsound) (hpath.trans (h.isOpen hopen).path.symm) hdisk
      (hentries.ids.fewer (Nat.le_refl _) fun _ _ hfound => absurd hfound (by simp))⟩
  | @pass executions e h nanoseconds ih =>
    have hclock : e.clock ≤ e.clock + nanoseconds := Nat.le_add_right _ _
    obtain ⟨entries, hentries⟩ :=
      ih hinside (Nat.lt_of_le_of_lt (Nat.div_le_div_right hclock) htime)
    exact ⟨entries, hentries.congr (h.isSound hsound) rfl rfl (hentries.ids.congr hclock rfl)⟩
  | maintain h hbackground hmaintains ih =>
    obtain ⟨entries, hentries⟩ := ih hinside (hmaintains.clock ▸ htime)
    exact ⟨entries, hentries.maintains (h.isSound hsound) hmaintains⟩
  | queue h hbackground jobs ih =>
    obtain ⟨entries, hentries⟩ := ih hinside htime
    exact ⟨entries, hentries.congr (h.isSound hsound) rfl rfl
      (hentries.ids.congr (Nat.le_refl _) rfl)⟩

end Engine

namespace Run

theorem rebuilds_first (run : Run) : run.first.Rebuilds [] where
  text := by
    obtain ⟨log, after, hlog, hfirst⟩ := Engine.openOn_eq_ok run.opened
    have hempty := Log.textAt_of_openAt hlog fun _ _ hfile => absurd hfile (by simp)
    rw [hfirst]
    refine ⟨"", ?_, .inl rfl, rfl⟩
    rw [(Log.openAt_eq_ok hlog).1]
    exact hempty
  known _ hno := absurd hno (by simp)
  rebuilt := Disk.isRebuilt_nil fun place text hends hfile =>
    absurd ((run.grows_first.unwritten fun hlog => hlog.not (by decide) hends).1 hfile) (by simp)
  ids := by
    refine ⟨fun _ hno => absurd hno (by simp), fun user transaction hfound => ?_⟩
    exact absurd (run.transactions_first ▸ hfound) (by simp)

/-- The log is enough to rebuild the tables. Where rows are inserted, updated and deleted in
transactions only, the log can be read, and replaying it on empty tables, up to the first change of each
transaction that cannot be made, gives every table the rows that it has, in their order. Times must fit
into their 64 bits. -/
theorem rows_replayed (run : Run)
    (hinside : ∀ x ∈ run.executions, x.command.changedTable?.isSome = true →
      x.before.inTransaction x.who.user = true)
    (htime : run.last.clock / 1000000 < 2 ^ 64) :
    ∃ entries, Log.entries run.last.disk run.last.log = .ok entries ∧ ∀ database table,
      Table.rows (Log.replay entries run.last.disk.emptied).disk database table
        = Table.rows run.last.disk database table := by
  have hopen := Engine.isOpen_openOn run.opened
  have hjournals : run.first.Journals :=
    Engine.journals_openOn (fun _ _ hfile => absurd hfile (by simp)) run.opened
  obtain ⟨entries, hentries⟩ := run.trace.rebuilds run.isSound_first hopen hjournals
    run.rebuilds_first hinside htime
  obtain ⟨text, htext, -, rfl⟩ := hentries.text
  exact ⟨_, Engine.entries_of_textAt htext, hentries.rebuilt.rows⟩

/-- Two users at a time; the second one commits three changes of which the second cannot be made. -/
def stoppedHalfway : Run :=
  standard [.createDatabase "kantor", byAuthor "CREATE TABLE t id:INT, nama:STRING", byReader "BEGIN",
    byAuthor "BEGIN", byReader "INSERT t 1|a", byAuthor "INSERT t 2|b", byAuthor "COMMIT",
    byReader "DELETE FROM t WHERE id = 2", byReader "UPDATE t SET nama=c WHERE id = 2",
    byReader "INSERT t 3|d", byReader "COMMIT"]

theorem rows_replayed_stoppedHalfway :
    ∃ entries, Log.entries stoppedHalfway.last.disk stoppedHalfway.last.log = .ok entries ∧
      Table.rows (Log.replay entries stoppedHalfway.last.disk.emptied).disk "kantor" "t"
        = .ok ["1|a"] := by
  have hinside : ∀ x ∈ stoppedHalfway.executions, x.command.changedTable?.isSome = true →
      x.before.inTransaction x.who.user = true := by
    decide +kernel
  have hlast : stoppedHalfway.last.clock / 1000000 < 2 ^ 64 ∧
      Table.rows stoppedHalfway.last.disk "kantor" "t" = .ok ["1|a"] := by
    decide +kernel
  obtain ⟨htime, hrows⟩ := hlast
  obtain ⟨entries, hentries, hreplayed⟩ := stoppedHalfway.rows_replayed hinside htime
  exact ⟨entries, hentries, (hreplayed "kantor" "t").trans hrows⟩

end Run

end FlatFileDb
