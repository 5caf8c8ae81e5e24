import FlatFileDb.Proofs.Journal
import FlatFileDb.Proofs.Naming
import FlatFileDb.Proofs.Rollback

/-!
# An engine opened anew

Of what an engine has in memory, two things are on its disk as well: the schemas that it has read, and
the number of the next log entry, which is the one behind the highest in the file. Both hold after
whatever happens, so an engine without transactions that is opened anew is a twin of what it was, and
no statement tells the two apart.
-/

namespace FlatFileDb

namespace Disk

/-- No file with the ending of logs is written. -/
def SparesLogs : Disk → Disk → Prop :=
  Grows (fun _ => True) fun place => ¬Path.EndsIn ".log" place

instance : IsPreorder Disk SparesLogs :=
  inferInstanceAs (IsPreorder Disk (Grows _ _))

variable {disk disk' : Disk}

theorem Rewrites.sparesLogs {written : Path → Prop} (h : Rewrites written disk disk')
    (hwritten : ∀ place, written place → ¬Path.EndsIn ".log" place) : SparesLogs disk disk' :=
  h.grows.mono (fun _ _ => trivial) hwritten

theorem sparesLogs_writeFile {path : Path} {ending : String} (h : Path.EndsIn ending path)
    (hother : ¬(ending.toList <:+ ".log".toList ∨ ".log".toList <:+ ending.toList))
    (text : String) : Action.Within SparesLogs (writeFile path text) :=
  within_writeFile text fun _ hplace => (h.congr hplace).not hother

theorem sparesLogs_makeDirectories (path : Path) :
    Action.Within SparesLogs (makeDirectories path) :=
  within_makeDirectories fun _ _ _ _ _ => trivial

/-- A log stays as it is where nothing but other files are written. -/
theorem SparesLogs.textAt (h : SparesLogs disk disk') {path : Path} {text : String}
    (hends : Path.EndsIn ".log" path) (htext : disk.textAt path = .ok text) :
    disk'.textAt path = .ok text :=
  Grows.textAt h htext fun _ hplace hno => hno (hends.congr hplace)

end Disk

/-- A log that is opened where there are no files is empty. -/
theorem Log.textAt_of_openAt {path : Path} {disk after : Disk} {log : Log}
    (h : openAt path disk = (.ok log, after))
    (hnone : ∀ place text, disk.at? place ≠ some (.file text)) : after.textAt path = .ok "" := by
  unfold openAt at h
  rcases Action.bind_cases h with ⟨failure, -, hno⟩ | ⟨⟨⟩, made, hmake, h⟩
  · exact absurd hno (by simp)
  have hmade : Disk.Grows (fun _ => True) (fun _ => False) disk made :=
    (Disk.within_makeDirectories fun _ _ _ _ _ => trivial).after hmake
  rw [Action.get_bind] at h
  split at h
  · rcases Action.bind_cases h with ⟨failure, -, hno⟩ | ⟨found, disk₁, hfound, hlog⟩
    · exact absurd hno (by simp)
    · obtain ⟨text, htext, -⟩ := Action.of_bind_eq_ok (congrArg Prod.fst hfound)
      obtain ⟨place, hlocate⟩ := Disk.textAt_eq_ok.1 (Disk.textOr_eq_ok.1 htext)
      obtain ⟨-, -, -, -, -, -, hthere, -⟩ := Disk.locate_file hlocate
      exact absurd ((hmade.unwritten not_false).1 hthere) (hnone place text)
  · rcases Action.bind_cases h with ⟨failure, -, hno⟩ | ⟨⟨⟩, disk₁, hwrite, hlog⟩
    · exact absurd hno (by simp)
    · obtain ⟨-, rfl⟩ := Prod.mk.inj hlog
      rcases Disk.writeFile_cases path "" made with hno | ⟨place, hplace, hwritten⟩
      · exact absurd (congrArg Prod.fst (hno.symm.trans hwrite)) (by simp)
      · obtain rfl := congrArg Prod.snd (hwritten.symm.trans hwrite)
        exact Disk.textAt_eq_ok.2 ⟨place, Disk.locate_put hplace ""⟩

theorem Log.isStorable_numbered {first : Nat} (hfirst : first < 2 ^ 64) {entries : List Entry}
    (htimes : ∀ entry ∈ entries, entry.timestamp < 2 ^ 64) :
    ∀ entry ∈ numbered first entries, entry.IsStorable := by
  induction entries generalizing first with
  | nil => simp [numbered]
  | cons entry rest ih =>
    rw [numbered, List.forall_mem_cons]
    refine ⟨⟨hfirst, htimes entry (by simp)⟩, ?_⟩
    exact ih (Nat.mod_lt _ (Nat.two_pow_pos 64)) fun other hother => htimes other (by simp [hother])

theorem Index.not_endsIn_log {place : Path} (h : Path.IsIndex place) : ¬Path.EndsIn ".log" place := by
  obtain ⟨kind, hkind⟩ := h
  cases kind <;> exact hkind.not (by decide)

theorem Trigger.endsIn_path (database : String) (definition : TriggerDefinition) :
    Path.EndsIn ".json" (Trigger.path database definition) := by
  unfold Trigger.path
  exact Path.endsIn_below _ _ (by decide)

namespace Engine

variable {e e' : Engine} {who : Identity} {command : Command} {upkeep : Upkeep}

/-! ### What a command does to definitions and to the log -/

/-- A definition whose names are right is stored. -/
theorem storeSchema_of_write {disk made written : Disk} {database table : String}
    {columns : List Column} {permissions : Permissions} (htable : Name.isValid table = true)
    (hnames : ∀ column ∈ columns, Name.isValid column.name = true)
    (hdatabase : Database.require disk database = .ok ())
    (hnew : hasSchema disk database table = false)
    (hmake : Disk.makeDirectories (Path.schemas database) disk = (.ok (), made))
    (hwrite : Disk.writeFile (Path.schema database table)
      ((⟨database, table, columns, permissions⟩ : TableSchema).toJson.indented 0) made
        = (.ok (), written)) :
    storeSchema database table columns permissions disk
      = (.ok ⟨database, table, columns, permissions⟩, written) := by
  have hcheck : Name.check table = .ok () := if_pos htable
  have hcolumns : (columns.forM fun column => Name.check column.name) = .ok () :=
    Action.forM_of_forall fun column hcolumn => if_pos (hnames column hcolumn)
  unfold storeSchema
  rw [Action.ofExcept_bind, hcheck]
  dsimp only
  rw [Action.ofExcept_bind, hcolumns]
  dsimp only
  rw [Action.read_bind, hdatabase]
  dsimp only
  rw [Action.read_bind, hnew]
  dsimp only
  rw [if_neg (by simp), Action.bind_of_ok hmake, Action.bind_of_ok hwrite]
  rfl

/-- Every command leaves the schemas that can be read as they are. -/
theorem IsOpen.recalls_own (h : e.IsOpen) (hnamed : command.isWellNamed = true)
    (hown : Own who command e e' upkeep) : Disk.Recalls e.disk e'.disk := by
  have hsame {disk : Disk} (hdisk : disk = e.disk) : Disk.Recalls e.disk disk := by
    rw [hdisk]
    exact refl e.disk
  have htable (database table text : String) :
      Action.Within Disk.SparesDefinitions (Disk.writeFile (Path.table database table) text) :=
    Disk.sparesDefinitions_writeFile (Path.endsIn_table database table) (by decide) text
  cases hown with
  | quiet hquiet | insertLater _ hquiet | updateLater _ hquiet | deleteLater _ hquiet =>
    exact hsame hquiet.disk
  | become | begin | rollback | commitNothing => exact refl e.disk
  | @commit _ transaction logged disk done failure hrole hactive hchanges hlog happly =>
    have hlogged := (Log.sparesDefinitions_write h.path _).after hlog
    have happlied := Log.Entry.sparesDefinitions_performAll
      (Log.numbered e.log.next transaction.changes) logged
    rw [happly] at happlied
    exact (IsTrans.trans (r := Disk.SparesDefinitions) _ _ _ hlogged happlied).recalls
  | insert hdatabase hquiet hfree hschema hrow hwrite =>
    exact ((Table.sparesDefinitions_append _ _ _).after hwrite).recalls
  | update hdatabase hquiet hfree hschema hassigned hrows hchange hwrite =>
    exact ((htable _ _ _).after hwrite).recalls
  | delete hdatabase hquiet hfree hschema hrows hwrite =>
    exact ((htable _ _ _).after hwrite).recalls
  | createNothing => exact (Disk.sparesDefinitions_makeDirectories _ e.disk).recalls
  | @createTable database table definition _ columns made written hrole hcolumns hnames hdatabase
      hnew hmake hwrite =>
    have hstored := storeSchema_of_write hnamed hnames hdatabase hnew hmake hwrite
    have hdefined := (recalls_storeSchema database table columns Permissions.standard).after hstored
    exact IsTrans.trans _ _ _ hdefined (Table.sparesDefinitions_init database table written).recalls
  | @createIndex database table column kind _ e₁ schema position =>
    have hbuilt := Index.sparesDefinitions_build database table column position kind e.disk
    exact hbuilt.recalls
  | @createView database name query _ hdatabase =>
    exact (View.sparesDefinitions_save database name query e.disk).recalls
  | @createTrigger database definition _ e₁ created hdatabase hquiet =>
    rw [Command.isWellNamed, Bool.and_eq_true] at hnamed
    exact Trigger.recalls_save database { definition, created } hnamed.1 hnamed.2 e.disk

/-- A command other than a commit leaves the log as it is. -/
theorem Own.sparesLogs (hown : Own who command e e' upkeep)
    (hother : command ≠ .transaction .commit) :
    e'.log = e.log ∧ Disk.SparesLogs e.disk e'.disk := by
  have hsame {disk : Disk} (hdisk : disk = e.disk) : Disk.SparesLogs e.disk disk := by
    rw [hdisk]
    exact refl e.disk
  have htable (database table text : String) :
      Action.Within Disk.SparesLogs (Disk.writeFile (Path.table database table) text) :=
    Disk.sparesLogs_writeFile (Path.endsIn_table database table) (by decide) text
  cases hown with
  | quiet hquiet | insertLater _ hquiet | updateLater _ hquiet | deleteLater _ hquiet =>
    exact ⟨hquiet.log, hsame hquiet.disk⟩
  | become | begin | rollback => exact ⟨rfl, refl e.disk⟩
  | commitNothing | commit => exact absurd rfl hother
  | @insert database table row _ e₁ schema disk hdatabase hquiet hfree hschema hrow hwrite =>
    have happend : Action.Within Disk.SparesLogs (Table.append database table row) :=
      .bind (.read _) fun _ => htable _ _ _
    exact ⟨hquiet.log, happend.after hwrite⟩
  | update hdatabase hquiet hfree hschema hassigned hrows hchange hwrite =>
    exact ⟨hquiet.log, (htable _ _ _).after hwrite⟩
  | delete hdatabase hquiet hfree hschema hrows hwrite =>
    exact ⟨hquiet.log, (htable _ _ _).after hwrite⟩
  | createNothing => exact ⟨rfl, Disk.sparesLogs_makeDirectories _ e.disk⟩
  | @createTable database table definition _ columns made written hrole hcolumns hnames hdatabase
      hnew hmake hwrite =>
    have hmade := (Disk.sparesLogs_makeDirectories _).after hmake
    have hwritten := (Disk.sparesLogs_writeFile (Path.endsIn_below (Path.schemas database) table
      (by decide)) (by decide) _).after hwrite
    have hinit : Action.Within Disk.SparesLogs (Table.init database table) :=
      .bind (.read _) fun _ => htable _ _ _
    exact ⟨rfl, IsTrans.trans _ _ _ (IsTrans.trans _ _ _ hmade hwritten) (hinit written)⟩
  | @createIndex database table column kind _ e₁ schema position hdatabase hquiet =>
    have hbuilt := Index.grows_build database table column position kind e.disk
    exact ⟨hquiet.log, hbuilt.mono (fun _ _ => trivial) fun _ => Index.not_endsIn_log⟩
  | @createView database name query _ hdatabase =>
    have hsave : Action.Within Disk.SparesLogs (View.save database name query) :=
      .bind (.read _) fun _ => Disk.sparesLogs_writeFile (Path.endsIn_below _ name (by decide))
        (by decide) query
    exact ⟨rfl, hsave e.disk⟩
  | @createTrigger database definition _ e₁ created hdatabase hquiet =>
    have hsave : Action.Within Disk.SparesLogs (Trigger.save database { definition, created }) :=
      .bind (.read _) fun _ => .bind (Disk.sparesLogs_makeDirectories _) fun _ =>
        Disk.sparesLogs_writeFile (Trigger.endsIn_path database definition) (by decide) _
    exact ⟨hquiet.log, hsave e.disk⟩

/-! ### Schemas in memory -/

/-- Every schema in memory is the one on the disk. -/
structure Remembers (e : Engine) : Prop where
  filed : e.disk.IsFiled
  memory : ∀ key schema, e.schemas.get? key = some schema →
    readSchema e.disk key.1 key.2 = .ok schema

theorem Remembers.recalls (h : e.Remembers) (hdisk : Disk.Recalls e.disk e'.disk)
    (hread : ∀ key schema, e'.schemas.get? key = some schema →
      e.schemas.get? key = some schema ∨ readSchema e.disk key.1 key.2 = .ok schema) :
    e'.Remembers where
  filed := hdisk.filed h.filed
  memory key schema hkey := hdisk.schema h.filed _ _ _ <|
    (hread key schema hkey).elim (h.memory key schema) id

theorem Remembers.knownSchema (h : e.Remembers) (database table : String) :
    e.knownSchema database table = readSchema e.disk database table := by
  unfold Engine.knownSchema
  split
  · rename_i schema hkey
    exact (h.memory _ _ hkey).symm
  · rfl

theorem Remembers.own (h : e.Remembers) (hsound : e.IsSound) (hopen : e.IsOpen)
    (hnamed : command.isWellNamed = true) (hown : Own who command e e' upkeep) : e'.Remembers := by
  have hdisk := hopen.recalls_own hnamed hown
  have hsound' := hsound.own hnamed hown
  cases hown with
  | quiet hquiet | insert _ hquiet | insertLater _ hquiet | update _ hquiet | updateLater _ hquiet
  | delete _ hquiet | deleteLater _ hquiet | createIndex _ hquiet | createTrigger _ _ hquiet =>
    exact h.recalls hdisk hquiet.read
  | become | begin | rollback | commitNothing | commit | createNothing | createView =>
    exact h.recalls hdisk fun _ _ hkey => .inl hkey
  | @createTable database table definition _ columns made written =>
    refine ⟨hdisk.filed h.filed, fun key schema hkey => ?_⟩
    by_cases hnew : key = (database, table)
    · rw [hnew] at hkey ⊢
      exact hsound'.memory database table schema hnamed hkey
    · refine hdisk.schema h.filed _ _ _ (h.memory key schema ?_)
      rwa [Keyed.get?_insert, if_neg (by simpa using hnew)] at hkey

theorem Remembers.maintains (h : e.Remembers) (hmaintains : Maintains e e') : e'.Remembers :=
  h.recalls (hmaintains.disk.sparesDefinitions fun _ => Index.not_endsIn_json).recalls
    hmaintains.read

theorem Trace.remembers {first : Engine} {executions : List Execution}
    (h : Trace first executions e) (hsound : first.IsSound) (hopen : first.IsOpen)
    (hfirst : first.Remembers) : e.Remembers := by
  induction h with
  | start => exact hfirst
  | @command executions e e₁ who command upkeep h hnamed hown hafter ih =>
    have hone := ih.own (h.isSound hsound) (h.isOpen hopen) hnamed hown
    rcases upkeep_cases upkeep e₁ with hmaintains | ⟨-, jobs, hjobs⟩
    · exact hone.maintains hmaintains
    · rw [hjobs]
      exact ⟨hone.filed, hone.memory⟩
  | createDatabase h name ih =>
    exact ih.recalls (Database.sparesDefinitions_create name _).recalls fun _ _ hkey => .inl hkey
  | reopen h hopened ih =>
    have hdisk := disk_of_reopen (h.isSound hsound) (h.isOpen hopen) hopened
    obtain ⟨log, after, -, rfl⟩ := openOn_eq_ok hopened
    exact ⟨hdisk ▸ ih.filed, fun _ _ hkey => absurd hkey (by simp)⟩
  | pass h nanoseconds ih => exact ⟨ih.filed, ih.memory⟩
  | maintain h hbackground hmaintains ih => exact ih.maintains hmaintains
  | queue h hbackground jobs ih => exact ⟨ih.filed, ih.memory⟩

/-! ### The number of the next entry -/

/-- The times and the numbers of the log fit into their 64 bits. -/
structure FitsWords (e : Engine) : Prop where
  time : e.clock / 1000000 < 2 ^ 64
  count : ∀ entries, Log.entries e.disk e.log = .ok entries → entries.length < 2 ^ 64

/-- No change that waits was asked for later than now. -/
def HasPast (e : Engine) : Prop :=
  ∀ user transaction, e.transactions.get? user = some transaction →
    ∀ entry ∈ transaction.latest, entry.timestamp ≤ e.clock / 1000000

theorem HasPast.endTransaction (h : e.HasPast) (user : String) :
    HasPast { e with transactions := e.transactions.erase user } := by
  intro other transaction hactive
  rw [Keyed.get?_erase] at hactive
  split at hactive
  · exact absurd hactive (by simp)
  · exact h other transaction hactive

theorem HasPast.congr (h : e.HasPast) (htransactions : e'.transactions = e.transactions)
    (hclock : e.clock ≤ e'.clock) : e'.HasPast := by
  intro user transaction hactive entry hentry
  rw [htransactions] at hactive
  exact Nat.le_trans (h user transaction hactive entry hentry) (Nat.div_le_div_right hclock)

theorem HasPast.waiting {user : String} {transaction : Transaction} {entries : List Log.Entry}
    (h : e.HasPast) (hactive : e.transactions.get? user = some transaction)
    (hentries : ∀ entry ∈ entries, entry.timestamp = e.clock / 1000000) :
    (e.waiting user transaction entries).HasPast := by
  intro other found hfound entry hentry
  change (e.transactions.insert user _).get? other = some found at hfound
  rw [Keyed.get?_insert] at hfound
  split at hfound
  · obtain rfl := Option.some.inj hfound
    rcases List.mem_append.1 hentry with hnew | hold
    · exact Nat.le_of_eq (hentries entry (List.mem_reverse.1 hnew))
    · exact h user transaction hactive entry hold
  · exact h other found hfound entry hentry

/-- Time does not go back, and what comes to wait is of its time. -/
theorem HasPast.own (h : e.HasPast) (hown : Own who command e e' upkeep) :
    e.clock ≤ e'.clock ∧ e'.HasPast := by
  have hwaiting {e₁ : Engine} {transaction : Transaction} {entries : List Log.Entry}
      (hquiet : Quiet e e₁) (hactive : e.transactions.get? who.user = some transaction)
      (hentries : ∀ entry ∈ entries, entry.timestamp = e.clock / 1000000) :
      e.clock ≤ (e₁.waiting who.user transaction entries).clock ∧
        (e₁.waiting who.user transaction entries).HasPast :=
    have hclock := Nat.le_of_eq hquiet.clock.symm
    ⟨hclock, (h.congr hquiet.transactions hclock).waiting (by rw [hquiet.transactions, hactive])
      fun entry hentry => by rw [hquiet.clock, hentries entry hentry]⟩
  cases hown with
  | quiet hquiet | insert _ hquiet | update _ hquiet | delete _ hquiet | createIndex _ hquiet
  | createTrigger _ _ hquiet =>
    have hclock := Nat.le_of_eq hquiet.clock.symm
    exact ⟨hclock, h.congr hquiet.transactions hclock⟩
  | become | createNothing | createTable | createView => exact ⟨Nat.le_refl _, h⟩
  | begin id hfree =>
    have hclock : e.clock ≤ e.clock + 1 := Nat.le_succ _
    refine ⟨hclock, fun other found hfound entry hentry => ?_⟩
    rw [Keyed.get?_insert] at hfound
    split at hfound
    · rw [← Option.some.inj hfound] at hentry
      exact absurd hentry (by simp)
    · exact Nat.le_trans (h other found hfound entry hentry) (Nat.div_le_div_right hclock)
  | rollback | commitNothing | commit => exact ⟨Nat.le_refl _, h.endTransaction who.user⟩
  | insertLater hdatabase hquiet hactive =>
    exact hwaiting hquiet hactive fun entry hentry => by rw [List.mem_singleton.1 hentry]; rfl
  | updateLater hdatabase hquiet hactive =>
    refine hwaiting hquiet hactive fun entry hentry => ?_
    obtain ⟨pair, -, rfl⟩ := List.mem_map.1 hentry
    rfl
  | deleteLater hdatabase hquiet hactive =>
    refine hwaiting hquiet hactive fun entry hentry => ?_
    obtain ⟨row, -, rfl⟩ := List.mem_map.1 hentry
    rfl

/-- Whatever was logged can be read, under the numbers from one on. -/
structure Journals (e : Engine) : Prop where
  ended : ∃ text, e.disk.textAt e.log.path = .ok text ∧ Text.IsEnded text
  times : e.HasPast
  records : e.FitsWords → ∃ entries, e.Records entries ∧ Log.highest entries = entries.length

theorem IsSound.endsIn_log (h : e.IsSound) : Path.EndsIn ".log" e.log.path := by
  obtain ⟨place, text, hlocate, hends⟩ := h.log
  obtain ⟨before, name, home, hpath, -, rfl, -⟩ := Disk.locate_file hlocate
  exact hends.congr (by rw [hpath]; simp)

theorem entries_of_textAt {log : Log} {disk : Disk} {text : String}
    (h : disk.textAt log.path = .ok text) :
    Log.entries disk log = .ok (Log.entriesOf text) := by
  rw [Log.entries, Disk.textOr_eq_ok.2 h]
  rfl

theorem Records.congr {entries : List Log.Entry} (h : e.Records entries)
    (hsettings : e'.settings = e.settings) (hlog : e'.log = e.log)
    (hdisk : ∀ text, e.disk.textAt e.log.path = .ok text → e'.disk.textAt e.log.path = .ok text) :
    e'.Records entries := by
  obtain ⟨text, htext, hended, hentries⟩ := h.text
  refine ⟨by rw [hsettings, hlog]; exact h.path, by rw [hlog]; exact h.next, text, ?_, hended, hentries⟩
  rw [hlog]
  exact hdisk text htext

/-- What has nothing to do with the log. -/
theorem Journals.spares (h : e.Journals) (hsound : e.IsSound) (hsettings : e'.settings = e.settings)
    (hlog : e'.log = e.log) (hdisk : Disk.SparesLogs e.disk e'.disk) (hclock : e.clock ≤ e'.clock)
    (htimes : e'.HasPast) : e'.Journals := by
  have htext (text : String) (h : e.disk.textAt e.log.path = .ok text) :
      e'.disk.textAt e.log.path = .ok text := hdisk.textAt hsound.endsIn_log h
  obtain ⟨text, hbefore, hended⟩ := h.ended
  have hafter : e'.disk.textAt e'.log.path = .ok text := by
    rw [hlog]
    exact htext text hbefore
  refine ⟨⟨text, hafter, hended⟩, htimes, fun hfits => ?_⟩
  have hfits' : e.FitsWords := by
    refine ⟨Nat.lt_of_le_of_lt (Nat.div_le_div_right hclock) hfits.time, fun entries hentries => ?_⟩
    refine hfits.count entries ?_
    rw [entries_of_textAt hbefore] at hentries
    rw [entries_of_textAt hafter, hentries]
  obtain ⟨entries, hrecords, hcount⟩ := h.records hfits'
  exact ⟨entries, hrecords.congr hsettings hlog htext, hcount⟩

theorem Journals.maintains (h : e.Journals) (hsound : e.IsSound) (hmaintains : Maintains e e') :
    e'.Journals := by
  have hclock := Nat.le_of_eq hmaintains.clock.symm
  exact h.spares hsound hmaintains.settings hmaintains.log
    (hmaintains.disk.sparesLogs fun _ => Index.not_endsIn_log) hclock
    (h.times.congr hmaintains.transactions hclock)

/-- What a commit logs is read behind what was logged before. -/
theorem Journals.commit (h : e.Journals) (hsound : e.IsSound) (hopen : e.IsOpen)
    {user : String} {transaction : Transaction}
    (hactive : e.transactions.get? user = some transaction) {logged disk : Disk}
    {done : List Log.Entry} {failure : Option Error}
    (hlog : e.log.write (Log.numbered e.log.next transaction.changes) e.disk = (.ok (), logged))
    (happly : Log.Entry.performAll (Log.numbered e.log.next transaction.changes) logged
      = ((done, failure), disk)) : (e.committed user transaction.changes disk).Journals := by
  obtain ⟨text, hbefore, hended⟩ := h.ended
  obtain ⟨-, text', hbefore', hlogged⟩ := hopen.write hlog
  obtain rfl := Except.ok.inj (hbefore'.symm.trans hbefore)
  have happlied (text : String) (h : logged.textAt e.log.path = .ok text) :
      disk.textAt e.log.path = .ok text := by
    have hrewrites := Log.Entry.rewrites_performAll
      (Log.numbered e.log.next transaction.changes) logged
    rw [happly] at hrewrites
    exact (hrewrites.sparesLogs fun _ hends => hends.not (by decide)).textAt hsound.endsIn_log h
  have hafter := happlied _ hlogged
  refine ⟨⟨_, hafter, hended.append (Text.isEnded_ofLines _)⟩, h.times.endTransaction user,
    fun hfits => ?_⟩
  · have htimes : ∀ change ∈ transaction.changes, change.timestamp < 2 ^ 64 := fun change hchange =>
      Nat.lt_of_le_of_lt (h.times user transaction hactive change (List.mem_reverse.1 hchange))
        hfits.time
    have hread : Log.entries disk (e.committed user transaction.changes disk).log
        = .ok (Log.entriesOf _) := entries_of_textAt hafter
    rw [Log.entriesOf_append hended, Log.entriesOf_ofLines
      (Log.isStorable_numbered hopen.next htimes)] at hread
    have hcount := hfits.count _ hread
    rw [List.length_append, Log.length_numbered] at hcount
    have hfits' : e.FitsWords := by
      refine ⟨hfits.time, fun entries hentries => ?_⟩
      rw [entries_of_textAt hbefore] at hentries
      rw [← Except.ok.inj hentries]
      omega
    obtain ⟨entries, hrecords, hhighest⟩ := h.records hfits'
    have hentries : Log.entriesOf text' = entries :=
      Except.ok.inj ((entries_of_textAt hbefore).symm.trans hrecords.entries_eq)
    rw [hentries] at hcount
    obtain ⟨after, huse, hrecords'⟩ := hrecords.write htimes (by rw [hhighest]; exact hcount)
    rcases logChanges_apply transaction.changes e with ⟨hno, -⟩ | ⟨logged', hlog', hrun⟩
    · exact absurd (congrArg Prod.fst hlog) hno
    obtain rfl := congrArg Prod.snd (hlog'.symm.trans hlog)
    rw [useLog, hrun] at huse
    obtain rfl := Except.ok.inj huse
    refine ⟨_, hrecords'.congr rfl rfl happlied, ?_⟩
    rw [Log.highest_append_numberedBehind, hhighest, List.length_append, Log.numberedBehind,
      List.length_mapIdx]

theorem Journals.own (h : e.Journals) (hsound : e.IsSound) (hopen : e.IsOpen)
    (hown : Own who command e e' upkeep) : e'.Journals := by
  obtain ⟨hclock, htimes⟩ := h.times.own hown
  by_cases hother : command = .transaction .commit
  · have hspared (hlog : e'.log = e.log) (hdisk : e'.disk = e.disk) : e'.Journals :=
      h.spares hsound hown.frame.1 hlog (by rw [hdisk]; exact refl e.disk) hclock htimes
    subst hother
    cases hown with
    | quiet hquiet => exact hspared hquiet.log hquiet.disk
    | commitNothing => exact hspared rfl rfl
    | commit hrole hactive hchanges hlog happly => exact h.commit hsound hopen hactive hlog happly
  · obtain ⟨hlog, hdisk⟩ := hown.sparesLogs hother
    exact h.spares hsound hown.frame.1 hlog hdisk hclock htimes

theorem Journals.reopen (h : e.Journals) (hsound : e.IsSound) (hopen : e.IsOpen)
    (hopened : e.reopen = .ok e') : e'.Journals := by
  obtain ⟨text, htext, hended⟩ := h.ended
  have hdisk := disk_of_reopen hsound hopen hopened
  have hpath : e'.log.path = e.log.path := by
    rw [(isOpen_openOn hopened).path, hopen.path]
    obtain ⟨log, after, -, rfl⟩ := openOn_eq_ok hopened
    rfl
  have hentries : Log.entries e'.disk e'.log = Log.entries e.disk e.log := by
    rw [Log.entries, Log.entries, hdisk, hpath]
  refine ⟨⟨text, by rw [hdisk, hpath, htext], hended⟩, ?_, fun hfits => ?_⟩
  · obtain ⟨log, after, -, rfl⟩ := openOn_eq_ok hopened
    exact fun user transaction hactive => absurd hactive (by simp)
  · have hclock : e'.clock = e.clock := by
      obtain ⟨log, after, -, rfl⟩ := openOn_eq_ok hopened
      rfl
    obtain ⟨entries, hrecords, hcount⟩ :=
      h.records ⟨hclock ▸ hfits.time, fun entries h => hfits.count entries (hentries.trans h)⟩
    obtain ⟨after, hafter, hrecords'⟩ := hrecords.reopen
    obtain rfl := Except.ok.inj (hafter.symm.trans hopened)
    exact ⟨entries, hrecords', hcount⟩

theorem Trace.journals {first : Engine} {executions : List Execution}
    (h : Trace first executions e) (hsound : first.IsSound) (hopen : first.IsOpen)
    (hfirst : first.Journals) : e.Journals := by
  induction h with
  | start => exact hfirst
  | @command executions e e₁ who command upkeep h hnamed hown hafter ih =>
    have hone := ih.own (h.isSound hsound) (h.isOpen hopen) hown
    have hsound' := (h.isSound hsound).own hnamed hown
    rcases upkeep_cases upkeep e₁ with hmaintains | ⟨-, jobs, hjobs⟩
    · exact hone.maintains hsound' hmaintains
    · rw [hjobs]
      exact hone.spares hsound' rfl rfl (refl e₁.disk) (Nat.le_refl _) hone.times
  | createDatabase h name ih =>
    have hcreated : Action.Within Disk.SparesLogs (Database.create name) :=
      (Database.grows_create name).mono fun _ _ h => h.mono (fun _ _ => trivial) fun _ => id
    exact ih.spares (h.isSound hsound) rfl rfl (hcreated _) (Nat.le_refl _) ih.times
  | reopen h hopened ih => exact ih.reopen (h.isSound hsound) (h.isOpen hopen) hopened
  | @pass executions e h nanoseconds ih =>
    have hclock : e.clock ≤ e.clock + nanoseconds := Nat.le_add_right _ _
    exact ih.spares (h.isSound hsound) rfl rfl (refl _) hclock (ih.times.congr rfl hclock)
  | maintain h hbackground hmaintains ih => exact ih.maintains (h.isSound hsound) hmaintains
  | queue h hbackground jobs ih =>
    exact ih.spares (h.isSound hsound) rfl rfl (refl _) (Nat.le_refl _) ih.times

theorem journals_openOn {settings : Settings} {clock : Nat} {disk : Disk}
    (hnone : ∀ place text, disk.at? place ≠ some (.file text))
    (hopened : openOn settings clock disk = .ok e) : e.Journals := by
  have hempty : e.disk.textAt e.log.path = .ok "" := by
    obtain ⟨log, after, hlog, rfl⟩ := openOn_eq_ok hopened
    rw [(Log.openAt_eq_ok hlog).1]
    exact Log.textAt_of_openAt hlog hnone
  refine ⟨⟨"", hempty, .inl rfl⟩, ?_, fun _ => ⟨[], records_openOn hopened hempty (.inl rfl), rfl⟩⟩
  obtain ⟨log, after, -, rfl⟩ := openOn_eq_ok hopened
  exact fun user transaction hactive => absurd hactive (by simp)

/-- An engine that only has in memory what is on its disk is a twin of itself opened anew. -/
theorem twins_reopen (hremembers : e.Remembers) (hopen : e.IsOpen) {entries : List Log.Entry}
    (hrecords : e.Records entries) (hrole : e.role = .master) (hjobs : e.latestJobs = [])
    (hfree : ∀ user, e.inTransaction user = false) :
    ∃ opened, e.reopen = .ok opened ∧ Twins (fun _ => False) e opened := by
  obtain ⟨text, htext, -, hentries⟩ := hrecords.text
  have hlog : e.log = ⟨Path.log e.settings, Log.nextNumber (Log.entriesOf text)⟩ := by
    rw [← hopen.path, hentries, ← hrecords.next]
  rw [hopen.path] at htext
  refine ⟨_, openOn_of_text htext e.clock, ⟨rfl, rfl, fun database table => ?_⟩, hlog.symm, hrole.symm,
    hjobs.symm, rfl, fun user _ => ?_, hremembers.filed, hopen.path⟩
  · exact (hremembers.knownSchema database table).symm
  · have hnone := hfree user
    rw [inTransaction, Keyed.contains, Option.isSome_eq_false_iff, Option.isNone_iff_eq_none] at hnone
    exact hnone.symm

end Engine

namespace Run

theorem remembers_first (run : Run) : run.first.Remembers := by
  obtain ⟨log, after, hlog, hfirst⟩ := Engine.openOn_eq_ok run.opened
  rw [hfirst]
  exact ⟨((Log.sparesDefinitions_openAt _).after hlog).recalls.filed Disk.isFiled_empty,
    fun _ _ hkey => absurd hkey (by simp)⟩

/-- Opening an engine anew is not seen. Where nobody is in a transaction and the node is a master, it
succeeds, and whatever happens later, all statements are answered the same and all files hold the
same, as long as the numbers in the log fit into their 64 bits. -/
theorem same_reopened (run : Run) (hinline : run.settings.background = false)
    (hmaster : run.last.role = .master) (hfree : ∀ user, run.last.inTransaction user = false)
    (hfits : run.last.FitsWords) :
    ∃ opened, run.last.reopen = .ok opened ∧ ∀ later,
      answers later opened = answers later run.last ∧
        (afterEvents opened later).disk = (afterEvents run.last later).disk := by
  have hopen := Engine.isOpen_openOn run.opened
  have hjournals := run.trace.journals run.isSound_first hopen
    (Engine.journals_openOn (fun _ _ hfile => absurd hfile (by simp)) run.opened)
  obtain ⟨entries, hrecords, -⟩ := hjournals.records hfits
  obtain ⟨-, hidle⟩ := run.twins_last hinline
  obtain ⟨opened, hopened, htwins⟩ := Engine.twins_reopen
    (run.trace.remembers run.isSound_first hopen run.remembers_first) run.isOpen_last hrecords hmaster
    hidle.latestJobs hfree
  refine ⟨opened, hopened, fun later => ?_⟩
  obtain ⟨hanswers, hlast⟩ := htwins.afterEvents hidle later
  exact ⟨hanswers, hlast.view.disk⟩

/-- A run that ends behind a commit. -/
def committedRow : Run :=
  .script "asep" "kantor" ["CREATE TABLE t id:INT:PK, nama:STRING", "BEGIN", "INSERT t 1|a", "COMMIT"]

/-- Statements that use the log and what is in memory. -/
def laterStatements : List Event :=
  [byAuthor "BEGIN", byAuthor "INSERT t 2|b", byAuthor "COMMIT", byAuthor "INSERT t 1|c",
    byAuthor "SELECT * FROM t"]

theorem same_reopened_committedRow :
    ∃ opened, committedRow.last.reopen = .ok opened ∧
      answers laterStatements opened = answers laterStatements committedRow.last ∧
        (afterEvents opened laterStatements).disk
          = (afterEvents committedRow.last laterStatements).disk := by
  have hlast : committedRow.last.transactions = .empty ∧ committedRow.last.role = .master ∧
      committedRow.last.clock / 1000000 < 2 ^ 64 ∧
      (Log.entries committedRow.last.disk committedRow.last.log).map List.length = .ok 1 := by
    decide +kernel
  obtain ⟨hnobody, hmaster, htime, hcount⟩ := hlast
  have hfree : ∀ user, committedRow.last.inTransaction user = false := by
    intro user
    rw [Engine.inTransaction, hnobody]
    rfl
  have hfits : committedRow.last.FitsWords := by
    refine ⟨htime, fun entries hentries => ?_⟩
    rw [hentries] at hcount
    rw [Except.ok.inj hcount]
    decide
  obtain ⟨opened, hopened, hlater⟩ := committedRow.same_reopened rfl hmaster hfree hfits
  exact ⟨opened, hopened, hlater laterStatements⟩

end Run

end FlatFileDb
