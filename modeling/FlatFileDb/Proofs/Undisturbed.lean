import FlatFileDb.Proofs.Buffer
import FlatFileDb.Proofs.Prefix
import FlatFileDb.Proofs.Single

/-!
# Transactions that nobody disturbs

What a transaction updates or deletes was there when the statement was issued. If no table is written
before the commit it is still there then, but for what the entries of the same transaction do to it:
they are applied one after the other, and each of them uses up the identifier that it looks for and
brings the one that it writes. Counting both says of every entry whether a row is left for it, and so
whether the whole commit succeeds.
-/

namespace FlatFileDb

/-- How many rows of the file at a place have an identifier. -/
def Disk.identified (disk : Disk) (place : Path) (id : String) : Nat :=
  match disk.at? place with
  | some (.file text) => ((Text.filledLines text).map Row.id).count id
  | _ => 0

namespace Log.Entry

/-- Where the table of an entry lies. -/
def place? (disk : Disk) (entry : Entry) : Option Path :=
  match disk.locate (Path.table entry.database entry.table) with
  | .ok (place, .file _) => some place
  | _ => none

/-- Whether an entry uses up a row with an identifier in the table at a place. -/
def takes (disk : Disk) (place : Path) (id : String) (entry : Entry) : Bool :=
  entry.operation != .insert && entry.rowId == id && entry.place? disk == some place

/-- Whether an entry writes a row with an identifier to the table at a place. -/
def brings (disk : Disk) (place : Path) (id : String) (entry : Entry) : Bool :=
  entry.operation != .delete && Text.isFilled entry.row && Row.id entry.row == id &&
    entry.place? disk == some place

/-- Whether a row is left for an entry once the entries in front of it are applied: either it looks
for none, or those in front used up fewer rows with its identifier than there were or came. -/
def isLeft (disk : Disk) (front : List Entry) (entry : Entry) : Bool :=
  match entry.place? disk with
  | none => false
  | some place => entry.operation == .insert ||
      decide (front.countP (takes disk place entry.rowId)
        < disk.identified place entry.rowId + front.countP (brings disk place entry.rowId))

variable {entry : Entry} {entries front : List Entry} {disk after : Disk} {place : Path}

theorem place?_eq_some : entry.place? disk = some place ↔
    ∃ text, disk.locate (Path.table entry.database entry.table) = .ok (place, .file text) := by
  unfold place?
  split <;> simp_all

/-- Where the tables lie does not change. -/
theorem place?_of_rewrites {written : Path → Prop} (h : Disk.Rewrites written disk after)
    (hplace : entry.place? disk = some place) : entry.place? after = some place := by
  obtain ⟨text, hlocate⟩ := place?_eq_some.1 hplace
  obtain ⟨text', hlocate', -⟩ := h.grows.locate_file hlocate
  exact place?_eq_some.2 ⟨text', hlocate'⟩

theorem place?_congr {written : Path → Prop} (h : Disk.Rewrites written disk after)
    (entry : Entry) : entry.place? after = entry.place? disk := by
  cases hplace : entry.place? disk with
  | some place => exact place?_of_rewrites h hplace
  | none =>
    cases hafter : entry.place? after with
    | none => rfl
    | some place => exact absurd (place?_of_rewrites h.symm hafter) (by rw [hplace]; simp)

/-! ### One entry -/

theorem count_changeFirst? {f : String → List String} {rows changed : List String} {id : String}
    (h : Table.changeFirst? id f rows = some changed)
    (hrows : ∀ row ∈ rows, Text.isFilled row = true) (other : String) {found : List String}
    (hfound : ∀ row, (f row).filter Text.isFilled = found) :
    ((changed.filter Text.isFilled).map Row.id).count other + (if id = other then 1 else 0)
      = (rows.map Row.id).count other + (found.map Row.id).count other := by
  obtain ⟨before, row, rest, rfl, hid, -, rfl⟩ := Table.changeFirst?_eq_some h
  have hbefore : before.filter Text.isFilled = before :=
    List.filter_eq_self.2 fun other hother => hrows other (by simp [hother])
  have hrest : rest.filter Text.isFilled = rest :=
    List.filter_eq_self.2 fun other hother => hrows other (by simp [hother])
  simp only [List.filter_append, hbefore, hrest, hfound, List.map_append, List.map_cons,
    List.count_append, List.count_cons, hid, beq_iff_eq]
  omega

/-- What an entry does to the numbers of rows with an identifier, where it is applied to rows. -/
theorem count_change? {rows changed : List String} (h : entry.change? rows = some changed)
    (hrows : ∀ row ∈ rows, Text.isFilled row = true) (id : String) :
    ((changed.filter Text.isFilled).map Row.id).count id
        + (if entry.operation ≠ .insert ∧ entry.rowId = id then 1 else 0)
      = (rows.map Row.id).count id
        + (if entry.operation ≠ .delete ∧ Text.isFilled entry.row = true ∧ Row.id entry.row = id then 1
          else 0) := by
  have hone : (([entry.row].filter Text.isFilled).map Row.id).count id
      = if Text.isFilled entry.row = true ∧ Row.id entry.row = id then 1 else 0 := by
    by_cases hfilled : Text.isFilled entry.row = true <;> simp [hfilled, List.count_singleton]
  unfold change? at h
  cases hoperation : entry.operation with
  | insert =>
    rw [hoperation] at h
    rw [← Option.some.inj h, List.filter_append, List.filter_eq_self.2 hrows, List.map_append,
      List.count_append, hone]
    simp
  | update =>
    rw [hoperation] at h
    have hcount := count_changeFirst? h hrows id fun _ => rfl
    rw [hone] at hcount
    simpa using hcount
  | delete =>
    rw [hoperation] at h
    have hcount := count_changeFirst? h hrows id fun _ => rfl
    simpa using hcount

theorem isSome_change? {rows : List String} : (entry.change? rows).isSome = true ↔
    entry.operation = .insert ∨ 0 < (rows.map Row.id).count entry.rowId := by
  have hchanged {f : String → List String} : (Table.changeFirst? entry.rowId f rows).isSome = true ↔
      0 < (rows.map Row.id).count entry.rowId := by
    rw [List.count_pos_iff, List.mem_map, ← Bool.not_eq_false, Option.isSome_eq_false_iff,
      Option.isNone_iff_eq_none, Table.changeFirst?_eq_none]
    push Not
    rfl
  unfold change?
  cases entry.operation <;> simp [hchanged]

/-- Of an entry alone: it is applied just if a row is left for it, and then it uses up one row and
brings one. -/
theorem perform_of_place? (hdisk : disk.IsCatalogued) (hentry : entry.IsSound)
    (hplace : entry.place? disk = some place) :
    (∃ after, entry.isLeft disk [] = true ∧ entry.perform disk = (.ok (), after) ∧
        after.IsCatalogued ∧ ∀ other id,
          after.identified other id + [entry].countP (takes disk other id)
            = disk.identified other id + [entry].countP (brings disk other id)) ∨
      entry.isLeft disk [] = false ∧
        entry.perform disk = (.error (.unknownRow entry.table entry.rowId), disk) := by
  obtain ⟨text, hlocate⟩ := place?_eq_some.1 hplace
  obtain ⟨-, -, -, -, -, -, hthere, -⟩ := Disk.locate_file hlocate
  have hfilled : ∀ row ∈ Text.filledLines text, Text.isFilled row = true :=
    fun row hrow => (hdisk.row (Table.rows_of_locate hlocate) row hrow).2
  have hleft : entry.isLeft disk [] = true ↔
      (entry.change? (Text.filledLines text)).isSome = true := by
    rw [isSome_change?, isLeft, hplace]
    simp [Disk.identified, hthere]
  rcases perform_of_locate hdisk hentry hlocate with
    ⟨rows, text', hchange, htext', hperform⟩ | ⟨hnone, hperform⟩
  · refine .inl ⟨_, hleft.2 (by rw [hchange]; rfl), hperform, ?_, fun other id => ?_⟩
    · have hkeeps : Disk.Keeps True disk (disk.put place (.file text')) :=
        (keeps_perform hentry).after hperform
      exact hkeeps.isCatalogued hdisk
    · rw [List.countP_singleton, List.countP_singleton, takes, brings, hplace]
      by_cases hother : other = place
      · subst hother
        have hcount := count_change? hchange hfilled id
        rw [← htext'] at hcount
        simpa [Disk.identified, hthere, and_assoc] using hcount
      · have hne : (some place == some other) = false := by simpa using Ne.symm hother
        simp [Disk.identified, hother, hne]
  · refine .inr ⟨?_, hperform⟩
    rw [← Bool.not_eq_true, hleft, hnone]
    simp

/-! ### All entries -/

/-- Whether a row is left for an entry is the same before and after the first entry in front. -/
theorem isLeft_cons (hdisks : Disk.Rewrites (Path.EndsIn ".mg") disk after) {first : Entry}
    (hcount : ∀ other id, after.identified other id + [first].countP (takes disk other id)
      = disk.identified other id + [first].countP (brings disk other id)) (front : List Entry)
    (entry : Entry) : entry.isLeft disk (first :: front) = entry.isLeft after front := by
  have htakes : takes after = takes disk := by
    funext place id other
    rw [takes, takes, place?_congr hdisks]
  have hbrings : brings after = brings disk := by
    funext place id other
    rw [brings, brings, place?_congr hdisks]
  unfold isLeft
  rw [place?_congr hdisks, htakes, hbrings]
  cases entry.place? disk with
  | none => rfl
  | some place =>
    have hone := hcount place entry.rowId
    dsimp only
    rw [← List.singleton_append, List.countP_append, List.countP_append]
    refine congrArg (entry.operation == .insert || ·) (decide_eq_decide.2 ?_)
    omega

/-- Entries whose tables are there are all applied if a row is left for each of them; else the first
for which none is left is the one that fails. -/
theorem performAll_of_place? (hdisk : disk.IsCatalogued) (hentries : ∀ entry ∈ entries, entry.IsSound)
    (hplaces : ∀ entry ∈ entries, ∃ place, entry.place? disk = some place) :
    (∃ last, performAll entries disk = ((entries, none), last) ∧
        ∀ front next rest, entries = front ++ next :: rest → next.isLeft disk front = true) ∨
      ∃ front next rest last, entries = front ++ next :: rest ∧ next.isLeft disk front = false ∧
        performAll entries disk = ((front, some (.unknownRow next.table next.rowId)), last) := by
  induction entries generalizing disk with
  | nil => exact .inl ⟨disk, rfl, fun front next rest h => absurd h (by simp)⟩
  | cons entry rest ih =>
    obtain ⟨place, hplace⟩ := hplaces entry (by simp)
    rcases perform_of_place? hdisk (hentries entry (by simp)) hplace with
      ⟨after, hleft, hperform, hafter, hcount⟩ | ⟨hleft, hperform⟩
    · have hdisks := rewrites_perform entry disk
      rw [hperform] at hdisks
      have hshift := isLeft_cons hdisks hcount
      have hplaces' : ∀ other ∈ rest, ∃ place, other.place? after = some place := by
        intro other hother
        rw [place?_congr hdisks]
        exact hplaces other (by simp [hother])
      rcases ih hafter (fun other hother => hentries other (by simp [hother])) hplaces' with
        ⟨last, hall, hrest⟩ | ⟨front, next, more, last, rfl, hnone, hall⟩
      · refine .inl ⟨last, by rw [performAll, hperform]; dsimp only; rw [hall], ?_⟩
        rintro (_ | ⟨first, front⟩) next more hsplit
        · rw [List.nil_append, List.cons.injEq] at hsplit
          rw [← hsplit.1]
          exact hleft
        · rw [List.cons_append, List.cons.injEq] at hsplit
          rw [← hsplit.1, hshift]
          exact hrest front next more hsplit.2
      · refine .inr ⟨entry :: front, next, more, last, rfl, by rw [hshift]; exact hnone, ?_⟩
        rw [performAll, hperform]
        dsimp only
        rw [hall]
    · exact .inr ⟨[], entry, rest, disk, rfl, hleft, by rw [performAll, hperform]⟩

end Log.Entry

namespace Engine

variable {e : Engine} {user : String} {transaction : Transaction}

/-- What waits can be applied where its table is. -/
theorem IsSound.isSound_numbered (h : e.IsSound)
    (hactive : e.transactions.get? user = some transaction) {entry : Log.Entry}
    (hentry : entry ∈ Log.numbered e.log.next transaction.changes) :
    entry.IsSound ∧
      ∃ schema, Engine.readSchema e.disk entry.database entry.table = .ok schema := by
  obtain ⟨before, hbefore, number, rfl⟩ := Log.mem_numbered hentry
  obtain ⟨hsound, hschema⟩ :=
    h.waiting user transaction hactive before (List.mem_reverse.1 hbefore)
  exact ⟨⟨hsound.table, hsound.row⟩, hschema⟩

/-- A commit whose tables are there makes all changes if a row is left for each of them; else it fails
at the first for which none is left. -/
theorem IsSound.commit_of_place? (h : e.IsSound)
    (hactive : e.transactions.get? user = some transaction)
    (hplaces : ∀ entry ∈ Log.numbered e.log.next transaction.changes,
      ∃ place, entry.place? e.disk = some place) :
    let entries := Log.numbered e.log.next transaction.changes
    ((∀ front next rest, entries = front ++ next :: rest → next.isLeft e.disk front = true) ∧
        ∃ e', commit user e = (.ok (transaction.id, entries), e')) ∨
      ∃ front next rest e', entries = front ++ next :: rest ∧ next.isLeft e.disk front = false ∧
        commit user e = (.error
          (.partlyApplied transaction.id (.unknownRow next.table next.rowId) front), e') := by
  dsimp only
  have hentries := Log.Entry.performAll_of_place? h.disk
    (fun entry hentry => (h.isSound_numbered hactive hentry).1) hplaces
  cases hcommit : commit user e with
  | mk result e' =>
  have hcommits := commit_cases user e
  rw [hcommit] at hcommits
  cases hcommits with
  | noTransaction hfree => exact absurd (hfree.symm.trans hactive) (by simp)
  | @nothing found hfound hempty =>
    obtain rfl := Option.some.inj (hfound.symm.trans hactive)
    rw [Transaction.changes, hempty]
    exact .inl ⟨fun front next rest hsplit => absurd hsplit (by simp [Log.numbered]), _, rfl⟩
  | @logFailure found hfound hnonempty hlog =>
    obtain ⟨logged, hwrite, -⟩ := h.writeLog (Log.numbered e.log.next found.changes)
    exact absurd (by rw [hwrite]) hlog
  | @applied found logged disk done failure hfound hnonempty hlog happly =>
    obtain rfl := Option.some.inj (hfound.symm.trans hactive)
    obtain ⟨logged', hwrite, hrewrites, -⟩ := h.writeLog (Log.numbered e.log.next found.changes)
    obtain rfl : logged = logged' := congrArg Prod.snd (hlog.symm.trans hwrite)
    obtain ⟨hsame, -⟩ :=
      Log.Entry.performAll_alike hrewrites (Log.numbered e.log.next found.changes)
    rw [happly] at hsame
    rcases hentries with ⟨last, hall, hleft⟩ | ⟨front, next, rest, last, hsplit, hnone, hall⟩
    · rw [hall, Prod.mk.injEq] at hsame
      obtain ⟨rfl, rfl⟩ := hsame
      exact .inl ⟨hleft, _, rfl⟩
    · rw [hall, Prod.mk.injEq] at hsame
      obtain ⟨rfl, rfl⟩ := hsame
      exact .inr ⟨_, next, rest, _, hsplit, hnone, rfl⟩

/-- What an update or a deletion waits for was there when it was issued. -/
theorem Buffers.identified {who : Identity} {command : Command} {entry : Log.Entry}
    (h : Buffers who command e entry) (hinsert : entry.operation ≠ .insert) :
    ∃ rows, Table.rows e.disk entry.database entry.table = .ok rows ∧
      0 < (rows.map Row.id).count entry.rowId := by
  cases h with
  | insert => exact absurd rfl hinsert
  | update _ _ _ _ hrows hfound _ | delete _ _ _ hrows hfound _ =>
    exact ⟨_, hrows, List.count_pos_iff.2 (List.mem_map_of_mem hfound)⟩

end Engine

/-- Whoever begins or ends a transaction has selected a database and may do so. -/
theorem Engine.authorize_of_isOk {e : Engine} {who : Identity} {text : String}
    {control : TransactionControl} (hparse : Statement.parse text = .ok (.transaction control))
    (h : (Engine.run (some who) text e).1.isOk = true) :
    authorize who (.transaction control) e.role = .ok () ∧
      ∃ database, who.requireDatabase = .ok database := by
  have hallowed : authorize who (.transaction control) e.role = .ok () := by
    cases hallowed : authorize who (.transaction control) e.role with
    | ok _ => rfl
    | error failure =>
      rw [run_of_parse hparse, perform_of_error (congrArg Prod.fst (effect_of_refused hallowed))] at h
      exact nomatch h
  refine ⟨hallowed, ?_⟩
  cases hdatabase : who.requireDatabase with
  | ok database => exact ⟨database, rfl⟩
  | error failure =>
    unfold authorize at hallowed
    rw [hdatabase] at hallowed
    exact nomatch hallowed

/-- What a beginning that succeeds changes. -/
theorem Engine.run_begin {e : Engine} {who : Identity} {text : String}
    (hparse : Statement.parse text = .ok (.transaction .begin))
    (hfree : e.inTransaction who.user = false)
    (h : (Engine.run (some who) text e).1.isOk = true) :
    ∃ id, (Engine.run (some who) text e).2
      = { e with
          clock := e.clock + 1
          transactions := e.transactions.insert who.user { id, latest := [] } } := by
  obtain ⟨-, database, hdatabase⟩ := authorize_of_isOk hparse h
  obtain ⟨id, -, hbegun⟩ := @perform_begin who e (executeWithin e.settings.nestingLimit)
    e.settings.nestingLimit database hdatabase hfree
  exact ⟨id, by rw [run_of_parse hparse, hbegun]⟩

/-- A beginning that succeeds leaves a transaction in which nothing waits. -/
theorem Engine.begun_of_isOk {e : Engine} {who : Identity}
    (h : (Engine.run (some who) "BEGIN" e).1.isOk = true) :
    ∃ id, (Engine.run (some who) "BEGIN" e).2.transactions.get? who.user = some ⟨id, []⟩ := by
  cases hfree : e.inTransaction who.user with
  | false =>
    obtain ⟨id, hbegun⟩ := run_begin parse_begin hfree h
    exact ⟨id, by rw [hbegun]; simp⟩
  | true =>
    obtain ⟨hallowed, database, hdatabase⟩ := authorize_of_isOk parse_begin h
    have hfails : (effect (executeWithin e.settings.nestingLimit) who (.transaction .begin) e).1
        = .error (.transactionActive who.user) := by
      rw [effect_of_authorize hallowed hdatabase (by simp) (by simp)]
      have hbegin : begin who.user e = (.error (.transactionActive who.user), e) := by
        rw [begin, Action.get_bind, if_pos hfree]
        rfl
      change ((Effect.ofOutcome <$> executeBegin who) e).1 = _
      rw [Action.map_apply, executeBegin, Action.bind_of_error hbegin]
      rfl
    rw [run_of_parse parse_begin, perform_of_error hfails] at h
    cases h

/-- Whether an event goes well. -/
def Event.succeeds (engine : Engine) : Event → Bool
  | statement session text => (Engine.run session text engine).1.isOk
  | _ => true

theorem Event.succeeds_statement (engine : Engine) (session : Session) (text : String) :
    succeeds engine (statement session text) = (Engine.run session text engine).1.isOk := rfl

namespace Run

/-- Whether events go well, one after the other. -/
def succeedDuring : List Event → Engine → Bool
  | [], _ => true
  | event :: rest, engine => event.succeeds engine && succeedDuring rest (event.after engine)

/-- The run ends in a transaction of somebody. Every statement since its beginning has succeeded, and
the rows that a table had at one of them it has in the end. -/
structure IsUndisturbed (run : Run) (who : Identity) (earlier during : List Event) : Prop where
  events : run.events = earlier ++ .statement (some who) "BEGIN" :: during
  succeed : succeedDuring (.statement (some who) "BEGIN" :: during)
    (afterEvents run.first earlier) = true
  keep : ∀ x ∈ executionsDuring during
      (Engine.run (some who) "BEGIN" (afterEvents run.first earlier)).2,
    ∀ database table rows, Table.rows x.before.disk database table = .ok rows →
      Table.rows run.last.disk database table = .ok rows

variable {run : Run} {who : Identity} {earlier during : List Event}

/-- From the beginning of the transaction to the end of the run. -/
theorem IsUndisturbed.trace (h : run.IsUndisturbed who earlier during) :
    ∃ begun : Engine, begun.IsSound ∧
      (∃ id, begun.transactions.get? who.user = some ⟨id, []⟩) ∧
      Engine.Trace begun (executionsDuring during begun) run.last ∧
      begun = (Engine.run (some who) "BEGIN" (afterEvents run.first earlier)).2 := by
  have hearlier := Engine.Trace.run_events earlier .start fun _ => run.latestJobs_first
  have hbegun := hearlier.run_statement (some who) "BEGIN"
  refine ⟨_, hbegun.isSound run.isSound_first, ?_, ?_, rfl⟩
  · have hsucceed := h.succeed
    rw [succeedDuring, Bool.and_eq_true] at hsucceed
    exact Engine.begun_of_isOk hsucceed.1
  · have hlast : run.last = afterEvents
        (Engine.run (some who) "BEGIN" (afterEvents run.first earlier)).2 during := by
      rw [last, h.events, afterEvents, List.foldl_append]
      rfl
    rw [hlast]
    refine (Engine.Trace.run_events during .start fun hbackground => ?_)
    refine hbegun.latestJobs_eq_nil ?_ run.latestJobs_first
    rw [← hbegun.settings_eq]
    exact hbackground

/-- Of the rows that an update or a deletion looks for at least one is there in the end. -/
theorem IsUndisturbed.identified (h : run.IsUndisturbed who earlier during)
    {transaction : Transaction} (hactive : run.last.transactions.get? who.user = some transaction)
    {entry : Log.Entry} (hentry : entry ∈ Log.numbered run.last.log.next transaction.changes)
    (hinsert : entry.operation ≠ .insert) :
    ∃ place, entry.place? run.last.disk = some place ∧
      0 < run.last.disk.identified place entry.rowId := by
  obtain ⟨begun, -, ⟨id, hbegun⟩, htrace, rfl⟩ := h.trace
  obtain ⟨before, hbefore, number, rfl⟩ := Log.mem_numbered hentry
  obtain ⟨y, hy, -, hbuffers⟩ := htrace.waiting
    (fun found hfound => by rw [← Option.some.inj (hbegun.symm.trans hfound)]) hactive
    (List.mem_reverse.1 hbefore)
  obtain ⟨rows, hrows, hcount⟩ := hbuffers.identified hinsert
  obtain ⟨place, text, hlocate, hread⟩ := Table.locate_of_rows (h.keep y hy _ _ rows hrows)
  obtain ⟨-, -, -, -, -, -, hthere, -⟩ := Disk.locate_file hlocate
  refine ⟨place, Log.Entry.place?_eq_some.2 ⟨text, hlocate⟩, ?_⟩
  rw [Disk.identified, hthere]
  dsimp only
  rw [hread]
  exact hcount

/-- An undisturbed transaction is committed as a whole if a row is left for each of its entries.
Otherwise, where no directory is in the way of a table, the commit fails at an update or a deletion:
the rows that it looks for are there, but the entries in front of it use all of them up. -/
theorem IsUndisturbed.commit_last (h : run.IsUndisturbed who earlier during)
    {transaction : Transaction}
    (hactive : run.last.transactions.get? who.user = some transaction) :
    let entries := Log.numbered run.last.log.next transaction.changes
    ((∀ front next rest, entries = front ++ next :: rest → next.isLeft run.last.disk front = true) →
        ∃ e', Engine.commit who.user run.last = (.ok (transaction.id, entries), e')) ∧
      (run.settings.isApart = true →
        ¬(∀ front next rest, entries = front ++ next :: rest →
          next.isLeft run.last.disk front = true) →
          ∃ front next rest place e', entries = front ++ next :: rest ∧
            next.operation ≠ .insert ∧ next.place? run.last.disk = some place ∧
            0 < run.last.disk.identified place next.rowId ∧
            next.isLeft run.last.disk front = false ∧
            Engine.commit who.user run.last = (.error
              (.partlyApplied transaction.id (.unknownRow next.table next.rowId) front), e')) := by
  dsimp only
  have hsound := run.isSound_last
  constructor
  · intro hleft
    have hplaces : ∀ entry ∈ Log.numbered run.last.log.next transaction.changes,
        ∃ place, entry.place? run.last.disk = some place := by
      intro entry hentry
      obtain ⟨front, rest, hsplit⟩ := List.append_of_mem hentry
      have hentryLeft := hleft front entry rest hsplit
      unfold Log.Entry.isLeft at hentryLeft
      cases hplace : entry.place? run.last.disk with
      | none =>
        rw [hplace] at hentryLeft
        exact absurd hentryLeft (by simp)
      | some place => exact ⟨place, rfl⟩
    rcases hsound.commit_of_place? hactive hplaces with
      ⟨-, hcommit⟩ | ⟨front, next, rest, e', hsplit, hnone, -⟩
    · exact hcommit
    · exact absurd (hleft front next rest hsplit) (by rw [hnone]; simp)
  · intro hapart hnot
    have hplaces : ∀ entry ∈ Log.numbered run.last.log.next transaction.changes,
        ∃ place, entry.place? run.last.disk = some place := by
      intro entry hentry
      obtain ⟨hentrySound, schema, hread⟩ := hsound.isSound_numbered hactive hentry
      obtain ⟨place, text, hlocate⟩ := hsound.locate_of_readSchema
        (by rw [run.settings_last]; exact hapart) hentrySound.table hread
      exact ⟨place, Log.Entry.place?_eq_some.2 ⟨text, hlocate⟩⟩
    rcases hsound.commit_of_place? hactive hplaces with
      ⟨hleft, -⟩ | ⟨front, next, rest, e', hsplit, hnone, hcommit⟩
    · exact absurd hleft hnot
    · have hinsert : next.operation ≠ .insert := by
        intro hinsert
        obtain ⟨place, hplace⟩ := hplaces next (by rw [hsplit]; simp)
        rw [Log.Entry.isLeft, hplace, hinsert] at hnone
        exact absurd hnone (by simp)
      obtain ⟨place, hplace, hcount⟩ :=
        h.identified hactive (by rw [hsplit]; simp : next ∈ _) hinsert
      exact ⟨front, next, rest, place, e', hsplit, hinsert, hplace, hcount, hnone, hcommit⟩

/-- Nobody is disturbed where the whole disk stays as it is. -/
theorem isUndisturbed_of_disk {earlier during : List Event}
    (hevents : run.events = earlier ++ .statement (some who) "BEGIN" :: during)
    (hsucceed : succeedDuring (.statement (some who) "BEGIN" :: during)
      (afterEvents run.first earlier) = true)
    (hdisk : ∀ x ∈ executionsDuring during
      (Engine.run (some who) "BEGIN" (afterEvents run.first earlier)).2,
        x.before.disk = run.last.disk) : run.IsUndisturbed who earlier during :=
  ⟨hevents, hsucceed, fun x hx database table rows hrows => by rwa [← hdisk x hx]⟩

/-- A transaction with two updates of one row and a deletion of another one. -/
def severalChanges : Run :=
  .script "asep" "kantor"
    ["CREATE TABLE t id:INT, nama:STRING", "INSERT t 1|a", "INSERT t 2|b", "BEGIN",
      "UPDATE t SET nama=c WHERE id = 1", "UPDATE t SET nama=d WHERE id = 1",
      "DELETE FROM t WHERE id = 2"]

theorem commit_last_severalChanges :
    ∃ transaction, severalChanges.last.transactions.get? "asep" = some transaction ∧
      transaction.changes.length = 3 ∧ ∃ done e',
        Engine.commit "asep" severalChanges.last = (.ok (transaction.id, done), e') := by
  have hundisturbed : severalChanges.IsUndisturbed author (severalChanges.events.take 4)
      (severalChanges.events.drop 5) :=
    isUndisturbed_of_disk (by decide +kernel) (by decide +kernel) (by decide +kernel)
  have hrun : ∃ h : (severalChanges.last.transactions.get? "asep").isSome = true,
      let transaction := (severalChanges.last.transactions.get? "asep").get h
      let entries := Log.numbered severalChanges.last.log.next transaction.changes
      transaction.changes.length = 3 ∧ ∀ position (hposition : position < entries.length),
        entries[position].isLeft severalChanges.last.disk (entries.take position) = true := by
    decide +kernel
  obtain ⟨h, hlength, hleft⟩ := hrun
  obtain ⟨transaction, hactive⟩ := Option.isSome_iff_exists.1 h
  rw [Option.get_of_eq_some h hactive] at hlength
  simp only [Option.get_of_eq_some h hactive] at hleft
  obtain ⟨e', hcommit⟩ := (hundisturbed.commit_last hactive).1 fun front next rest hsplit => by
    simp only [hsplit] at hleft
    simpa using hleft front.length (by simp)
  exact ⟨transaction, hactive, hlength, _, e', hcommit⟩

/-- What is deleted first is not there any more for the update behind. -/
theorem not_commit_last :
    ¬∀ (run : Run) (who : Identity) (earlier during : List Event) (transaction : Transaction),
      run.IsUndisturbed who earlier during →
        run.last.transactions.get? who.user = some transaction →
          ∃ e', Engine.commit who.user run.last
            = (.ok (transaction.id, Log.numbered run.last.log.next transaction.changes), e') := by
  intro h
  have hundisturbed : deletedRow.IsUndisturbed author (deletedRow.events.take 3)
      (deletedRow.events.drop 4) :=
    isUndisturbed_of_disk (by decide +kernel) (by decide +kernel) (by decide +kernel)
  have hrun : (deletedRow.last.transactions.get? "asep").isSome = true ∧
      (Engine.commit "asep" deletedRow.last).1.isOk = false := by
    decide +kernel
  obtain ⟨hactive, hfails⟩ := hrun
  obtain ⟨transaction, hactive⟩ := Option.isSome_iff_exists.1 hactive
  obtain ⟨e', hcommit⟩ := h _ _ _ _ transaction hundisturbed hactive
  have hcommit' : Engine.commit "asep" deletedRow.last = _ := hcommit
  rw [hcommit'] at hfails
  exact nomatch hfails

end Run

end FlatFileDb
