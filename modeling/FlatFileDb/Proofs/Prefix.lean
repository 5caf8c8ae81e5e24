import FlatFileDb.Proofs.Application

/-!
# How far a commit gets

A commit writes all changes of a transaction to the log and then makes them one after the other, up to
the first that cannot be made. `Log.Entry.Applies` says what it is that some changes are all made;
those that a commit makes are the longest front of its changes of which this is true. Writing the log
does not bear on that: disks that differ in the text of the log only go alike under every change.
-/

namespace FlatFileDb

namespace Table

/-- Where the files of tables are the same, so are their rows. -/
theorem rows_alike {written : Path → Prop} (hwritten : ∀ place, written place → ¬Path.EndsIn ".mg" place)
    {disk disk' : Disk} (h : Disk.Rewrites written disk disk') (database table : String) :
    rows disk' database table = rows disk database table := by
  unfold rows
  rw [h.textOr_eq fun place hlast hno =>
    hwritten place hno ((Path.endsIn_table database table).congr hlast)]

variable {written : Path → Prop} (hwritten : ∀ place, written place → ¬Path.EndsIn ".mg" place)

include hwritten

theorem alike_append (database table row : String) :
    Action.Alike (Disk.Rewrites written) (append database table row) :=
  Disk.alike_appendFile _ (fun place hlast hno =>
    hwritten place hno ((Path.endsIn_table database table).congr hlast)) _

theorem alike_modify {α : Type} (database table : String)
    (f : List String → Except Error (List String × α)) :
    Action.Alike (Disk.Rewrites written) (modify database table f) :=
  .bind (.read fun _ _ h => rows_alike hwritten h database table) fun _ =>
    .bind (.ofExcept _) fun (_, _) => .bind (Disk.alike_writeFile _ _) fun _ => .pure _

end Table

namespace Log

theorem length_numbered (first : Nat) (entries : List Entry) :
    (numbered first entries).length = entries.length := by
  induction entries generalizing first with
  | nil => rfl
  | cons entry rest ih => rw [numbered, List.length_cons, List.length_cons, ih]

/-- Each entry gets the number behind that of the entry before it. -/
theorem getElem?_numbered {first : Nat} (hfirst : first < 2 ^ 64) (entries : List Entry)
    (position : Nat) :
    (numbered first entries)[position]?
      = entries[position]?.map fun entry => { entry with number := numberAfter first position } := by
  induction entries generalizing first position with
  | nil => rfl
  | cons entry rest ih =>
    cases position with
    | zero =>
      rw [numbered, List.getElem?_cons_zero, List.getElem?_cons_zero, Option.map_some, numberAfter,
        Nat.add_zero, Nat.mod_eq_of_lt hfirst]
    | succ position =>
      rw [numbered, List.getElem?_cons_succ, List.getElem?_cons_succ,
        @ih (numberAfter first 1) (Nat.mod_lt _ (Nat.two_pow_pos 64)) position]
      have hnumber : numberAfter (numberAfter first 1) position = numberAfter first (position + 1) := by
        rw [numberAfter, numberAfter, numberAfter, Nat.mod_add_mod, Nat.add_assoc,
          Nat.add_comm 1 position]
      rw [hnumber]

/-- An open log goes on behind what it holds. -/
theorem openAt_next {path : Path} {disk after : Disk} {log : Log} (h : openAt path disk = (.ok log, after)) :
    ∃ text, after.textAt path = .ok text ∧ log.next = nextNumber (entriesOf text) := by
  unfold openAt at h
  rcases Action.bind_cases h with ⟨failure, -, hno⟩ | ⟨⟨⟩, made, -, h⟩
  · exact absurd hno (by simp)
  rw [Action.get_bind] at h
  split at h
  · rcases Action.bind_cases h with ⟨failure, -, hno⟩ | ⟨found, disk₁, hfound, hlog⟩
    · exact absurd hno (by simp)
    · obtain ⟨hread, rfl⟩ := Prod.mk.inj hfound
      obtain ⟨hnew, rfl⟩ := Prod.mk.inj hlog
      obtain ⟨text, htext, hentries⟩ := Action.of_bind_eq_ok hread
      obtain rfl := Except.ok.inj hentries
      exact ⟨text, Disk.textOr_eq_ok.1 htext, by rw [← Except.ok.inj hnew]⟩
  · rcases Action.bind_cases h with ⟨failure, -, hno⟩ | ⟨⟨⟩, disk₁, hwrite, hlog⟩
    · exact absurd hno (by simp)
    · obtain ⟨hnew, rfl⟩ := Prod.mk.inj hlog
      rcases Disk.writeFile_cases path "" made with hno | ⟨place, hplace, hwritten⟩
      · exact absurd (congrArg Prod.fst (hno.symm.trans hwrite)) (by simp)
      · obtain rfl := congrArg Prod.snd (hwritten.symm.trans hwrite)
        refine ⟨"", Disk.textAt_eq_ok.2 ⟨place, Disk.locate_put hplace ""⟩, ?_⟩
        have hnone : entriesOf "" = [] := rfl
        rw [← Except.ok.inj hnew, hnone]
        rfl

namespace Entry

/-- The changes of all the entries are made in order, from one disk to another. -/
inductive Applies : List Entry → Disk → Disk → Prop where
  | nil {disk : Disk} : Applies [] disk disk
  | cons {entry : Entry} {rest : List Entry} {disk after last : Disk}
    (hfirst : entry.perform disk = (.ok (), after)) (hrest : Applies rest after last) :
    Applies (entry :: rest) disk last

variable {entry : Entry} {entries done : List Entry} {disk disk' last : Disk}
  {failure : Option Error} {written : Path → Prop}

/-! ### Changes and the log -/

/-- A change writes its table and nothing else. -/
theorem rewrites_perform (entry : Entry) (disk : Disk) :
    Disk.Rewrites (Path.EndsIn ".mg") disk (entry.perform disk).2 := by
  have hput {place : Path} {text : String} (text' : String)
      (h : disk.locate (Path.table entry.database entry.table) = .ok (place, .file text)) :
      Disk.Rewrites (Path.EndsIn ".mg") disk (disk.put place (.file text')) := by
    obtain ⟨-, -, -, -, -, -, hthere, -⟩ := Disk.locate_file h
    exact Disk.rewrites_put (Path.endsIn_of_locate h (Path.endsIn_table _ _)) hthere text'
  cases hperform : entry.perform disk with
  | mk result after =>
  cases result with
  | error failure =>
    rw [perform_error hperform]
    exact refl disk
  | ok _ =>
    obtain ⟨place, text, hlocate⟩ := locate_of_perform hperform
    unfold perform at hperform
    cases hoperation : entry.operation <;> rw [hoperation] at hperform <;> dsimp only at hperform
    · rw [Table.append_of_locate hlocate] at hperform
      rw [← congrArg Prod.snd hperform]
      exact hput _ hlocate
    all_goals
      first | rw [Table.replaceRow] at hperform | rw [Table.removeRow] at hperform
      rw [Table.changeRow_of_locate hlocate] at hperform
      split at hperform
      · rw [← congrArg Prod.snd hperform]
        exact hput _ hlocate
      · exact absurd (congrArg Prod.fst hperform) (by simp)

theorem rewrites_performAll (entries : List Entry) (disk : Disk) :
    Disk.Rewrites (Path.EndsIn ".mg") disk (performAll entries disk).2 :=
  performAll_induction (refl disk) fun a _ after hdisk hperform => by
    have hafter := rewrites_perform a.entry a.disk
    rw [hperform] at hafter
    exact IsTrans.trans _ _ _ hdisk hafter

/-- Without its table a change fails, for a reason that is read off what lies there. -/
theorem perform_of_textAt_error {why : DiskFailure}
    (h : disk.textAt (Path.table entry.database entry.table) = .error why) :
    entry.perform disk
      = (.error (if why = .missing then .tableFileMissing entry.table else .fileFailure), disk) := by
  have htext : disk.textOr (.tableFileMissing entry.table) (Path.table entry.database entry.table)
      = .error (if why = .missing then .tableFileMissing entry.table else .fileFailure) := by
    unfold Disk.textOr
    rw [h]
    cases why <;> rfl
  have hchanged {f : String → List String} :
      Table.changeRow entry.database entry.table entry.rowId f disk
        = (.error (if why = .missing then .tableFileMissing entry.table else .fileFailure), disk) := by
    unfold Table.changeRow Table.modify
    refine Action.bind_of_error ?_
    rw [Action.read_apply, Table.rows, htext]
    rfl
  unfold perform
  cases entry.operation with
  | insert => exact Action.bind_of_error (by rw [Action.read_apply, htext])
  | update => exact hchanged
  | delete => exact hchanged

/-- Disks that differ in the log only go alike. -/
theorem perform_alike (entry : Entry) :
    Action.Alike (Disk.Rewrites (Path.EndsIn ".log")) entry.perform := by
  have hlog : ∀ place, Path.EndsIn ".log" place → ¬Path.EndsIn ".mg" place :=
    fun place hends => hends.not (by decide)
  unfold perform
  cases entry.operation with
  | insert => exact Table.alike_append hlog _ _ _
  | update => exact Table.alike_modify hlog _ _ _
  | delete => exact Table.alike_modify hlog _ _ _

theorem performAll_alike (h : Disk.Rewrites (Path.EndsIn ".log") disk disk') (entries : List Entry) :
    (performAll entries disk').1 = (performAll entries disk).1 ∧
      Disk.Rewrites (Path.EndsIn ".log") (performAll entries disk).2 (performAll entries disk').2 := by
  induction entries generalizing disk disk' with
  | nil => exact ⟨rfl, h⟩
  | cons entry rest ih =>
    obtain ⟨hresult, hafter⟩ := perform_alike entry disk disk' h
    rw [performAll, performAll]
    cases hperform : entry.perform disk with
    | mk result after =>
    cases hperform' : entry.perform disk' with
    | mk result' after' =>
    rw [hperform, hperform'] at hresult hafter
    dsimp only at hresult hafter
    subst hresult
    cases result' with
    | error failure => exact ⟨rfl, hafter⟩
    | ok _ =>
      obtain ⟨hall, hlast⟩ := ih hafter
      refine ⟨?_, hlast⟩
      dsimp only
      exact congrArg (fun result => (entry :: result.1, result.2)) hall

/-! ### The longest front -/

/-- The changes that are made are all made, and they are all or the next one fails on what they
leave. -/
theorem applies_performAll (h : performAll entries disk = ((done, failure), last)) :
    Applies done disk last ∧
      (failure = none ∧ done = entries ∨ ∃ next rest cause, entries = done ++ next :: rest ∧
        failure = some cause ∧ (next.perform last).1 = .error cause) := by
  induction entries generalizing disk done with
  | nil =>
    rw [performAll, Prod.mk.injEq, Prod.mk.injEq] at h
    obtain ⟨⟨rfl, rfl⟩, rfl⟩ := h
    exact ⟨.nil, .inl ⟨rfl, rfl⟩⟩
  | cons entry rest ih =>
    rw [performAll] at h
    cases hperform : entry.perform disk with
    | mk result after =>
    rw [hperform] at h
    cases result with
    | error cause =>
      rw [Prod.mk.injEq, Prod.mk.injEq] at h
      obtain ⟨⟨rfl, rfl⟩, rfl⟩ := h
      obtain rfl := perform_error hperform
      exact ⟨.nil, .inr ⟨entry, rest, cause, rfl, rfl, by rw [hperform]⟩⟩
    | ok _ =>
      cases hrest : performAll rest after with
      | mk result final =>
      obtain ⟨made, failure'⟩ := result
      dsimp only at h
      rw [hrest, Prod.mk.injEq, Prod.mk.injEq] at h
      obtain ⟨⟨rfl, rfl⟩, rfl⟩ := h
      obtain ⟨happlies, hend⟩ := ih hrest
      refine ⟨.cons hperform happlies, ?_⟩
      rcases hend with ⟨hnone, rfl⟩ | ⟨next, more, cause, rfl, hcause, hnext⟩
      · exact .inl ⟨hnone, rfl⟩
      · exact .inr ⟨next, more, cause, rfl, hcause, hnext⟩

/-- No longer front of the entries could have been made. -/
theorem exists_applies_iff (h : performAll entries disk = ((done, failure), last))
    {front : List Entry} (hfront : front <+: entries) :
    (∃ after, Applies front disk after) ↔ front <+: done := by
  induction entries generalizing disk done front with
  | nil =>
    rw [List.prefix_nil.1 hfront]
    exact ⟨fun _ => List.nil_prefix, fun _ => ⟨disk, .nil⟩⟩
  | cons entry rest ih =>
    cases front with
    | nil => exact ⟨fun _ => List.nil_prefix, fun _ => ⟨disk, .nil⟩⟩
    | cons first front =>
    obtain ⟨rfl, hbehind⟩ := List.cons_prefix_cons.1 hfront
    rw [performAll] at h
    cases hperform : first.perform disk with
    | mk result after =>
    rw [hperform] at h
    cases result with
    | error cause =>
      rw [Prod.mk.injEq, Prod.mk.injEq] at h
      obtain ⟨⟨rfl, -⟩, -⟩ := h
      constructor
      · rintro ⟨final, happlies⟩
        cases happlies with
        | cons hfirst hrest => exact absurd (congrArg Prod.fst (hperform.symm.trans hfirst)) (by simp)
      · exact fun hnil => absurd (List.prefix_nil.1 hnil) (by simp)
    | ok _ =>
      cases hrest : performAll rest after with
      | mk result final =>
      obtain ⟨made, failure'⟩ := result
      dsimp only at h
      rw [hrest, Prod.mk.injEq, Prod.mk.injEq] at h
      obtain ⟨⟨rfl, rfl⟩, rfl⟩ := h
      rw [List.cons_prefix_cons, ← ih hrest hbehind]
      constructor
      · rintro ⟨final, happlies⟩
        cases happlies with
        | cons hfirst hrest =>
          obtain rfl : after = _ := congrArg Prod.snd (hperform.symm.trans hfirst)
          exact ⟨rfl, final, hrest⟩
      · rintro ⟨-, final, happlies⟩
        exact ⟨final, .cons hperform happlies⟩

end Entry

end Log

namespace Engine

/-- How a commit ends that has written its entries to the log: which of them are done, and why the
next one failed if there is one. -/
structure EndsAs (e : Engine) (user : String) (entries done : List Log.Entry)
    (failure : Option Error) (e' : Engine) : Prop where
  logged : ∃ text, e.disk.textAt e.log.path = .ok text ∧
    e'.disk.textAt e'.log.path = .ok (text ++ Text.ofLines (entries.map Log.line))
  log : e'.log = { e.log with next := Log.numberAfter e.log.next entries.length }
  front : done <+: entries
  longest : ∀ front, front <+: entries →
    ((∃ disk, Log.Entry.Applies front e.disk disk) ↔ front <+: done)
  tables : ∃ disk, Log.Entry.Applies done e.disk disk ∧
    (∀ database table, Table.rows e'.disk database table = Table.rows disk database table) ∧
      ∀ cause, failure = some cause →
        ∃ next rest, entries = done ++ next :: rest ∧ (next.perform disk).1 = .error cause
  complete : failure = none ↔ done = entries
  ended : e'.transactions.get? user = none
  others : ∀ other, other ≠ user → e'.transactions.get? other = e.transactions.get? other

/-- The log stands where the settings have it, and its numbers have 64 bits. -/
structure IsOpen (e : Engine) : Prop where
  path : e.log.path = Path.log e.settings
  next : e.log.next < 2 ^ 64

variable {e : Engine} {user : String}

/-- What was written to the log stands behind what was there. -/
theorem IsOpen.write (h : e.IsOpen) {entries : List Log.Entry} {logged : Disk}
    (hwrite : e.log.write entries e.disk = (.ok (), logged)) :
    Disk.Rewrites (Path.EndsIn ".log") e.disk logged ∧
      ∃ text, e.disk.textAt e.log.path = .ok text ∧
        logged.textAt e.log.path = .ok (text ++ Text.ofLines (entries.map Log.line)) := by
  rcases appendFile_cases .fileFailure e.log.path (Text.ofLines (entries.map Log.line)) e.disk with
    ⟨failure, -, hfail⟩ | ⟨text, place, htext, hplace, hdone⟩
  · exact absurd (congrArg Prod.fst (hfail.symm.trans hwrite)) (by simp)
  obtain ⟨place', hlocate⟩ := Disk.textAt_eq_ok.1 htext
  obtain rfl := Option.some.inj (hplace.symm.trans (Disk.filePlace?_of_file hlocate))
  obtain rfl : _ = logged := congrArg Prod.snd (hdone.symm.trans hwrite)
  obtain ⟨before, name, home, hpath, -, hhome, hthere, hname, -⟩ := Disk.locate_file hlocate
  have hends : Path.EndsIn ".log" place := by
    refine (Path.endsIn_log (h.path ▸ hpath) hname).congr ?_
    rw [← h.path, hpath, hhome]
    simp
  exact ⟨Disk.rewrites_put hends hthere _, text, htext,
    Disk.textAt_eq_ok.2 ⟨place, Disk.locate_put hplace _⟩⟩

/-- A commit whose entries are in the log makes the longest front of them that can be made. -/
theorem IsOpen.endsAs (h : e.IsOpen) {changes done : List Log.Entry} {logged disk : Disk}
    {failure : Option Error}
    (hwrite : e.log.write (Log.numbered e.log.next changes) e.disk = (.ok (), logged))
    (happly : Log.Entry.performAll (Log.numbered e.log.next changes) logged
      = ((done, failure), disk)) :
    e.EndsAs user (Log.numbered e.log.next changes) done failure (e.committed user changes disk) := by
  obtain ⟨hlogged, text, hbefore, hafter⟩ := h.write hwrite
  obtain ⟨hsame, hdisks⟩ := Log.Entry.performAll_alike hlogged (Log.numbered e.log.next changes)
  cases hplain : Log.Entry.performAll (Log.numbered e.log.next changes) e.disk with
  | mk result plain =>
  rw [happly, hplain] at hsame hdisks
  dsimp only at hsame hdisks
  subst hsame
  obtain ⟨happlies, hend⟩ := Log.Entry.applies_performAll hplain
  have hlast := Log.Entry.rewrites_performAll (Log.numbered e.log.next changes) logged
  rw [happly] at hlast
  refine
    { logged := ⟨text, hbefore, ?_⟩
      log := rfl
      front := ?_
      longest := fun front hfront => Log.Entry.exists_applies_iff hplain hfront
      tables := ⟨plain, happlies, fun database table => ?_, fun cause hcause => ?_⟩
      complete := ?_
      ended := ?_
      others := fun other hother => ?_ }
  · obtain ⟨place, hlocate⟩ := Disk.textAt_eq_ok.1 hbefore
    obtain ⟨before, name, home, hpath, -, hhome, -, hname, -⟩ := Disk.locate_file hlocate
    have hends : Path.EndsIn ".log" e.log.path := h.path ▸ Path.endsIn_log (h.path ▸ hpath) hname
    refine (hlast.textAt_eq fun place hplace hmg => ?_).trans hafter
    exact (hends.congr hplace).not (by decide) hmg
  · rcases hend with ⟨-, rfl⟩ | ⟨next, rest, cause, hentries, -⟩
    · exact List.prefix_rfl
    · rw [hentries]
      exact List.prefix_append _ _
  · refine Table.rows_of_rewrites hdisks fun place text text' hlocate hthere => ?_
    have hends := Path.endsIn_of_locate hlocate (Path.endsIn_table database table)
    obtain ⟨-, -, -, -, -, -, hfile, -⟩ := Disk.locate_file hlocate
    have hunwritten := (hdisks.grows.unwritten fun hlog => hends.not (by decide) hlog).1 hthere
    rw [hfile, Option.some.injEq, DiskEntry.file.injEq] at hunwritten
    rw [hunwritten]
  · rcases hend with ⟨hnone, -⟩ | ⟨next, rest, cause', hentries, hcause', hnext⟩
    · exact absurd (hnone.symm.trans hcause) (by simp)
    · rw [← Option.some.inj (hcause'.symm.trans hcause)]
      exact ⟨next, rest, hentries, hnext⟩
  · rcases hend with ⟨hnone, hall⟩ | ⟨next, rest, cause, hentries, hcause, -⟩
    · exact ⟨fun _ => hall, fun _ => hnone⟩
    · rw [hcause]
      refine ⟨fun hno => absurd hno (by simp), fun hall => ?_⟩
      rw [hall] at hentries
      exact absurd (congrArg List.length hentries) (by simp)
  · simp [committed]
  · simp [committed, hother]

/-- A commit numbers the changes of a transaction one after the other. Without changes it ends the
transaction and does nothing else; if the log cannot be written it does nothing at all; else it comes
to the longest front of its entries that can be made, and fails with what the next one fails with if
there is a next one. -/
theorem IsOpen.commit_endsAs (h : e.IsOpen) {transaction : Transaction}
    (hactive : e.transactions.get? user = some transaction) :
    let entries := Log.numbered e.log.next transaction.changes
    (∀ position : Nat, entries[position]?
        = transaction.changes[position]?.map fun change : Log.Entry =>
          { change with number := Log.numberAfter e.log.next position }) ∧
      (transaction.changes = [] → Engine.commit user e
        = (.ok (transaction.id, []), { e with transactions := e.transactions.erase user })) ∧
      (transaction.changes ≠ [] → (e.log.write entries e.disk).1 ≠ .ok () →
        Engine.commit user e = (.error .fileFailure, e)) ∧
      (transaction.changes ≠ [] → (e.log.write entries e.disk).1 = .ok () →
        ∃ done failure e', e.EndsAs user entries done failure e' ∧
          Engine.commit user e
            = (match failure with
              | none => .ok (transaction.id, entries)
              | some cause => .error (.partlyApplied transaction.id cause done), e')) := by
  dsimp only
  refine ⟨Log.getElem?_numbered h.next transaction.changes, ?_⟩
  have hchanges : transaction.changes = [] ↔ transaction.latest = [] := List.reverse_eq_nil_iff
  rw [Ne, hchanges]
  cases hcommit : Engine.commit user e with
  | mk result e' =>
  have hcommits := commit_cases user e
  rw [hcommit] at hcommits
  cases hcommits with
  | noTransaction hfree => exact absurd (hfree.symm.trans hactive) (by simp)
  | @nothing found hfound hempty =>
    obtain rfl := Option.some.inj (hfound.symm.trans hactive)
    exact ⟨fun _ => rfl, fun hno => absurd hempty hno, fun hno => absurd hempty hno⟩
  | @logFailure found hfound hnonempty hlog =>
    obtain rfl := Option.some.inj (hfound.symm.trans hactive)
    exact ⟨fun hno => absurd hno hnonempty, fun _ _ => rfl, fun _ hok => absurd hok hlog⟩
  | @applied found logged disk done failure hfound hnonempty hlog happly =>
    obtain rfl := Option.some.inj (hfound.symm.trans hactive)
    refine ⟨fun hno => absurd hno hnonempty, fun _ hno => absurd (by rw [hlog]) hno, fun _ _ => ?_⟩
    have hends : e.EndsAs user _ done failure _ := h.endsAs hlog happly
    refine ⟨done, failure, _, hends, ?_⟩
    cases failure with
    | none =>
      refine Prod.ext ?_ rfl
      exact congrArg (fun made => Except.ok (found.id, made)) (hends.complete.1 rfl)
    | some cause => rfl

/-! ### The log of a run -/

theorem isOpen_openOn {settings : Settings} {clock : Nat} {disk : Disk}
    (h : openOn settings clock disk = .ok e) : e.IsOpen := by
  obtain ⟨log, after, hopen, rfl⟩ := openOn_eq_ok h
  refine ⟨(Log.openAt_eq_ok hopen).1, ?_⟩
  obtain ⟨text, -, hnext⟩ := Log.openAt_next hopen
  change log.next < 2 ^ 64
  rw [hnext]
  exact Nat.mod_lt _ (Nat.two_pow_pos 64)

theorem IsOpen.own {who : Identity} {command : Command} {e₁ : Engine} {upkeep : Upkeep}
    (h : e.IsOpen) (hown : Own who command e e₁ upkeep) : e₁.IsOpen := by
  have hsame {e₂ : Engine} (hsettings : e₂.settings = e.settings) (hlog : e₂.log = e.log) :
      e₂.IsOpen :=
    ⟨by rw [hsettings, hlog]; exact h.path, by rw [hlog]; exact h.next⟩
  cases hown with
  | commit => exact ⟨h.path, Nat.mod_lt _ (Nat.two_pow_pos 64)⟩
  | become | begin | rollback | commitNothing | createNothing | createTable | createView =>
    exact hsame rfl rfl
  | quiet hquiet => exact hsame hquiet.settings hquiet.log
  | insert _ hquiet | insertLater _ hquiet | update _ hquiet | updateLater _ hquiet
  | delete _ hquiet | deleteLater _ hquiet | createIndex _ hquiet | createTrigger _ _ hquiet =>
    exact hsame hquiet.settings hquiet.log

theorem Trace.isOpen {first : Engine} {executions : List Execution}
    (h : Trace first executions e) (hfirst : first.IsOpen) : e.IsOpen := by
  induction h with
  | start => exact hfirst
  | @command executions e e₁ who command upkeep h hnamed hown hafter ih =>
    have hopen := ih.own hown
    rcases upkeep_cases upkeep e₁ with hmaintains | ⟨-, jobs, hjobs⟩
    · exact ⟨by rw [hmaintains.settings, hmaintains.log]; exact hopen.path,
        by rw [hmaintains.log]; exact hopen.next⟩
    · rw [hjobs]
      exact ⟨hopen.path, hopen.next⟩
  | createDatabase h name ih => exact ⟨ih.path, ih.next⟩
  | reopen h hopened ih => exact isOpen_openOn hopened
  | pass h nanoseconds ih => exact ⟨ih.path, ih.next⟩
  | maintain h hbackground hmaintains ih =>
    exact ⟨by rw [hmaintains.settings, hmaintains.log]; exact ih.path,
      by rw [hmaintains.log]; exact ih.next⟩
  | queue h hbackground jobs ih => exact ⟨ih.path, ih.next⟩

end Engine

/-- What a run comes to is open. -/
theorem Run.isOpen_last (run : Run) : run.last.IsOpen :=
  run.trace.isOpen (Engine.isOpen_openOn run.opened)

namespace Run

/-- A transaction that updates the row that it deletes. -/
def deletedRow : Run :=
  .script "asep" "kantor"
    ["CREATE TABLE t id:INT, nama:STRING", "INSERT t 1|a", "BEGIN", "DELETE FROM t WHERE id = 1",
      "UPDATE t SET nama=b WHERE id = 1"]

/-- The commit numbers the two changes and ends as it must. -/
theorem commit_deletedRow :
    ∃ transaction, deletedRow.last.transactions.get? "asep" = some transaction ∧
      transaction.changes.length = 2 ∧
      ∃ done failure e', deletedRow.last.EndsAs "asep"
        (Log.numbered deletedRow.last.log.next transaction.changes) done failure e' := by
  have hrun : ∃ h : (deletedRow.last.transactions.get? "asep").isSome = true,
      let transaction := (deletedRow.last.transactions.get? "asep").get h
      transaction.changes.length = 2 ∧ (deletedRow.last.log.write
        (Log.numbered deletedRow.last.log.next transaction.changes) deletedRow.last.disk).1.isOk := by
    decide +kernel
  obtain ⟨h, hlength, hwrite⟩ := hrun
  obtain ⟨transaction, hactive⟩ := Option.isSome_iff_exists.1 h
  rw [Option.get_of_eq_some h hactive] at hlength hwrite
  refine ⟨transaction, hactive, hlength, ?_⟩
  have hnonempty : transaction.changes ≠ [] := fun hnil => by
    rw [hnil] at hlength
    exact absurd hlength (by decide)
  have hok : (deletedRow.last.log.write (Log.numbered deletedRow.last.log.next transaction.changes)
      deletedRow.last.disk).1 = .ok () := by
    revert hwrite
    cases (deletedRow.last.log.write _ deletedRow.last.disk).1 with
    | ok _ => exact fun _ => rfl
    | error _ => exact fun hno => nomatch hno
  obtain ⟨-, -, -, hends⟩ := deletedRow.isOpen_last.commit_endsAs hactive
  obtain ⟨done, failure, e', hend, -⟩ := hends hnonempty hok
  exact ⟨done, failure, e', hend⟩

end Run

end FlatFileDb
