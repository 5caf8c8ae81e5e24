import FlatFileDb.Proofs.Invariant

/-!
# Applying the changes of a commit

A commit applies its changes one after the other, each to the table that the ones before it left.
`Execution.applications` lists them with the disk that each one found. On the rows of its table a
change is `Log.Entry.change?`, and nothing else lies elsewhere after it.
-/

namespace FlatFileDb

/-- A change of a commit, and the disk that it finds. -/
structure Application where
  entry : Log.Entry
  disk : Disk
  deriving DecidableEq, Repr

namespace Log.Entry

/-- The changes that are made, each with the disk that it finds. -/
def applications : List Entry → Disk → List Application
  | [], _ => []
  | entry :: rest, disk =>
    match entry.perform disk with
    | (.ok (), after) => ⟨entry, disk⟩ :: applications rest after
    | (.error _, _) => []

/-- What an entry makes of the rows of its table; none if it does not find its row. -/
def change? (entry : Entry) (rows : List String) : Option (List String) :=
  match entry.operation with
  | .insert => some (rows ++ [entry.row])
  | .update => Table.changeFirst? entry.rowId (fun _ => [entry.row]) rows
  | .delete => Table.changeFirst? entry.rowId (fun _ => []) rows

end Log.Entry

/-- The changes that an execution applies: none unless it commits a transaction that can be logged. -/
def Execution.applications (x : Execution) : List Application :=
  match x.command, Engine.authorize x.who x.command x.before.role,
    x.before.transactions.get? x.who.user with
  | .transaction .commit, .ok (), some transaction =>
    let entries := Log.numbered x.before.log.next transaction.changes
    match x.before.log.write entries x.before.disk with
    | (.ok (), logged) => Log.Entry.applications entries logged
    | (.error _, _) => []
  | _, _, _ => []

/-! ### Files of tables that are there -/

namespace Table

variable {disk : Disk} {database table text : String} {place : Path}

theorem rows_of_locate (h : disk.locate (Path.table database table) = .ok (place, .file text)) :
    rows disk database table = .ok (Text.filledLines text) := by
  unfold rows
  rw [Disk.textOr_eq_ok.2 (Disk.textAt_eq_ok.2 ⟨place, h⟩)]
  rfl

theorem append_of_locate (h : disk.locate (Path.table database table) = .ok (place, .file text))
    (row : String) :
    append database table row disk = (.ok (), disk.put place (.file (text ++ (row ++ "\n")))) := by
  unfold append Disk.appendFile
  rw [Action.read_bind, Disk.textOr_eq_ok.2 (Disk.textAt_eq_ok.2 ⟨place, h⟩)]
  exact Disk.writeFile_of_place (Disk.filePlace?_of_file h) _

theorem modify_of_locate {α : Type}
    (h : disk.locate (Path.table database table) = .ok (place, .file text))
    (f : List String → Except Error (List String × α)) :
    modify database table f disk
      = match f (Text.filledLines text) with
        | .ok (after, a) => (.ok a, disk.put place (.file (Text.ofLines after)))
        | .error e => (.error e, disk) := by
  unfold modify
  rw [Action.read_bind, rows_of_locate h]
  dsimp only
  rw [Action.ofExcept_bind]
  cases f (Text.filledLines text) with
  | error e => rfl
  | ok result =>
    obtain ⟨after, a⟩ := result
    exact Action.bind_of_ok (Disk.writeFile_of_place (Disk.filePlace?_of_file h) _)

theorem changeRow_of_locate (h : disk.locate (Path.table database table) = .ok (place, .file text))
    (id : String) (f : String → List String) :
    changeRow database table id f disk
      = match changeFirst? id f (Text.filledLines text) with
        | some rows => (.ok (), disk.put place (.file (Text.ofLines rows)))
        | none => (.error (.unknownRow table id), disk) := by
  unfold changeRow
  rw [modify_of_locate h]
  cases changeFirst? id f (Text.filledLines text) <;> rfl

/-- Lines written one behind the other are read back, but for blank ones. -/
theorem filledLines_ofLines {rows : List String} (h : ∀ row ∈ rows, Text.IsLine row) :
    Text.filledLines (Text.ofLines rows) = rows.filter Text.isFilled :=
  (Text.lists_ofLines h).filledLines

theorem filledLines_append {lines : List String} {row : String} (h : Text.Lists text lines)
    (hrow : Text.IsLine row) :
    Text.filledLines (text ++ (row ++ "\n"))
      = (Text.filledLines text ++ [row]).filter Text.isFilled := by
  rw [(h.append hrow).filledLines, h.filledLines, List.filter_append, List.filter_append,
    List.filter_filter]
  simp

end Table

namespace Log.Entry

variable {entry : Entry} {entries : List Entry} {disk disk' : Disk}

/-! ### One change -/

theorem isLine_change? (hentry : entry.IsSound) {rows after : List String}
    (h : entry.change? rows = some after) (hrows : ∀ row ∈ rows, Text.IsLine row) :
    ∀ row ∈ after, Text.IsLine row := by
  unfold change? at h
  cases hoperation : entry.operation with
  | insert =>
    rw [hoperation] at h
    intro row hrow
    rw [← Option.some.inj h, List.mem_append, List.mem_singleton] at hrow
    rcases hrow with hrow | rfl
    · exact hrows row hrow
    · exact hentry.row
  | update =>
    rw [hoperation] at h
    exact Table.forall_of_changeFirst? h hrows fun _ line hline => by
      rw [List.mem_singleton.1 hline]
      exact hentry.row
  | delete =>
    rw [hoperation] at h
    exact Table.forall_of_changeFirst? h hrows fun _ line hline => absurd hline (by simp)

/-- A change whose table is there is made if it finds its row. -/
theorem perform_of_locate (hdisk : disk.IsCatalogued) (hentry : entry.IsSound) {place : Path}
    {text : String}
    (h : disk.locate (Path.table entry.database entry.table) = .ok (place, .file text)) :
    (∃ rows text', entry.change? (Text.filledLines text) = some rows ∧
        Text.filledLines text' = rows.filter Text.isFilled ∧
        entry.perform disk = (.ok (), disk.put place (.file text'))) ∨
      entry.change? (Text.filledLines text) = none ∧
        entry.perform disk = (.error (.unknownRow entry.table entry.rowId), disk) := by
  obtain ⟨front, name, home, hpath, -, rfl, hthere, -⟩ := Disk.locate_file h
  obtain ⟨lines, hlines⟩ := hdisk.lines _ _ hthere
    ((Path.endsIn_table entry.database entry.table).congr (by rw [hpath]; simp))
  have hrows : ∀ row ∈ Text.filledLines text, Text.IsLine row :=
    fun row hrow => hlines.isLine_of_mem hrow
  unfold perform
  cases hoperation : entry.operation with
  | insert =>
    refine .inl ⟨_, _, ?_, Table.filledLines_append hlines hentry.row,
      Table.append_of_locate h entry.row⟩
    rw [change?, hoperation]
  | update =>
    dsimp only
    rw [Table.replaceRow, Table.changeRow_of_locate h]
    cases hchange : Table.changeFirst? entry.rowId (fun _ => [entry.row]) (Text.filledLines text) with
    | none => exact .inr ⟨by rw [change?, hoperation, hchange], rfl⟩
    | some rows =>
      have hchange' : entry.change? (Text.filledLines text) = some rows := by
        rw [change?, hoperation, hchange]
      exact .inl ⟨rows, _, hchange',
        Table.filledLines_ofLines (isLine_change? hentry hchange' hrows), rfl⟩
  | delete =>
    dsimp only
    rw [Table.removeRow, Table.changeRow_of_locate h]
    cases hchange : Table.changeFirst? entry.rowId (fun _ => []) (Text.filledLines text) with
    | none => exact .inr ⟨by rw [change?, hoperation, hchange], rfl⟩
    | some rows =>
      have hchange' : entry.change? (Text.filledLines text) = some rows := by
        rw [change?, hoperation, hchange]
      exact .inl ⟨rows, _, hchange',
        Table.filledLines_ofLines (isLine_change? hentry hchange' hrows), rfl⟩

theorem perform_error {failure : Error} (h : entry.perform disk = (.error failure, disk')) :
    disk' = disk := by
  have hchanged {f : String → List String}
      (h : Table.changeRow entry.database entry.table entry.rowId f disk
        = (.error failure, disk')) : disk' = disk := by
    rcases Engine.modify_cases h with ⟨-, hdisk⟩ | ⟨_, _, _, -, -, hresult, -⟩
    · exact hdisk
    · exact absurd hresult (by simp)
  unfold perform at h
  cases hoperation : entry.operation with
  | insert =>
    rw [hoperation] at h
    exact Engine.appendFile_error h
  | update =>
    rw [hoperation] at h
    exact hchanged h
  | delete =>
    rw [hoperation] at h
    exact hchanged h

/-- A change that is made has found its table. -/
theorem locate_of_perform (h : entry.perform disk = (.ok (), disk')) :
    ∃ place text,
      disk.locate (Path.table entry.database entry.table) = .ok (place, .file text) := by
  have hchanged {f : String → List String}
      (h : Table.changeRow entry.database entry.table entry.rowId f disk = (.ok (), disk')) :
      ∃ text, disk.textAt (Path.table entry.database entry.table) = .ok text := by
    rcases Engine.modify_cases h with ⟨⟨_, hresult⟩, -⟩ | ⟨_, _, _, hrows, -⟩
    · exact absurd hresult (by simp)
    · obtain ⟨text, htext, -⟩ := Action.of_bind_eq_ok hrows
      exact ⟨text, Disk.textOr_eq_ok.1 htext⟩
  have htext : ∃ text, disk.textAt (Path.table entry.database entry.table) = .ok text := by
    unfold perform at h
    cases hoperation : entry.operation with
    | insert =>
      rw [hoperation] at h
      rcases Engine.appendFile_cases (.tableFileMissing entry.table)
        (Path.table entry.database entry.table) (entry.row ++ "\n") disk with
        ⟨failure, -, hwrite⟩ | ⟨before, place, hbefore, -⟩
      · exact absurd (congrArg Prod.fst (hwrite.symm.trans h)) (by simp)
      · exact ⟨before, hbefore⟩
    | update =>
      rw [hoperation] at h
      exact hchanged h
    | delete =>
      rw [hoperation] at h
      exact hchanged h
  obtain ⟨text, htext⟩ := htext
  obtain ⟨place, hplace⟩ := Disk.textAt_eq_ok.1 htext
  exact ⟨place, text, hplace⟩

/-- A change that is made writes what it makes of the rows of its table over them. -/
theorem perform_eq_ok (hdisk : disk.IsCatalogued) (hentry : entry.IsSound)
    (h : entry.perform disk = (.ok (), disk')) :
    ∃ home text text' rows, Database.LiesAt disk entry.database home ∧
      disk.at? (Path.tablePlace home entry.table) = some (.file text) ∧
      Table.rows disk entry.database entry.table = .ok (Text.filledLines text) ∧
      entry.change? (Text.filledLines text) = some rows ∧
      Text.filledLines text' = rows.filter Text.isFilled ∧
      Table.rows disk' entry.database entry.table = .ok (rows.filter Text.isFilled) ∧
      disk' = disk.put (Path.tablePlace home entry.table) (.file text') := by
  obtain ⟨place, text, hlocate⟩ := locate_of_perform h
  have hrows := Table.rows_of_locate hlocate
  obtain ⟨home, text₁, hhome, hlocate₁, hthere, -⟩ := Table.rows_eq_ok hentry.table hrows
  have hsame := hlocate.symm.trans hlocate₁
  rw [Except.ok.injEq, Prod.mk.injEq, DiskEntry.file.injEq] at hsame
  obtain ⟨rfl, rfl⟩ := hsame
  rcases perform_of_locate hdisk hentry hlocate with
    ⟨rows, text', hchange, htext', hperform⟩ | ⟨-, hperform⟩
  · have hafter : disk' = disk.put (Path.tablePlace home entry.table) (.file text') :=
      congrArg Prod.snd (h.symm.trans hperform)
    refine ⟨home, text, text', rows, hhome, hthere, hrows, hchange, htext', ?_, hafter⟩
    rw [hafter, ← htext']
    exact Table.rows_of_locate (Disk.locate_put (Disk.filePlace?_of_file hlocate) text')
  · exact absurd (congrArg Prod.fst (h.symm.trans hperform)) (by simp)

/-! ### All changes of a commit -/

/-- What every change keeps holds in the end. -/
theorem performAll_induction {P : Disk → Prop} (h : P disk)
    (hstep : ∀ a ∈ applications entries disk, ∀ after,
      P a.disk → a.entry.perform a.disk = (.ok (), after) → P after) :
    P (performAll entries disk).2 := by
  induction entries generalizing disk with
  | nil => exact h
  | cons entry rest ih =>
    rw [performAll]
    rw [applications] at hstep
    cases hperform : entry.perform disk with
    | mk result after =>
    rw [hperform] at hstep
    cases result with
    | error failure =>
      dsimp only
      rw [perform_error hperform]
      exact h
    | ok _ =>
      exact ih (hstep ⟨entry, disk⟩ (by simp) after h hperform)
        fun a ha => hstep a (List.mem_cons_of_mem _ ha)

/-- A change that was made was asked for, and what the ones before it keep holds of its disk. -/
theorem mem_applications {R : Disk → Disk → Prop} [IsPreorder Disk R] {a : Application}
    (ha : a ∈ applications entries disk) (hR : ∀ entry ∈ entries, Action.Within R entry.perform) :
    a.entry ∈ entries ∧ R disk a.disk ∧ ∃ after, a.entry.perform a.disk = (.ok (), after) := by
  induction entries generalizing disk with
  | nil => exact absurd ha (by simp [applications])
  | cons entry rest ih =>
    rw [applications] at ha
    cases hperform : entry.perform disk with
    | mk result after =>
    rw [hperform] at ha
    cases result with
    | error failure => exact absurd ha (by simp)
    | ok _ =>
      rw [List.mem_cons] at ha
      rcases ha with rfl | ha
      · exact ⟨by simp, refl disk, after, hperform⟩
      · obtain ⟨hmem, hafter, hmade⟩ :=
          ih ha fun other hother => hR other (List.mem_cons_of_mem _ hother)
        exact ⟨List.mem_cons_of_mem _ hmem,
          IsTrans.trans _ _ _ ((hR entry (by simp)).after hperform) hafter, hmade⟩

end Log.Entry

/-- Only a commit applies changes: those of the transaction of its user, once they are logged. -/
theorem Execution.committing {x : Execution} {a : Application} (ha : a ∈ x.applications) :
    ∃ transaction logged, x.command = .transaction .commit ∧
      x.before.transactions.get? x.who.user = some transaction ∧
      x.before.log.write (Log.numbered x.before.log.next transaction.changes) x.before.disk
        = (.ok (), logged) ∧
      a ∈ Log.Entry.applications (Log.numbered x.before.log.next transaction.changes) logged := by
  unfold applications at ha
  split at ha
  · rename_i transaction hcommand hrole hactive
    dsimp only at ha
    split at ha
    · rename_i logged hlog
      exact ⟨transaction, logged, hcommand, hactive, hlog, ha⟩
    · exact absurd ha (by simp)
  · exact absurd ha (by simp)

theorem Execution.applications_of_commit {who : Identity} {e : Engine} {transaction : Transaction}
    {logged : Disk} (hrole : Engine.authorize who (.transaction .commit) e.role = .ok ())
    (hactive : e.transactions.get? who.user = some transaction)
    (hlog : e.log.write (Log.numbered e.log.next transaction.changes) e.disk = (.ok (), logged)) :
    applications ⟨who, .transaction .commit, e⟩
      = Log.Entry.applications (Log.numbered e.log.next transaction.changes) logged := by
  unfold applications
  dsimp only
  rw [hrole, hactive]
  dsimp only
  rw [hlog]

end FlatFileDb
