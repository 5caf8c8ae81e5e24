import FlatFileDb.Proofs.Replay

/-!
# A transaction of one statement

A statement that changes rows is executed at once, or between the beginning and the commit of a
transaction. Both ways the same is checked, and the same check fails. When nothing fails, `BothWays`
says what is stored on the one way and what waits on the other, and the commit makes of it the same
rows if every entry finds its row again.
-/

namespace FlatFileDb

namespace TableSchema

variable (schema : TableSchema)

/-- The assignments of values to columns by name. -/
def assignmentsOf (assigned : List (String × String)) : List Assignment :=
  assigned.filterMap fun (name, value) => do
    let position ← schema.columnIndex? name
    let column ← schema.columns[position]?
    return { position, column, value }

/-- Whether a commit right behind the command would find every row again that the command changes. -/
def findsAgain (rows : List String) : Command → Bool
  | .update _ assigned conditions =>
    Table.findsAgain (schema.matchesRow conditions)
      (fun row => [schema.assign (schema.assignmentsOf assigned.entries) row]) [] rows
  | .delete _ conditions => Table.findsAgain (schema.matchesRow conditions) (fun _ => []) [] rows
  | _ => true

end TableSchema

namespace Engine

/-- Both steps fail, and for the same reason. -/
def FailAlike {α β : Type} (first : Except Error α × Engine) (second : Except Error β × Engine) :
    Prop :=
  ∃ failure, first.1 = .error failure ∧ second.1 = .error failure

section Observing

variable {α β γ : Type} {e e' : Engine}

/-- Observing fails alike in engines that look the same, or comes to the same result in both. -/
theorem Observes.bindAlike {step : Action Engine α} (h : Observes step) (hview : SameView e e')
    (next : α → Action Engine β) (next' : α → Action Engine γ) :
    FailAlike ((step >>= next) e) ((step >>= next') e') ∨
      ∃ a e₁ e₁', Quiet e e₁ ∧ Quiet e' e₁' ∧ SameView e₁ e₁' ∧ (step e).1 = .ok a ∧
        (step >>= next) e = next a e₁ ∧ (step >>= next') e' = next' a e₁' := by
  have hresult := h.stable e e' hview
  have hafter := h.sameView hview
  have hquiet := h.quiet e
  have hquiet' := h.quiet e'
  cases hstep : step e with
  | mk result e₁ =>
  cases hstep' : step e' with
  | mk result' e₁' =>
  rw [hstep, hstep'] at hresult hafter
  rw [hstep] at hquiet
  rw [hstep'] at hquiet'
  dsimp only at hresult
  subst hresult
  cases result' with
  | error failure =>
    refine .inl ⟨failure, ?_, ?_⟩
    · rw [Action.bind_of_error hstep]
    · rw [Action.bind_of_error hstep']
  | ok a =>
    exact .inr ⟨a, e₁, e₁', hquiet, hquiet', hafter, rfl, Action.bind_of_ok hstep,
      Action.bind_of_ok hstep'⟩

theorem isBuffering_bind (who : Identity) (next : Bool → Action Engine β) (e : Engine) :
    (isBuffering who >>= next) e = next (e.inTransaction who.user) e := rfl

end Observing

/-- What a command that changes rows makes of those of its table, and the entries that it leaves in a
transaction instead. -/
inductive Plan (who : Identity) (e : Engine) (database : String) :
    Command → String → List String → List String → (Transaction → Nat → List Log.Entry) → Prop where
  | insert {table row : String} {rows : List String} {schema : TableSchema}
    (hschema : e.knownSchema database table = .ok schema)
    (hrow : (schema.checkRow (storedValues database) row e).1 = .ok ()) :
    Plan who e database (.insert table row) table rows (rows ++ [row]) fun transaction time =>
      [pendingEntry transaction who.user time .insert database table (Row.id row) row none]
  | update {table : String} {assigned : Keyed String String} {conditions : List Condition}
    {rows after : List String} {changed : List (String × String)} {schema : TableSchema}
    {assignments : List Assignment} (hschema : e.knownSchema database table = .ok schema)
    (hassigned : PassesAs schema assigned.entries assignments)
    (hchange : schema.update assignments conditions rows = .ok (after, changed)) :
    Plan who e database (.update table assigned conditions) table rows after fun transaction time =>
      changed.map fun (before, after) => pendingEntry transaction who.user time .update database
        table (Row.id before) after (some before)
  | delete {table : String} {conditions : List Condition} {rows after removed : List String}
    {schema : TableSchema} (hschema : e.knownSchema database table = .ok schema)
    (hchange : schema.delete conditions rows = (after, removed)) :
    Plan who e database (.delete table conditions) table rows after fun transaction time =>
      removed.map fun row =>
        pendingEntry transaction who.user time .delete database table (Row.id row) "" (some row)

/-- What comes of a command that changes rows, at once and in a transaction. -/
inductive BothWays (who : Identity) (e e' : Engine) (database : String) (command : Command)
    (transaction : Transaction) (now later : Except Error Effect × Engine) : Prop where
  | failing (h : FailAlike now later)
  | changing {table : String} {rows after : List String}
    {entriesOf : Transaction → Nat → List Log.Entry} {e₁ e₁' : Engine} {place : Path}
    {text text' : String} (hplan : Plan who e database command table rows after entriesOf)
    (hquiet : Quiet e e₁) (hquiet' : Quiet e' e₁')
    (hlocate : e.disk.locate (Path.table database table) = .ok (place, .file text))
    (hrows : rows = Text.filledLines text)
    (hwritten : Text.filledLines text' = after.filter Text.isFilled)
    (hnow : ∃ (firing : Option Firing) (upkeep : Upkeep),
      (∀ due ∈ firing, due.database = database ∧ due.table = table) ∧
        now.1.map Effect.firing = .ok firing ∧
          now.2 = (upkeep.step { e₁ with disk := e.disk.put place (.file text') }).2)
    (hlater : later.1.map Effect.firing = .ok none ∧
      later.2 = e₁'.waiting who.user transaction (entriesOf transaction (e'.clock / 1000000)))

section Commands

variable {who : Identity} {e e' : Engine} {database : String} {transaction : Transaction}

theorem inTransaction_of_get? {user : String} (h : e.transactions.get? user = some transaction) :
    e.inTransaction user = true := by
  rw [inTransaction, Keyed.contains, h]
  rfl

theorem patchIndexes_ok (schema : TableSchema) (removed added : List String) (e : Engine) :
    patchIndexes database schema removed added e
      = (.ok (), (Upkeep.step (.rows database schema removed added) e).2) :=
  dispatch_ok _ _ e

/-- Where no directory is in the way of a table, a table with a schema has rows. -/
theorem IsSound.locate_of_readSchema (h : e.IsSound) (hapart : e.settings.isApart = true)
    {table : String} {schema : TableSchema} (htable : Name.isValid table = true)
    (hread : Engine.readSchema e.disk database table = .ok schema) :
    ∃ place text, e.disk.locate (Path.table database table) = .ok (place, .file text) := by
  obtain ⟨home, text, hhome, hlocate, hentry, -⟩ := readSchema_eq_ok htable hread
  obtain ⟨before, part, folder, hpath, -, -, -, -, hfits⟩ := Disk.locate_file hlocate
  have hsound := (Disk.locate_eq_ok hlocate).1
  rw [Path.schema_of_isValid database htable] at hpath
  obtain ⟨-, hpart⟩ := List.append_inj' hpath rfl
  rw [List.cons.injEq] at hpart
  rw [← hpart.1] at hfits
  obtain ⟨rows, hrows⟩ := (h.apart hapart).tables home table text htable hentry
  refine ⟨Path.tablePlace home table, rows, ?_⟩
  rw [hhome.locate_table htable (isSound_table htable hsound) (fits_append (by decide) hfits), hrows]

theorem insert_bothWays (h : e.IsSound) (hapart : e.settings.isApart = true) {table : String}
    (htable : Name.isValid table = true) (row : String) (hview : SameView e e')
    (hfree : e.inTransaction who.user = false)
    (hactive : e'.transactions.get? who.user = some transaction) :
    BothWays who e e' database (.insert table row) transaction (insert who database table row e)
      (insert who database table row e') := by
  unfold insert
  rcases (observes_writableSchema who database table).bindAlike hview _ _ with
    hfail | ⟨schema, e₁, e₁', hquiet, hquiet', hview, hschema, hrun, hrun'⟩
  · exact .failing hfail
  have hknown := writableSchema_eq_ok hschema
  rw [hrun, hrun']
  rcases (observes_checkRow schema database row).bindAlike hview _ _ with
    hfail | ⟨⟨⟩, e₂, e₂', hmore, hmore', -, hrow, hrun, hrun'⟩
  · exact .failing hfail
  rw [(observes_checkRow schema database row).stable e e₁ hquiet.sameView] at hrow
  replace hquiet := IsTrans.trans _ _ _ hquiet hmore
  replace hquiet' := IsTrans.trans _ _ _ hquiet' hmore'
  rw [hrun, hrun', isBuffering_bind, isBuffering_bind, hquiet.inTransaction, hquiet'.inTransaction,
    hfree, inTransaction_of_get? hactive, if_neg (by simp), if_pos rfl]
  -- The row is appended as a commit would append it.
  let entry := pendingEntry transaction who.user 0 .insert database table (Row.id row) row none
  have hentry : entry.IsSound := ⟨htable, isLine_of_checkRow hrow⟩
  obtain ⟨place, text, hlocate⟩ := h.locate_of_readSchema hapart htable (h.readSchema htable hknown)
  rcases Log.Entry.perform_of_locate h.disk hentry hlocate with
    ⟨after, text', hchange, htext', hperform⟩ | ⟨hnone, -⟩
  · have happend : onDisk (Table.append database table row) e₂
        = (.ok (), { e₂ with disk := e.disk.put place (.file text') }) := by
      rw [onDisk, Action.onPart_apply, hquiet.disk]
      exact congrArg (fun result => (result.1, { e₂ with disk := result.2 })) hperform
    rw [← Option.some.inj hchange] at htext'
    refine .changing (.insert hknown hrow) hquiet hquiet' hlocate rfl htext'
      ⟨some ⟨database, table, .insert⟩, .rows database schema [] [row], ?_, ?_⟩ ?_
    · rintro due hdue
      rw [← Option.some.inj hdue]
      exact ⟨rfl, rfl⟩
    · rw [Action.bind_of_ok happend, Action.bind_of_ok (patchIndexes_ok schema [] [row] _)]
      exact ⟨rfl, rfl⟩
    · rw [Action.bind_of_ok (buffer_apply (by rw [hquiet'.transactions]; exact hactive) ..),
        hquiet'.clock]
      exact ⟨rfl, rfl⟩
  · exact absurd hnone (by simp [Log.Entry.change?, entry, pendingEntry])

/-- Changing all rows at once and reading them for later fail alike where there are none, and else
find the same rows. -/
theorem modify_bindAlike {α : Type} {table : String} {disk : Disk} {e₁ e₁' : Engine}
    (hdisk : e₁.disk = disk) (hdisk' : e₁'.disk = disk)
    (change : List String → Except Error (List String × α)) (next : α → Action Engine Effect)
    (next' : List String → Action Engine Effect) :
    FailAlike ((onDisk (Table.modify database table change) >>= next) e₁)
        ((readDisk (Table.rows · database table) >>= next') e₁') ∨
      ∃ place text, disk.locate (Path.table database table) = .ok (place, .file text) ∧
        (onDisk (Table.modify database table change) >>= next) e₁
          = (match change (Text.filledLines text) with
            | .ok (after, a) =>
              next a { e₁ with disk := disk.put place (.file (Text.ofLines after)) }
            | .error failure => (.error failure, e₁)) ∧
          (readDisk (Table.rows · database table) >>= next') e₁'
            = next' (Text.filledLines text) e₁' := by
  subst hdisk
  cases hrows : Table.rows e₁.disk database table with
  | error failure =>
    have hmodify : onDisk (Table.modify database table change) e₁ = (.error failure, e₁) := by
      rw [onDisk, Action.onPart_apply, Table.modify, Action.read_bind, hrows]
    rw [Action.bind_of_error hmodify, readDisk, Action.read_bind, hdisk', hrows]
    exact .inl ⟨failure, rfl, rfl⟩
  | ok rows =>
  obtain ⟨place, text, hlocate, rfl⟩ := Table.locate_of_rows hrows
  refine .inr ⟨place, text, hlocate, ?_, by rw [readDisk, Action.read_bind, hdisk', hrows]⟩
  have hmodify := Table.modify_of_locate hlocate change
  cases hchange : change (Text.filledLines text) with
  | error failure =>
    rw [hchange] at hmodify
    exact Action.bind_of_error (by rw [onDisk, Action.onPart_apply, hmodify])
  | ok result =>
    obtain ⟨after, a⟩ := result
    rw [hchange] at hmodify
    exact Action.bind_of_ok (by rw [onDisk, Action.onPart_apply, hmodify])

theorem update_bothWays (h : e.IsSound) (table : String) (assigned : Keyed String String)
    (conditions : List Condition) (hview : SameView e e')
    (hfree : e.inTransaction who.user = false)
    (hactive : e'.transactions.get? who.user = some transaction) :
    BothWays who e e' database (.update table assigned conditions) transaction
      (update who database table assigned conditions e)
      (update who database table assigned conditions e') := by
  unfold update
  rcases (observes_writableSchema who database table).bindAlike hview _ _ with
    hfail | ⟨schema, e₁, e₁', hquiet, hquiet', hview₁, hschema, hrun, hrun'⟩
  · exact .failing hfail
  have hknown := writableSchema_eq_ok hschema
  rw [hrun, hrun']
  have hobserves : Observes (assigned.entries.mapM (checkAssignment schema database table)) :=
    Observes.mapM fun pair => observes_checkAssignment schema database table pair
  rcases hobserves.bindAlike hview₁ _ _ with
    hfail | ⟨assignments, e₂, e₂', hmore, hmore', -, hassigned, hrun, hrun'⟩
  · exact .failing hfail
  rw [hobserves.stable e e₁ hquiet.sameView] at hassigned
  have hpasses := passesAs_of_mapM hassigned
  replace hquiet := IsTrans.trans _ _ _ hquiet hmore
  replace hquiet' := IsTrans.trans _ _ _ hquiet' hmore'
  dsimp only at hrun hrun'
  rw [hrun, hrun', isBuffering_bind, isBuffering_bind, hquiet.inTransaction, hquiet'.inTransaction,
    hfree, inTransaction_of_get? hactive, if_neg (by simp), if_pos rfl]
  rcases modify_bindAlike hquiet.disk (hquiet'.disk.trans hview.disk)
    (schema.update assignments conditions) _ _ with hfail | ⟨place, text, hlocate, hrun, hrun'⟩
  · exact .failing hfail
  rw [hrun, hrun', Action.ofExcept_bind]
  cases hchange : schema.update assignments conditions (Text.filledLines text) with
  | error failure => exact .failing ⟨failure, rfl, rfl⟩
  | ok result =>
  obtain ⟨after, changed⟩ := result
  dsimp only
  have hlines := (isLine_update hpasses hchange fun row hrow =>
    (h.disk.row (Table.rows_of_locate hlocate) row hrow).1).1
  refine .changing (.update hknown hpasses hchange) hquiet hquiet' hlocate rfl
    (Table.filledLines_ofLines hlines)
    ⟨if changed.isEmpty then none else some ⟨database, table, .update⟩,
      if changed.isEmpty then .none
        else .rows database schema (changed.map Prod.fst) (changed.map Prod.snd), ?_, ?_⟩ ?_
  · intro due hdue
    split at hdue
    · exact absurd hdue (by simp)
    · rw [← Option.some.inj hdue]
      exact ⟨rfl, rfl⟩
  · cases changed with
    | nil => exact ⟨rfl, rfl⟩
    | cons first rest =>
      rw [if_pos (by rfl), Action.bind_of_ok (patchIndexes_ok schema _ _ _)]
      exact ⟨rfl, rfl⟩
  · have hbuffered := forM_buffer
      (fun id time (pair : String × String) => pendingEntry ⟨id, []⟩ who.user time .update database
        table (Row.id pair.1) pair.2 (some pair.1))
      (fun pair => buffer who.user .update database table (Row.id pair.1) pair.2 (some pair.1))
      (fun pair e transaction h => buffer_apply h ..) changed e₂'
      (by rw [hquiet'.transactions]; exact hactive)
    rw [hquiet'.clock] at hbuffered
    dsimp only
    rw [Action.bind_of_ok hbuffered]
    exact ⟨rfl, rfl⟩

theorem delete_bothWays (h : e.IsSound) (table : String) (conditions : List Condition)
    (hview : SameView e e') (hfree : e.inTransaction who.user = false)
    (hactive : e'.transactions.get? who.user = some transaction) :
    BothWays who e e' database (.delete table conditions) transaction
      (delete who database table conditions e) (delete who database table conditions e') := by
  unfold delete
  rcases (observes_writableSchema who database table).bindAlike hview _ _ with
    hfail | ⟨schema, e₁, e₁', hquiet, hquiet', -, hschema, hrun, hrun'⟩
  · exact .failing hfail
  have hknown := writableSchema_eq_ok hschema
  rw [hrun, hrun', isBuffering_bind, isBuffering_bind, hquiet.inTransaction, hquiet'.inTransaction,
    hfree, inTransaction_of_get? hactive, if_neg (by simp), if_pos rfl]
  rcases modify_bindAlike hquiet.disk (hquiet'.disk.trans hview.disk)
    (fun rows => .ok (schema.delete conditions rows)) _ _ with
    hfail | ⟨place, text, hlocate, hrun, hrun'⟩
  · exact .failing hfail
  rw [hrun, hrun']
  have hlines : ∀ row ∈ (schema.delete conditions (Text.filledLines text)).1, Text.IsLine row := by
    intro row hrow
    rw [TableSchema.delete_eq] at hrow
    exact (h.disk.row (Table.rows_of_locate hlocate) row (List.mem_filter.1 hrow).1).1
  cases hchange : schema.delete conditions (Text.filledLines text) with
  | mk after removed =>
  rw [hchange] at hlines
  dsimp only
  refine .changing (.delete hknown hchange) hquiet hquiet' hlocate rfl
    (Table.filledLines_ofLines hlines)
    ⟨if removed.isEmpty then none else some ⟨database, table, .delete⟩,
      if removed.isEmpty then .none else .rows database schema removed [], ?_, ?_⟩ ?_
  · intro due hdue
    split at hdue
    · exact absurd hdue (by simp)
    · rw [← Option.some.inj hdue]
      exact ⟨rfl, rfl⟩
  · cases removed with
    | nil => exact ⟨rfl, rfl⟩
    | cons first rest =>
      rw [if_pos (by rfl), Action.bind_of_ok (patchIndexes_ok schema _ _ _)]
      exact ⟨rfl, rfl⟩
  · have hbuffered := forM_buffer
      (fun id time row => pendingEntry ⟨id, []⟩ who.user time .delete database table (Row.id row) ""
        (some row))
      (fun row => buffer who.user .delete database table (Row.id row) "" (some row))
      (fun row e transaction h => buffer_apply h ..) removed e₁'
      (by rw [hquiet'.transactions]; exact hactive)
    rw [hquiet'.clock] at hbuffered
    rw [Action.bind_of_ok hbuffered]
    exact ⟨rfl, rfl⟩

/-! ### The entries at the commit -/

theorem assignmentsOf_eq {schema : TableSchema} {assigned : List (String × String)}
    {assignments : List Assignment} (h : PassesAs schema assigned assignments) :
    schema.assignmentsOf assigned = assignments := by
  induction h with
  | nil => rfl
  | @cons pair a rest more hpair _ ih =>
    obtain ⟨name, value⟩ := pair
    obtain ⟨position, column, value'⟩ := a
    obtain ⟨hposition, hcolumn, hvalue, -⟩ := hpair
    dsimp only at hposition hcolumn hvalue
    subst hvalue
    refine (List.filterMap_cons_some ?_).trans (congrArg _ ih)
    simp [hposition, hcolumn]

theorem filter_map_eq_replaceFitting {fits : String → Bool} {f : String → String}
    {rows : List String} (hrows : ∀ row ∈ rows, Text.isFilled row = true) :
    (rows.map fun row => if fits row then f row else row).filter Text.isFilled
      = Table.replaceFitting fits (fun row => [f row]) rows := by
  induction rows with
  | nil => rfl
  | cons row rest ih =>
    have hrest := ih fun other hother => hrows other (List.mem_cons_of_mem row hother)
    have hrow := hrows row (by simp)
    rw [List.map_cons, List.filter_cons, hrest, Table.replaceFitting, Table.replaceFitting,
      List.flatMap_cons]
    by_cases hfits : fits row = true
    · rw [if_pos hfits, if_pos hfits, List.filter_cons]
      split <;> rfl
    · rw [if_neg hfits, if_neg hfits, if_pos hrow]
      rfl

theorem filter_eq_replaceFitting {fits : String → Bool} {rows : List String}
    (hrows : ∀ row ∈ rows, Text.isFilled row = true) :
    (rows.filter fun row => !fits row).filter Text.isFilled
      = Table.replaceFitting fits (fun _ => []) rows := by
  rw [List.filter_eq_self.2 fun row hrow => hrows row (List.mem_filter.1 hrow).1]
  induction rows with
  | nil => rfl
  | cons row rest ih =>
    rw [List.filter_cons, ih fun other hother => hrows other (List.mem_cons_of_mem row hother),
      Table.replaceFitting, Table.replaceFitting, List.flatMap_cons]
    by_cases hfits : fits row = true
    · rw [if_pos hfits, hfits]
      rfl
    · rw [if_neg hfits, Bool.eq_false_iff.2 hfits]
      rfl

namespace Plan

variable {command : Command} {table : String} {rows after : List String}
  {entriesOf : Transaction → Nat → List Log.Entry}

theorem table_eq (h : Plan who e database command table rows after entriesOf) (time : Nat) :
    ∀ entry ∈ entriesOf transaction time, entry.database = database ∧ entry.table = table := by
  intro entry hentry
  cases h with
  | insert hschema hrow =>
    rw [List.mem_singleton.1 hentry]
    exact ⟨rfl, rfl⟩
  | update hschema hassigned hchange =>
    obtain ⟨pair, -, rfl⟩ := List.mem_map.1 hentry
    exact ⟨rfl, rfl⟩
  | delete hschema hchange =>
    obtain ⟨row, -, rfl⟩ := List.mem_map.1 hentry
    exact ⟨rfl, rfl⟩

/-- There is a row for every entry, whether or not it is the one that the entry was made of. -/
theorem isSome_replay? (h : Plan who e database command table rows after entriesOf) (time : Nat)
    (hrows : ∀ row ∈ rows, Text.isFilled row = true) :
    (Log.Entry.replay? (entriesOf transaction time) rows).isSome = true := by
  cases h with
  | insert hschema hrow => rfl
  | update hschema hassigned hchange =>
    obtain ⟨-, rfl, -⟩ := TableSchema.update_eq_ok hchange
    refine Log.Entry.isSome_replay? (fun entry hentry => ?_) hrows fun id => ?_
    · obtain ⟨pair, -, rfl⟩ := List.mem_map.1 hentry
      exact ⟨fun _ => [pair.2], fun _ => rfl⟩
    · rw [List.map_map, List.map_map]
      exact (List.filter_sublist.map Row.id).count_le id
  | delete hschema hchange =>
    rw [TableSchema.delete_eq, Prod.mk.injEq] at hchange
    obtain ⟨rfl, rfl⟩ := hchange
    refine Log.Entry.isSome_replay? (fun entry hentry => ?_) hrows fun id => ?_
    · obtain ⟨row, -, rfl⟩ := List.mem_map.1 hentry
      exact ⟨fun _ => [], fun _ => rfl⟩
    · rw [List.map_map]
      exact (List.filter_sublist.map Row.id).count_le id

/-- Entries that find their rows again make what the command makes at once. -/
theorem replay?_eq (h : Plan who e database command table rows after entriesOf) (time : Nat)
    (hrows : ∀ row ∈ rows, Text.isFilled row = true)
    (hfinds : ∀ schema, e.knownSchema database table = .ok schema →
      schema.findsAgain rows command = true) :
    Log.Entry.replay? (entriesOf transaction time) rows = some (after.filter Text.isFilled) := by
  cases h with
  | insert hschema hrow => rfl
  | @update table assigned conditions rows after changed schema assignments hschema hassigned
      hchange =>
    have hfound := hfinds schema hschema
    rw [TableSchema.findsAgain, assignmentsOf_eq hassigned] at hfound
    obtain ⟨rfl, rfl, -⟩ := TableSchema.update_eq_ok hchange
    rw [filter_map_eq_replaceFitting hrows]
    dsimp only
    rw [List.map_map]
    exact Log.Entry.replay?_of_findsAgain (fun _ _ => rfl) (by simp) hrows hfound
  | @delete table conditions rows after removed schema hschema hchange =>
    have hfound := hfinds schema hschema
    rw [TableSchema.delete_eq, Prod.mk.injEq] at hchange
    obtain ⟨rfl, rfl⟩ := hchange
    rw [filter_eq_replaceFitting hrows]
    exact Log.Entry.replay?_of_findsAgain (fun _ _ => rfl) (by simp) hrows hfound

end Plan

end Commands

end Engine

/-! ### Disks that differ in one table -/

/-- A place where a statement that changes one table may write. -/
def Path.IsBeside (place other : Path) : Prop :=
  other = place ∨ IsIndex other ∨ EndsIn ".log" other

/-- Of all tables at most the one at a place was written, and now holds the given rows. -/
structure Disk.Stores (disk : Disk) (place : Path) (rows : List String) (disk' : Disk) : Prop where
  rewrites : Rewrites (Path.IsBeside place) disk disk'
  rows : ∃ text, disk'.at? place = some (.file text) ∧ Text.filledLines text = rows

namespace Disk.Stores

variable {disk first second : Disk} {database table text : String} {place : Path}
  {rows rows' : List String}

theorem maintained (h : Stores disk place rows first) (hplace : Path.EndsIn ".mg" place)
    (hindexes : Rewrites Path.IsIndex first second) : Stores disk place rows second where
  rewrites := IsTrans.trans _ _ _ h.rewrites (hindexes.mono fun _ hindex => .inr (.inl hindex))
  rows := by
    obtain ⟨text, htext, hrows⟩ := h.rows
    refine ⟨text, (hindexes.grows.unwritten ?_).2 htext, hrows⟩
    rintro ⟨kind, hkind⟩
    exact hkind.not (by cases kind <;> decide) hplace

/-- The rows of all other tables are the same on both disks, and those of the table at the place if
the rows that it holds are. -/
theorem rows_eq (h : Stores disk place rows first) (h' : Stores disk place rows' second)
    (hlocate : disk.locate (Path.table database table) = .ok (place, .file text))
    (other name : String)
    (hsame : disk.locate (Path.table other name) = disk.locate (Path.table database table) →
      rows' = rows) :
    Table.rows second other name = Table.rows first other name := by
  have hboth := IsTrans.trans _ _ _ h.rewrites.symm h'.rewrites
  refine Table.rows_of_rewrites hboth fun there found found' hfound hfound' => ?_
  obtain ⟨before, last, home, hpath, -, rfl, hentry, -⟩ := Disk.locate_file hfound
  have hends : Path.EndsIn ".mg" (home ++ [last]) :=
    (Path.endsIn_table other name).congr (by rw [hpath]; simp)
  by_cases hplace : home ++ [last] = place
  · obtain ⟨text₁, hthere, hback⟩ := h.rewrites.symm.grows.locate_file hfound
    obtain ⟨-, -, -, -, -, -, hthere', -⟩ := Disk.locate_file hlocate
    rw [hplace] at hthere hback hentry hfound'
    rw [hthere', Option.some.injEq, DiskEntry.file.injEq] at hback
    obtain ⟨text₂, htext₂, rfl⟩ := h.rows
    obtain ⟨text₃, htext₃, rfl⟩ := h'.rows
    rw [htext₂, Option.some.injEq, DiskEntry.file.injEq] at hentry
    rw [htext₃, Option.some.injEq, DiskEntry.file.injEq] at hfound'
    rw [← hentry, ← hfound']
    exact hsame (by rw [hthere, hlocate, hback])
  · have hunwritten : ¬Path.IsBeside place (home ++ [last]) := by
      rintro (hthere | ⟨kind, hkind⟩ | hlog)
      · exact hplace hthere
      · exact hkind.not (by cases kind <;> decide) hends
      · exact hlog.not (by decide) hends
    have hkept := (hboth.grows.unwritten hunwritten).1 hfound'
    rw [hentry, Option.some.injEq, DiskEntry.file.injEq] at hkept
    rw [hkept]

end Disk.Stores

/-! ### Whole statements -/

/-- The table whose rows a command changes. -/
def Command.changedTable? : Command → Option String
  | insert table _ | update table _ _ | delete table _ => some table
  | _ => none

namespace Engine

/-- Whether no trigger on a table of the selected database is due after any change. -/
def firesNothing (e : Engine) (who : Identity) (table : String) : Bool :=
  match who.requireDatabase with
  | .error _ => true
  | .ok database =>
    [Operation.insert, .update, .delete].all fun event =>
      match Trigger.forEvent e.disk database table event with
      | .ok (_ :: _) => false
      | _ => true

/-- Whether a transaction of the command alone would find every row again that the command changes. -/
def findsAgain (e : Engine) (who : Identity) (command : Command) : Bool :=
  match who.requireDatabase, command.changedTable? with
  | .ok database, some table =>
    match e.knownSchema database table, Table.rows e.disk database table with
    | .ok schema, .ok rows => schema.findsAgain rows command
    | _, _ => true
  | _, _ => true

section Whole

variable {who : Identity} {e e' : Engine} {executing : Executing} {budget : Nat} {database : String}
  {command : Command} {table : String}

theorem perform_of_error {failure : Error}
    (h : (effect executing who command e).1 = .error failure) :
    (perform executing budget who command e).1 = .error failure := by
  unfold perform
  rw [Action.bind_of_error (Prod.ext h rfl)]

/-- Where no trigger is due a command does its own and nothing else. -/
theorem perform_of_ok {firing : Option Firing}
    (h : (effect executing who command e).1.map Effect.firing = .ok firing)
    (hfiring : ∀ due ∈ firing,
      triggerJobs (effect executing who command e).2.disk budget who due = []) :
    (∃ outcome, (perform executing budget who command e).1 = .ok outcome) ∧
      (perform executing budget who command e).2 = (effect executing who command e).2 := by
  cases heffect : effect executing who command e with
  | mk result after =>
  rw [heffect] at h hfiring
  cases result with
  | error failure => exact absurd h (by simp [Except.map])
  | ok made =>
  obtain ⟨outcome, due⟩ := made
  obtain rfl : due = firing := Except.ok.inj h
  unfold perform
  rw [Action.bind_of_ok heffect]
  cases due with
  | none => exact ⟨⟨outcome, rfl⟩, rfl⟩
  | some due =>
    have hfire : fireTriggers executing budget who due after = (.ok (), after) := by
      rw [fireTriggers, Action.get_bind, hfiring due rfl]
      rfl
    have hrun : (due |> some).forM (fireTriggers executing budget who) after = (.ok (), after) := hfire
    rw [Action.bind_of_ok hrun]
    exact ⟨⟨outcome, rfl⟩, rfl⟩

/-- Whoever may change rows may commit. -/
theorem authorize_changedTable (htable : command.changedTable? = some table) (role : NodeRole) :
    authorize who command role = authorize who (.transaction .commit) role := by
  cases command <;> first | rfl | exact absurd htable (by simp [Command.changedTable?])

theorem authorize_noDatabase (htable : command.changedTable? = some table) {failure : Error}
    (hdatabase : who.requireDatabase = .error failure) (role : NodeRole) :
    authorize who command role = .error failure := by
  rw [authorize_changedTable htable]
  unfold authorize
  rw [hdatabase]
  rfl

theorem authorize_begin (hdatabase : who.requireDatabase = .ok database) (role : NodeRole) :
    authorize who (.transaction .begin) role = .ok () := by
  unfold authorize
  rw [hdatabase]
  rfl

theorem effect_of_authorize (h : authorize who command e.role = .ok ())
    (hdatabase : who.requireDatabase = .ok database)
    (hcommand : command ≠ .showDatabases) (hrole : ∀ role, command ≠ .become role) :
    effect executing who command e = effectIn executing who database command e := by
  unfold effect
  rw [Action.read_bind, h]
  cases command <;>
    first
    | exact absurd rfl hcommand
    | exact absurd rfl (hrole _)
    | (dsimp only; rw [Action.ofExcept_bind, hdatabase])

theorem effect_of_refused {failure : Error} (h : authorize who command e.role = .error failure) :
    effect executing who command e = (.error failure, e) := by
  unfold effect
  rw [Action.read_bind, h]

theorem effect_bothWays (h : e.IsSound) (hapart : e.settings.isApart = true)
    (htable : command.changedTable? = some table) (hnamed : command.isWellNamed = true)
    (hdatabase : who.requireDatabase = .ok database) {transaction : Transaction}
    (hview : SameView e e') (hrole : e'.role = e.role)
    (hallowed : authorize who command e.role = .ok ()) (hfree : e.inTransaction who.user = false)
    (hactive : e'.transactions.get? who.user = some transaction) :
    BothWays who e e' database command transaction (effect executing who command e)
      (effect executing who command e') := by
  have hcommand : command ≠ .showDatabases ∧ ∀ role, command ≠ .become role := by
    cases command <;> simp_all [Command.changedTable?]
  rw [effect_of_authorize hallowed hdatabase hcommand.1 hcommand.2,
    effect_of_authorize (by rw [hrole]; exact hallowed) hdatabase hcommand.1 hcommand.2]
  cases command with
  | insert name row => exact insert_bothWays h hapart hnamed row hview hfree hactive
  | update name assigned conditions =>
    exact update_bothWays h name assigned conditions hview hfree hactive
  | delete name conditions => exact delete_bothWays h name conditions hview hfree hactive
  | _ => exact absurd htable (by simp [Command.changedTable?])

/-- The beginning of a transaction that may begin. -/
theorem perform_begin (hdatabase : who.requireDatabase = .ok database) (hfree : e.inTransaction who.user = false) :
    ∃ id, (∃ outcome, (perform executing budget who (.transaction .begin) e).1 = .ok outcome) ∧
      (perform executing budget who (.transaction .begin) e).2
        = { e with
            clock := e.clock + 1
            transactions := e.transactions.insert who.user { id, latest := [] } } := by
  refine ⟨"tx_" ++ String.ofList (Number.decimalDigits e.clock) ++ "_" ++ who.user, ?_⟩
  have hbegin : begin who.user e = (.ok ("tx_" ++ String.ofList (Number.decimalDigits e.clock) ++ "_"
      ++ who.user), { e with
        clock := e.clock + 1
        transactions := e.transactions.insert who.user
          ⟨"tx_" ++ String.ofList (Number.decimalDigits e.clock) ++ "_" ++ who.user, []⟩ }) := by
    rw [begin, Action.get_bind, if_neg (by simp [hfree])]
    rfl
  have heffect : effect executing who (.transaction .begin) e
      = (Effect.ofOutcome <$> executeBegin who) e :=
    effect_of_authorize (authorize_begin hdatabase e.role) hdatabase (by simp) (by simp)
  rw [Action.map_apply, executeBegin, Action.bind_of_ok hbegin] at heffect
  obtain ⟨houtcome, hafter⟩ := @perform_of_ok who e executing budget (.transaction .begin) none
    (by rw [heffect]; rfl) (by simp)
  exact ⟨houtcome, by rw [hafter, heffect]; rfl⟩

/-- What a commit comes to whose changes can all be made. -/
theorem perform_commit {e₁ : Engine} {id : String} {done : List Log.Entry}
    (hallowed : authorize who (.transaction .commit) e.role = .ok ())
    (hdatabase : who.requireDatabase = .ok database)
    (hcommit : commit who.user e = (.ok (id, done), e₁)) :
    (∃ outcome, (perform executing budget who (.transaction .commit) e).1 = .ok outcome) ∧
      (perform executing budget who (.transaction .commit) e).2
        = (Upkeep.step (.applied done) e₁).2 := by
  have heffect : effect executing who (.transaction .commit) e
      = (Effect.ofOutcome <$> executeCommit who) e :=
    effect_of_authorize hallowed hdatabase (by simp) (by simp)
  have hexecute : ∃ outcome,
      executeCommit who e = (.ok outcome, (Upkeep.step (.applied done) e₁).2) := by
    unfold executeCommit
    refine ⟨.ofMessage s!"Transaction {id} committed ({countText done.length} operations)",
      Action.tryCatch_of_ok ?_⟩
    rw [Action.bind_of_ok hcommit]
    exact Action.bind_of_ok (patchCommitted_ok done e₁)
  obtain ⟨outcome, hexecute⟩ := hexecute
  rw [Action.map_apply, hexecute] at heffect
  obtain ⟨houtcome, hafter⟩ := @perform_of_ok who e executing budget (.transaction .commit) none
    (by rw [heffect]; rfl) (by simp)
  exact ⟨houtcome, by rw [hafter, heffect]⟩

/-- Where the log is sound its entries are written behind it, and nothing else is. -/
theorem IsSound.writeLog (h : e.IsSound) (entries : List Log.Entry) :
    ∃ logged, e.log.write entries e.disk = (.ok (), logged) ∧
      Disk.Rewrites (Path.EndsIn ".log") e.disk logged ∧ logged.IsCatalogued := by
  obtain ⟨place, text, hlocate, hends⟩ := h.log
  obtain ⟨-, -, -, -, -, -, hthere, -⟩ := Disk.locate_file hlocate
  have hwrite : e.log.write entries e.disk
      = (.ok (), e.disk.put place (.file (text ++ Text.ofLines (entries.map Log.line)))) := by
    unfold Log.write Disk.appendFile
    rw [Action.read_bind, Disk.textOr_eq_ok.2 (Disk.textAt_eq_ok.2 ⟨place, hlocate⟩)]
    exact Disk.writeFile_of_place (Disk.filePlace?_of_file hlocate) _
  have hspares : Disk.Spares False e.disk (e.log.write entries e.disk).2 :=
    Log.spares_write hlocate hends entries
  rw [hwrite] at hspares
  exact ⟨_, hwrite, Disk.rewrites_put hends hthere _, hspares.keeps.isCatalogued h.disk⟩

/-- A commit of changes to one table, each of which finds a row, makes them all. -/
theorem commit_of_replay? (h : e.IsSound) {transaction : Transaction}
    (hactive : e.transactions.get? who.user = some transaction)
    (htable : ∀ entry ∈ transaction.changes, entry.database = database ∧ entry.table = table)
    {place : Path} {text : String} {after : List String}
    (hlocate : e.disk.locate (Path.table database table) = .ok (place, .file text))
    (hreplay : Log.Entry.replay? transaction.changes (Text.filledLines text) = some after) :
    ∃ done e₁, commit who.user e = (.ok (transaction.id, done), e₁) ∧
      Disk.Stores e.disk place after e₁.disk := by
  obtain ⟨-, -, -, -, -, -, hthere, -⟩ := Disk.locate_file hlocate
  cases hcommit : commit who.user e with
  | mk result e₁ =>
  have hcommits := commit_cases who.user e
  rw [hcommit] at hcommits
  cases hcommits with
  | noTransaction hfree => exact absurd (hfree.symm.trans hactive) (by simp)
  | @nothing found hfound hempty =>
    obtain rfl := Option.some.inj (hfound.symm.trans hactive)
    rw [Transaction.changes, hempty] at hreplay
    exact ⟨[], _, rfl, refl e.disk, text, hthere, Option.some.inj hreplay⟩
  | @logFailure found hfound hchanges hlog =>
    obtain ⟨logged, hwrite, -⟩ := h.writeLog (Log.numbered e.log.next found.changes)
    exact absurd (by rw [hwrite]) hlog
  | @applied found logged disk done failure hfound hchanges hlog happly =>
    obtain rfl := Option.some.inj (hfound.symm.trans hactive)
    obtain ⟨logged', hwrite, hrewrites, hcatalogued⟩ :=
      h.writeLog (Log.numbered e.log.next found.changes)
    obtain rfl : logged = logged' := congrArg Prod.snd (hlog.symm.trans hwrite)
    obtain ⟨text', hlocate', hthere'⟩ := hrewrites.grows.locate_file hlocate
    have hunwritten : ¬Path.EndsIn ".log" place := fun hlog =>
      hlog.not (by decide) (Path.endsIn_of_locate hlocate (Path.endsIn_table database table))
    have hsame := hthere.symm.trans ((hrewrites.grows.unwritten hunwritten).1 hthere')
    rw [Option.some.injEq, DiskEntry.file.injEq] at hsame
    subst hsame
    have hentries : ∀ entry ∈ Log.numbered e.log.next found.changes, entry.IsSound :=
      isSound_numbered (fun entry hentry =>
        (h.waiting _ found hactive entry (List.mem_reverse.1 hentry)).1) _
    have htable' : ∀ entry ∈ Log.numbered e.log.next found.changes,
        entry.database = database ∧ entry.table = table := by
      intro entry hentry
      obtain ⟨before, hbefore, number, rfl⟩ := Log.mem_numbered hentry
      exact htable before hbefore
    obtain ⟨disk', text'', hall, hlocate'', hafter, hchanged⟩ :=
      Log.Entry.performAll_of_replay? hcatalogued hentries htable' hlocate'
        (by rw [Log.Entry.replay?_numbered, hreplay])
    obtain ⟨-, -, -, -, -, -, hthere'', -⟩ := Disk.locate_file hlocate''
    rw [hall, Prod.mk.injEq, Prod.mk.injEq] at happly
    obtain ⟨⟨rfl, rfl⟩, rfl⟩ := happly
    refine ⟨_, _, rfl, IsTrans.trans _ _ _ (hrewrites.mono fun _ hlog => .inr (.inr hlog))
      (hchanged.mono fun _ => .inl), text'', hthere'', hafter⟩

/-- Where nothing but the table, indexes and the log was written no trigger has come. -/
theorem triggerJobs_eq_nil (h : e.firesNothing who table = true)
    (hdatabase : who.requireDatabase = .ok database) {disk : Disk} {place : Path}
    (hplace : Path.EndsIn ".mg" place) (hdisk : Disk.Rewrites (Path.IsBeside place) e.disk disk)
    {due : Firing} (hdue : due.database = database ∧ due.table = table) :
    triggerJobs disk budget who due = [] := by
  obtain ⟨name, other, event⟩ := due
  obtain ⟨rfl, rfl⟩ := hdue
  have hsame : Trigger.forEvent disk name other event = Trigger.forEvent e.disk name other event := by
    refine Trigger.forEvent_of_rewrites hdisk (fun there hthere hjson => ?_) name other event
    rcases hthere with rfl | ⟨kind, hkind⟩ | hlog
    · exact hplace.not (by decide) hjson
    · exact hkind.not (by cases kind <;> decide) hjson
    · exact hlog.not (by decide) hjson
  unfold triggerJobs
  dsimp only
  rw [hsame]
  rw [firesNothing, hdatabase] at h
  have hevent := List.all_eq_true.1 h event (by cases event <;> simp)
  cases hfound : Trigger.forEvent e.disk name other event with
  | error failure => rfl
  | ok triggers =>
    rw [hfound] at hevent
    cases triggers with
    | nil => rfl
    | cons first rest => exact absurd hevent (by simp)

theorem Plan.changedTable {rows after : List String}
    {entriesOf : Transaction → Nat → List Log.Entry}
    (h : Plan who e database command table rows after entriesOf) :
    command.changedTable? = some table := by
  cases h <;> rfl

theorem findsAgain_schema (h : e.findsAgain who command = true)
    (hdatabase : who.requireDatabase = .ok database) (htable : command.changedTable? = some table)
    {rows : List String} (hrows : Table.rows e.disk database table = .ok rows) {schema : TableSchema}
    (hschema : e.knownSchema database table = .ok schema) :
    schema.findsAgain rows command = true := by
  unfold findsAgain at h
  rw [hdatabase, htable] at h
  dsimp only at h
  rwa [hschema, hrows] at h

theorem IsSound.run (h : e.IsSound) (session : Session) (text : String) :
    IsSound (Engine.run session text e).2 :=
  (Trace.start.run_statement session text).isSound h

theorem parse_begin : Statement.parse "BEGIN" = .ok (.transaction .begin) := by
  decide +kernel

theorem parse_commit : Statement.parse "COMMIT" = .ok (.transaction .commit) := by
  decide +kernel

/-- What is stored at once. -/
theorem stores_now (htriggers : e.firesNothing who table = true)
    (hdatabase : who.requireDatabase = .ok database) {e₁ : Engine} {place : Path}
    {text text' : String} {after : List String} {firing : Option Firing} {upkeep : Upkeep}
    (hlocate : e.disk.locate (Path.table database table) = .ok (place, .file text))
    (hwritten : Text.filledLines text' = after)
    (hresult : (effect executing who command e).1.map Effect.firing = .ok firing)
    (hdue : ∀ due ∈ firing, due.database = database ∧ due.table = table)
    (hafter : (effect executing who command e).2
      = (upkeep.step { e₁ with disk := e.disk.put place (.file text') }).2) :
    (∃ outcome, (perform executing budget who command e).1 = .ok outcome) ∧
      Disk.Stores e.disk place after (perform executing budget who command e).2.disk := by
  have hends := Path.endsIn_of_locate hlocate (Path.endsIn_table database table)
  obtain ⟨-, -, -, -, -, -, hthere, -⟩ := Disk.locate_file hlocate
  have hput : Disk.Stores e.disk place after (e.disk.put place (.file text')) :=
    ⟨Disk.rewrites_put (.inl rfl) hthere text', text', by simp, hwritten⟩
  have hstored := hput.maintained hends
    (rewrites_of_upkeep upkeep { e₁ with disk := e.disk.put place (.file text') })
  rw [← hafter] at hstored
  obtain ⟨houtcome, hdone⟩ := @perform_of_ok who e executing budget command firing hresult
    fun due hmem => triggerJobs_eq_nil htriggers hdatabase hends hstored.rewrites (hdue due hmem)
  rw [hdone]
  exact ⟨houtcome, hstored⟩

/-- What is stored by the commit. -/
theorem stores_later {id : String} {entries : List Log.Entry}
    (h : (e.waiting who.user ⟨id, []⟩ entries).IsSound)
    (hallowed : authorize who (.transaction .commit) e.role = .ok ())
    (hdatabase : who.requireDatabase = .ok database)
    (htable : ∀ entry ∈ entries, entry.database = database ∧ entry.table = table)
    {place : Path} {text : String} {after : List String}
    (hlocate : e.disk.locate (Path.table database table) = .ok (place, .file text))
    (hreplay : Log.Entry.replay? entries (Text.filledLines text) = some after) :
    let ended := Engine.run (some who) "COMMIT" (e.waiting who.user ⟨id, []⟩ entries)
    (∃ outcome, ended.1 = .ok outcome) ∧ Disk.Stores e.disk place after ended.2.disk := by
  have hactive : (e.waiting who.user ⟨id, []⟩ entries).transactions.get? who.user
      = some ⟨id, entries.reverse⟩ := by
    simp [waiting]
  have hchanges : (⟨id, entries.reverse⟩ : Transaction).changes = entries := List.reverse_reverse _
  obtain ⟨done, e₁, hcommit, hstored⟩ := commit_of_replay? h hactive (by rw [hchanges]; exact htable)
    hlocate (by rw [hchanges]; exact hreplay)
  dsimp only
  rw [run_of_parse parse_commit]
  obtain ⟨houtcome, hended⟩ := @perform_commit who (e.waiting who.user ⟨id, []⟩ entries)
    (executeWithin e.settings.nestingLimit) e.settings.nestingLimit database e₁ id done hallowed
    hdatabase hcommit
  refine ⟨houtcome, ?_⟩
  have hends := Path.endsIn_of_locate hlocate (Path.endsIn_table database table)
  have hmaintained := hstored.maintained hends (rewrites_of_upkeep (.applied done) e₁)
  rw [← hended] at hmaintained
  exact hmaintained

/-- A statement in a transaction of its own fails as it does at once, or it succeeds as it does at
once. Then all other tables hold the same rows, and its own does if every row is found again. -/
theorem IsSound.bothWays (h : e.IsSound) (hapart : e.settings.isApart = true) {text : String}
    (hparse : Statement.parse text = .ok command) (htable : command.changedTable? = some table)
    (hdatabase : who.requireDatabase = .ok database) (hfree : e.inTransaction who.user = false)
    (htriggers : e.firesNothing who table = true) :
    let direct := Engine.run (some who) text e
    let begun := Engine.run (some who) "BEGIN" e
    let waiting := Engine.run (some who) text begun.2
    let ended := Engine.run (some who) "COMMIT" waiting.2
    FailAlike direct waiting ∨
      ((∃ outcome, direct.1 = .ok outcome) ∧ (∃ outcome, begun.1 = .ok outcome) ∧
          (∃ outcome, waiting.1 = .ok outcome) ∧ ∃ outcome, ended.1 = .ok outcome) ∧
        ∀ other name, (e.disk.locate (Path.table other name)
            = e.disk.locate (Path.table database table) → e.findsAgain who command = true) →
          Table.rows ended.2.disk other name = Table.rows direct.2.disk other name := by
  dsimp only
  obtain ⟨id, hbegunOk, hbegun⟩ := @perform_begin who e (executeWithin e.settings.nestingLimit)
    e.settings.nestingLimit database hdatabase hfree
  rw [← run_of_parse parse_begin] at hbegunOk hbegun
  have hsoundBegun := h.run (some who) "BEGIN"
  have hsoundWaiting := hsoundBegun.run (some who) text
  revert hbegunOk hbegun hsoundBegun hsoundWaiting
  generalize Engine.run (some who) "BEGIN" e = begun
  intro hbegunOk hbegun hsoundBegun hsoundWaiting
  have hview : SameView e begun.2 := by
    rw [hbegun]
    exact ⟨rfl, rfl, fun _ _ => rfl⟩
  have hrole : begun.2.role = e.role := by rw [hbegun]
  have hactive : begun.2.transactions.get? who.user = some ⟨id, []⟩ := by
    rw [hbegun]
    simp
  rw [run_of_parse hparse e]
  rw [run_of_parse hparse begun.2, hview.settings] at hsoundWaiting ⊢
  cases hallowed : authorize who command e.role with
  | error failure =>
    refine .inl ⟨failure, ?_, ?_⟩
    · exact perform_of_error (by rw [effect_of_refused hallowed])
    · exact perform_of_error (by rw [effect_of_refused (by rw [hrole]; exact hallowed)])
  | ok _ =>
  have hboth := @effect_bothWays who e begun.2 (executeWithin e.settings.nestingLimit) database
    command table h hapart htable (Statement.isWellNamed_of_parse hparse) hdatabase ⟨id, []⟩ hview
    hrole hallowed hfree hactive
  cases hboth with
  | failing hfail =>
    obtain ⟨failure, hnow, hlater⟩ := hfail
    exact .inl ⟨failure, perform_of_error hnow, perform_of_error hlater⟩
  | @changing table' rows after entriesOf e₁ e₁' place text text' hplan hquiet hquiet' hlocate hrows
      hwritten hnow hlater =>
    right
    obtain rfl : table = table' := Option.some.inj (htable.symm.trans hplan.changedTable)
    have hrowsRead := Table.rows_of_locate hlocate
    rw [← hrows] at hrowsRead
    have hfilled := fun row hrow => (h.disk.row hrowsRead row hrow).2
    obtain ⟨firing, upkeep, hdue, hresult, hafter⟩ := hnow
    obtain ⟨hdirectOk, hdirect⟩ := stores_now htriggers hdatabase hlocate hwritten hresult hdue hafter
    obtain ⟨hwaitingOk, hwaiting⟩ := @perform_of_ok who begun.2 _ e.settings.nestingLimit command none
      hlater.1 (by simp)
    rw [hwaiting, hlater.2] at hsoundWaiting ⊢
    have hfinds : (Log.Entry.replay? (entriesOf ⟨id, []⟩ (begun.2.clock / 1000000)) rows).isSome
        = true := hplan.isSome_replay? _ hfilled
    obtain ⟨rows', hreplay⟩ := Option.isSome_iff_exists.1 hfinds
    rw [hrows] at hreplay
    obtain ⟨hendedOk, hended⟩ := stores_later hsoundWaiting
      (by rw [hquiet'.role, hrole, ← authorize_changedTable htable, hallowed]) hdatabase
      (hplan.table_eq _) (by rw [hquiet'.disk, hview.disk]; exact hlocate) hreplay
    rw [hquiet'.disk, hview.disk] at hended
    refine ⟨⟨hdirectOk, hbegunOk, hwaitingOk, hendedOk⟩, fun other name hagain => ?_⟩
    refine hdirect.rows_eq hended hlocate other name fun hsame => ?_
    refine Option.some.inj (hreplay.symm.trans ?_)
    rw [← hrows]
    exact hplan.replay?_eq _ hfilled fun schema hschema =>
      findsAgain_schema (hagain hsame) hdatabase htable hrowsRead hschema

end Whole

/-- A statement fails alike at once and in a transaction of its own, or it succeeds both ways and
leaves the same rows in all tables that are spoken of. -/
def SameBothWays (e : Engine) (who : Identity) (text : String)
    (spoken : String → String → Prop) : Prop :=
  let direct := Engine.run (some who) text e
  let begun := Engine.run (some who) "BEGIN" e
  let waiting := Engine.run (some who) text begun.2
  let ended := Engine.run (some who) "COMMIT" waiting.2
  FailAlike direct waiting ∨
    ((∃ outcome, direct.1 = .ok outcome) ∧ (∃ outcome, begun.1 = .ok outcome) ∧
        (∃ outcome, waiting.1 = .ok outcome) ∧ ∃ outcome, ended.1 = .ok outcome) ∧
      ∀ database table, spoken database table →
        Table.rows ended.2.disk database table = Table.rows direct.2.disk database table

/-- Whether a table lies where the command of somebody changes rows. -/
def changesAt (e : Engine) (who : Identity) (command : Command) (database table : String) : Prop :=
  ∃ own changed, who.requireDatabase = .ok own ∧ command.changedTable? = some changed ∧
    e.disk.locate (Path.table database table) = e.disk.locate (Path.table own changed)

/-- Without a database a change fails the same way wherever it stands. -/
theorem failAlike_of_noDatabase {who : Identity} {e : Engine} {command : Command} {table text : String}
    (hparse : Statement.parse text = .ok command) (htable : command.changedTable? = some table)
    {failure : Error} (hdatabase : who.requireDatabase = .error failure) (e' : Engine) :
    FailAlike (Engine.run (some who) text e) (Engine.run (some who) text e') := by
  refine ⟨failure, ?_, ?_⟩ <;>
  · rw [run_of_parse hparse]
    exact perform_of_error (by rw [effect_of_refused (authorize_noDatabase htable hdatabase _)])

end Engine

/-- After every run a statement in a transaction of its own fails as it does at once, or succeeds as it
does at once and leaves the same rows in every table; in its own table if the commit finds every row
again that the statement changes. -/
theorem Run.sameBothWays_last (run : Run) (hapart : run.settings.isApart = true) (who : Identity)
    {text : String} {command : Command} {table : String} (hparse : Statement.parse text = .ok command)
    (htable : command.changedTable? = some table)
    (hfree : run.last.inTransaction who.user = false)
    (htriggers : run.last.firesNothing who table = true) :
    run.last.SameBothWays who text fun database name =>
      run.last.changesAt who command database name → run.last.findsAgain who command = true := by
  cases hdatabase : who.requireDatabase with
  | error failure => exact .inl (Engine.failAlike_of_noDatabase hparse htable hdatabase _)
  | ok database =>
    obtain ⟨log, disk, -, hfirst⟩ := Engine.openOn_eq_ok run.opened
    have hsettings : run.last.settings = run.settings := by rw [run.trace.settings_eq, hfirst]
    rcases run.isSound_last.bothWays (by rw [hsettings]; exact hapart) hparse htable hdatabase hfree
      htriggers with hfail | ⟨hoks, hrows⟩
    · exact .inl hfail
    · exact .inr ⟨hoks, fun other name hagain => hrows other name fun hsame =>
        hagain ⟨database, table, hdatabase, htable, hsame⟩⟩

namespace Run

/-- Who acts in the runs of a script. -/
def author : Identity := ⟨"asep", .supermaung, some "kantor"⟩

/-- Two rows of one identifier. -/
def twoRows : Run :=
  .script "asep" "kantor"
    ["CREATE TABLE t id:INT, nama:STRING", "INSERT t 1|a", "INSERT t 1|b"]

/-- The first of the two rows is found again. -/
theorem sameBothWays_twoRows :
    twoRows.last.findsAgain author (.delete "t" [⟨"nama", .equal, "a", none⟩]) = true ∧
      twoRows.last.SameBothWays author "DELETE FROM t WHERE nama = a" fun _ _ => True := by
  have hrun : Settings.standard.isApart = true ∧
      Statement.parse "DELETE FROM t WHERE nama = a"
        = .ok (.delete "t" [⟨"nama", .equal, "a", none⟩]) ∧
      twoRows.last.inTransaction "asep" = false ∧
      twoRows.last.firesNothing author "t" = true ∧
      twoRows.last.findsAgain author (.delete "t" [⟨"nama", .equal, "a", none⟩]) = true := by
    decide +kernel
  obtain ⟨hapart, hparse, hfree, htriggers, hagain⟩ := hrun
  refine ⟨hagain, ?_⟩
  rcases twoRows.sameBothWays_last hapart author hparse rfl hfree htriggers with hfail | ⟨hoks, hrows⟩
  · exact .inl hfail
  · exact .inr ⟨hoks, fun database table _ => hrows database table fun _ => hagain⟩

/-- The log in a directory that has the name of a table. -/
def logInTable : Run where
  settings := { Settings.standard with logPlace := some "db_kantor/t.mg" }
  clock := 0
  first :=
    { twoRows.first with
      settings := { Settings.standard with logPlace := some "db_kantor/t.mg" }
      disk := ((Disk.empty.put ["db_kantor"] .directory).put ["db_kantor", "t.mg"] .directory).put
        ["db_kantor", "t.mg", "wal.log"] (.file "")
      log := { path := ["db_kantor", "t.mg", "wal.log"], next := 1 } }
  opened := by decide +kernel
  events := [.createDatabase "kantor", .statement (some author) "CREATE TABLE t id:INT"]

/-- The second of two rows of one identifier is not found again, the commit removes the first one; and
a row that cannot be stored at once can still wait in a transaction. -/
theorem not_sameBothWays :
    (¬∀ (run : Run) (who : Identity) (text : String) (command : Command) (table : String),
      run.settings.isApart = true → Statement.parse text = .ok command →
        command.changedTable? = some table → run.last.inTransaction who.user = false →
          run.last.firesNothing who table = true →
            run.last.SameBothWays who text fun _ _ => True) ∧
    ¬∀ (run : Run) (who : Identity) (text : String) (command : Command) (table : String),
      Statement.parse text = .ok command →
        command.changedTable? = some table → run.last.inTransaction who.user = false →
          run.last.firesNothing who table = true → run.last.findsAgain who command = true →
            run.last.SameBothWays who text fun _ _ => True := by
  constructor
  · intro h
    have hrun : Settings.standard.isApart = true ∧
        Statement.parse "DELETE FROM t WHERE nama = b"
          = .ok (.delete "t" [⟨"nama", .equal, "b", none⟩]) ∧
        twoRows.last.inTransaction "asep" = false ∧
        twoRows.last.firesNothing author "t" = true := by
      decide +kernel
    obtain ⟨hapart, hparse, hfree, htriggers⟩ := hrun
    have hways :
        let text := "DELETE FROM t WHERE nama = b"
        let direct := Engine.run (some author) text twoRows.last
        let waiting := Engine.run (some author) text (Engine.run (some author) "BEGIN" twoRows.last).2
        let ended := Engine.run (some author) "COMMIT" waiting.2
        direct.1.isOk = true ∧ Table.rows direct.2.disk "kantor" "t" = .ok ["1|a"] ∧
          Table.rows ended.2.disk "kantor" "t" = .ok ["1|b"] := by
      decide +kernel
    obtain ⟨hok, hdirect, hended⟩ := hways
    rcases h twoRows author _ _ _ hapart hparse rfl hfree htriggers with ⟨failure, hfail, -⟩ | ⟨-, hrows⟩
    · rw [hfail] at hok
      cases hok
    · have hsame := hrows "kantor" "t" trivial
      rw [hdirect, hended] at hsame
      exact absurd hsame (by decide)
  · intro h
    have hrun : Statement.parse "INSERT t 1" = .ok (.insert "t" "1") ∧
        logInTable.last.inTransaction "asep" = false ∧
        logInTable.last.firesNothing author "t" = true ∧
        logInTable.last.findsAgain author (.insert "t" "1") = true := by
      decide +kernel
    obtain ⟨hparse, hfree, htriggers, hagain⟩ := hrun
    have hways :
        let direct := Engine.run (some author) "INSERT t 1" logInTable.last
        let waiting :=
          Engine.run (some author) "INSERT t 1" (Engine.run (some author) "BEGIN" logInTable.last).2
        direct.1.isOk = false ∧ waiting.1.isOk = true := by
      decide +kernel
    obtain ⟨hdirect, hwaiting⟩ := hways
    rcases h logInTable author _ _ _ hparse rfl hfree htriggers hagain with
      ⟨failure, -, hfail⟩ | ⟨⟨⟨outcome, hok⟩, -⟩, -⟩
    · rw [hfail] at hwaiting
      cases hwaiting
    · rw [hok] at hdirect
      cases hdirect

end Run

end FlatFileDb
