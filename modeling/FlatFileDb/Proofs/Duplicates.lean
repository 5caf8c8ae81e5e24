import FlatFileDb.Proofs.Direct
import Mathlib.Data.List.Pairwise

/-!
# Duplicates are refused, and nothing else for their sake

An insertion compares the values of its row with the stored ones. An update does not build the table that it
would leave: for each value assigned to a unique column it counts the rows that it matches, and looks for the
value in the others. Both come to what a look at the whole table after the change would come to. So where
everything else is in order, a statement that is made at once is refused for a duplicate exactly if the
table that it would leave has one, and else it is made.
-/

namespace FlatFileDb

namespace TableSchema

variable {schema : TableSchema} {rows matched others : List String} {conditions : List Condition}
  {assignments : List Assignment} {a : Assignment}

/-! ### What an update would leave -/

/-- The rows that an update would leave, whether it is made or not. -/
def updated (schema : TableSchema) (assignments : List Assignment) (conditions : List Condition)
    (rows : List String) : List String :=
  rows.map fun row => if schema.matchesRow conditions row then schema.assign assignments row else row

/-- Whether an assignment gives a unique column one value twice. -/
structure Clashes (matched others : List String) (a : Assignment) : Prop where
  unique : a.column.unique = true
  there : Field.isNull a.value = false
  anyMatched : matched ≠ []
  /-- Two rows get the value, or one gets it and another one has it. -/
  second : 1 < matched.length ∨ ∃ row ∈ others, (Row.fields row)[a.position]? = some a.value

theorem checkUnique_ok_or (matched others : List String) (a : Assignment) :
    checkUnique matched others a = .ok () ∨ Clashes matched others a ∧
      checkUnique matched others a = .error (.duplicateValue a.value a.column.name) := by
  unfold checkUnique
  split
  · rename_i h
    simp only [Bool.and_eq_true, Bool.not_eq_true', List.isEmpty_eq_false_iff, Bool.or_eq_true,
      decide_eq_true_eq, List.any_eq_true, beq_iff_eq] at h
    obtain ⟨⟨⟨hunique, hthere⟩, hmatched⟩, hsecond⟩ := h
    exact .inr ⟨⟨hunique, hthere, hmatched, hsecond⟩, rfl⟩
  · exact .inl rfl

/-- After such an assignment two rows hold the value. -/
theorem Clashes.not_isUnique (h : Clashes (rows.filter (schema.matchesRow conditions))
      (rows.filter fun row => !schema.matchesRow conditions row) a)
    (hcolumn : schema.columns[a.position]? = some a.column)
    (hassigned : ∀ row, (Row.fields (schema.assign assignments row))[a.position]? = some a.value) :
    ¬schema.IsUnique (schema.updated assignments conditions rows) := by
  intro hunique
  let field (row : String) : Option String :=
    (Row.fields (if schema.matchesRow conditions row then schema.assign assignments row
      else row))[a.position]?
  have hne : rows.Pairwise fun first second => ∀ value, Field.isNull value = false →
      ¬(field first = some value ∧ field second = some value) :=
    List.pairwise_map.1 (hunique a.position a.column hcolumn (.inl h.unique))
  have hholds {row : String} (hrow : row ∈ rows.filter (schema.matchesRow conditions)) :
      field row = some a.value := by
    simp only [field, (List.mem_filter.1 hrow).2, if_true]
    exact hassigned row
  rcases h.second with hmany | ⟨other, hother, hvalue⟩
  · have hpair := hne.sublist (List.filter_sublist (p := schema.matchesRow conditions))
    rcases hrows : rows.filter (schema.matchesRow conditions) with _ | ⟨first, _ | ⟨second, rest⟩⟩
    · exact h.anyMatched hrows
    · rw [hrows] at hmany
      exact absurd hmany (by simp)
    · rw [hrows] at hholds hpair
      exact List.rel_of_pairwise_cons hpair List.mem_cons_self a.value h.there
        ⟨hholds (by simp), hholds (by simp)⟩
  · obtain ⟨first, hfirst⟩ := List.exists_mem_of_ne_nil _ h.anyMatched
    obtain ⟨hother, hno⟩ := List.mem_filter.1 hother
    rw [Bool.not_eq_true'] at hno
    have hdistinct : first ≠ other := by
      rintro rfl
      exact absurd ((List.mem_filter.1 hfirst).2.symm.trans hno) (by decide)
    have hkept : field other = some a.value := by
      simp only [field, hno, Bool.false_eq_true, if_false]
      exact hvalue
    have : Std.Symm fun first second => ∀ value, Field.isNull value = false →
        ¬(field first = some value ∧ field second = some value) :=
      ⟨fun _ _ hne value hnull hsame => hne value hnull hsame.symm⟩
    exact hne.forall (List.mem_filter.1 hfirst).1 hother hdistinct a.value h.there
      ⟨hholds hfirst, hkept⟩

/-- An update of unique rows is made if it leaves unique rows, and else refused for a duplicate. -/
theorem update_ok_or {assigned : List (String × String)} (hsound : schema.IsSound)
    (hrows : schema.IsUnique rows)
    (hassigned : Engine.PassesAs schema assigned assignments) (hkeys : (assigned.map Prod.fst).Nodup) :
    (∃ result, schema.update assignments conditions rows = .ok result) ∧
        schema.IsUnique (schema.updated assignments conditions rows) ∨
      (∃ value column, schema.update assignments conditions rows
        = .error (.duplicateValue value column)) ∧
        ¬schema.IsUnique (schema.updated assignments conditions rows) := by
  cases hupdate : schema.update assignments conditions rows with
  | ok result =>
    have hunique := hrows.update hsound hassigned hupdate
    rw [(update_eq_ok hupdate).1] at hunique
    exact .inl ⟨⟨result, rfl⟩, hunique⟩
  | error failure =>
    obtain ⟨a, ha, hfailed⟩ : ∃ a ∈ assignments, checkUnique (rows.filter (schema.matchesRow conditions))
        (rows.filter fun row => !schema.matchesRow conditions row) a = .error failure := by
      rw [update_eq] at hupdate
      cases hchecks : assignments.forM (checkUnique (rows.filter (schema.matchesRow conditions))
          (rows.filter fun row => !schema.matchesRow conditions row)) with
      | ok _ =>
        rw [hchecks] at hupdate
        exact absurd hupdate (by simp [bind, Except.bind, pure, Except.pure])
      | error found =>
        rw [hchecks] at hupdate
        obtain rfl := Except.error.inj hupdate
        exact Action.exists_of_forM_eq_error hchecks
    rcases checkUnique_ok_or (rows.filter (schema.matchesRow conditions))
      (rows.filter fun row => !schema.matchesRow conditions row) a with hok | ⟨hclashes, herror⟩
    · exact absurd (hok.symm.trans hfailed) (by simp)
    · obtain rfl := Except.error.inj (herror.symm.trans hfailed)
      obtain ⟨-, -, -, hcolumn, -, -⟩ := hassigned.exists_of_mem ha
      refine .inr ⟨⟨_, _, rfl⟩, hclashes.not_isUnique hcolumn fun row => ?_⟩
      rw [getElem?_fields_assign hassigned.isClean row (List.getElem?_eq_some_iff.1 hcolumn).1,
        hassigned.valueAt?_of_mem hkeys hsound ha, Option.getD_some]

/-- What an update makes of a row is settled by the values that it assigns. -/
theorem Assigns.unique {assigned : Keyed String String} {row first second : String}
    (htakes : schema.Takes row) (h : schema.Assigns assigned row first)
    (h' : schema.Assigns assigned row second) : first = second := by
  have hfields : Row.fields first = Row.fields second := by
    refine List.ext_getElem? fun position => ?_
    cases hcolumn : schema.columns[position]? with
    | some column => rw [h.fields position column hcolumn, h'.fields position column hcolumn]
    | none =>
      have hbound := List.getElem?_eq_none_iff.1 hcolumn
      rw [← htakes.width] at hbound
      rw [List.getElem?_eq_none (h.width ▸ hbound), List.getElem?_eq_none (h'.width ▸ hbound)]
  rw [← Row.ofFields_fields first, hfields, Row.ofFields_fields]

/-- Where the rows that an update matches hold its values already, all rows stay what they are. -/
theorem eq_of_updates {assigned : Keyed String String} {after : List String}
    (htakes : ∀ row ∈ rows, schema.Takes row)
    (h : List.Forall₂ (schema.Updates assigned conditions) rows after)
    (hkept : ∀ row ∈ rows, schema.matchesRow conditions row = true → schema.Assigns assigned row row) :
    after = rows := by
  induction h with
  | nil => rfl
  | @cons row row' rest after hrow hrest ih =>
    have hsame : row' = row := by
      cases hmatched : schema.matchesRow conditions row with
      | false => exact hrow.unmatched hmatched
      | true => exact (hrow.matched hmatched).unique (htakes row (by simp)) (hkept row (by simp) hmatched)
    rw [hsame, ih (fun row hrow => htakes row (List.mem_cons_of_mem _ hrow))
      fun row hrow => hkept row (List.mem_cons_of_mem _ hrow)]

end TableSchema

namespace Engine

variable {who : Identity} {database table row : String} {schema : TableSchema} {rows : List String}
  {assigned : Keyed String String} {conditions : List Condition} {command : Command}
  {column : Column} {value : String} {e : Engine}

/-! ### Everything else -/

/-- Whether a value is stored where its column refers to, if it refers to anything. -/
def Refers (e : Engine) (database : String) (column : Column) (value : String) : Prop :=
  ∀ target, column.reference = some target → Field.isNull value = false →
    ∃ schema position rows, e.knownSchema database target.table = .ok schema ∧
      schema.columnIndex? target.column = some position ∧
      Table.rows e.disk database target.table = .ok rows ∧
      ∃ row ∈ rows, (Row.fields row)[position]? = some value

/-- Whether a statement about a table passes everything but the look for duplicates. -/
inductive PassesRest (e : Engine) (database table : String) (schema : TableSchema) : Command → Prop where
  | insert {row : String} (htakes : schema.Takes row)
    (hrefers : ∀ (position : Nat) (column : Column) (value : String),
      schema.columns[position]? = some column → (Row.fields row)[position]? = some value →
        e.Refers database column value) :
    PassesRest e database table schema (.insert table row)
  | update {assigned : Keyed String String} {conditions : List Condition} (hkeys : assigned.keys.Nodup)
    (hassigned : ∀ pair ∈ assigned.entries, ∃ column ∈ schema.columns, column.name = pair.1 ∧
      column.Takes pair.2 ∧ Row.delimiter ∉ pair.2.toList ∧ e.Refers database column pair.2) :
    PassesRest e database table schema (.update table assigned conditions)

/-- What a statement about a table would leave of its rows. -/
inductive Proposes (table : String) (schema : TableSchema) (rows : List String) :
    Command → List String → Prop where
  | insert {row : String} : Proposes table schema rows (.insert table row) (rows ++ [row])
  | update {assigned : Keyed String String} {conditions : List Condition} {after : List String}
    (h : List.Forall₂ (schema.Updates assigned conditions) rows after) :
    Proposes table schema rows (.update table assigned conditions) after

theorem Refers.run_check {target : Reference} (h : e.Refers database column value)
    (htarget : column.reference = some target) (hnull : Field.isNull value = false) :
    ((StoredCheck.present value column.name target).run (storedValues database) e).1 = .ok () := by
  obtain ⟨schema, position, rows, hschema, hposition, hrows, row, hrow, hfield⟩ := h target htarget hnull
  rw [storedCheck_result]
  change (storedValues database target.table target.column e).1 >>= _ = _
  rw [storedValues_of_rows hschema hposition hrows]
  exact if_pos (List.contains_iff_mem.2 (List.mem_filterMap.2 ⟨row, hrow, hfield⟩))

/-! ### Insertions -/

/-- A value is refused as a duplicate only where a row holds it in the column. -/
theorem exists_of_run_absent (hsound : schema.IsSound)
    (hschema : e.knownSchema database schema.name = .ok schema)
    (hrows : Table.rows e.disk database schema.name = .ok rows) {position : Nat}
    (hcolumn : schema.columns[position]? = some column) {failure : Error}
    (h : ((StoredCheck.absent schema.name column.name value).run (storedValues database) e).1
      = .error failure) :
    failure = .duplicateValue value column.name ∧
      ∃ row ∈ rows, (Row.fields row)[position]? = some value := by
  rw [storedCheck_result] at h
  change (storedValues database schema.name column.name e).1 >>= _ = _ at h
  rw [storedValues_of_rows hschema (TableSchema.columnIndex?_of_getElem? hsound hcolumn) hrows] at h
  change (if (rows.filterMap fun row => (Row.fields row)[position]?).contains value then _ else _) = _ at h
  split at h
  · rename_i hstored
    exact ⟨(Except.error.inj h).symm, List.mem_filterMap.1 (List.contains_iff_mem.1 hstored)⟩
  · exact absurd h (by simp)

/-- A row that passes everything else is taken if the rows stay unique with it, and else refused for a
duplicate. -/
theorem checkRow_ok_or (hsound : schema.IsSound)
    (hschema : e.knownSchema database schema.name = .ok schema)
    (hrows : Table.rows e.disk database schema.name = .ok rows) (hunique : schema.IsUnique rows)
    (htakes : schema.Takes row)
    (hrefers : ∀ (position : Nat) (column : Column) (value : String),
      schema.columns[position]? = some column → (Row.fields row)[position]? = some value →
        e.Refers database column value) :
    (schema.checkRow (storedValues database) row e).1 = .ok () ∧ schema.IsUnique (rows ++ [row]) ∨
      (∃ value column, (schema.checkRow (storedValues database) row e).1
        = .error (.duplicateValue value column)) ∧ ¬schema.IsUnique (rows ++ [row]) := by
  cases hcheck : (schema.checkRow (storedValues database) row e).1 with
  | ok done =>
    exact .inl ⟨rfl, hunique.concat (TableSchema.isNewAmong_of_checkRow hsound hschema hrows hcheck)⟩
  | error failure =>
    rw [checkRow_result, htakes.checkFields] at hcheck
    obtain ⟨check, hmem, hfailed⟩ := Action.exists_of_forM_eq_error hcheck
    obtain ⟨position, column, value, hcolumn, hvalue, hnull, hkind⟩ := TableSchema.mem_storedChecks.1 hmem
    rcases hkind with ⟨hcolumnUnique, rfl⟩ | ⟨target, htarget, rfl⟩
    · obtain ⟨rfl, other, hother, hsame⟩ := exists_of_run_absent hsound hschema hrows hcolumn hfailed
      refine .inr ⟨⟨_, _, rfl⟩, fun hafter => ?_⟩
      have hne := hafter position column hcolumn (.inl hcolumnUnique)
      exact (List.pairwise_append.1 hne).2.2 other hother row (by simp) value hnull ⟨hsame, hvalue⟩
    · have hpassed := (hrefers position column value hcolumn hvalue).run_check htarget hnull
      exact absurd (hpassed.symm.trans hfailed) (by simp)

/-- On a readable table, an insertion that is made at once fails as its checks do. -/
theorem insert_failure? (hschema : (writableSchema who database table e).1 = .ok schema)
    (hfree : e.inTransaction who.user = false)
    (hrows : Table.rows e.disk database table = .ok rows) (row : String) :
    Action.failure? (insert who database table row e).1
      = Action.failure? (schema.checkRow (storedValues database) row e).1 := by
  have hquiet := (observes_writableSchema who database table).quiet e
  generalize hlooked : (writableSchema who database table e).2 = e₁ at hquiet
  have hchecks := observes_checkRow schema database row
  have hsame := hchecks.stable e e₁ hquiet.sameView
  unfold insert
  rw [Action.bind_of_ok (Prod.ext hschema hlooked), ← hsame]
  cases hcheck : schema.checkRow (storedValues database) row e₁ with
  | mk result e₂ =>
  cases result with
  | error failure =>
    rw [Action.bind_of_error hcheck]
    rfl
  | ok done =>
    have hmore := hchecks.quiet e₁
    rw [hcheck] at hmore
    obtain ⟨place, text, hlocate, -⟩ := Table.locate_of_rows hrows
    have happended : onDisk (Table.append database table row) e₂
        = (.ok (), { e₂ with disk := e.disk.put place (.file (text ++ (row ++ "\n"))) }) := by
      rw [onDisk, Action.onPart_apply, hmore.disk, hquiet.disk, Table.append_of_locate hlocate]
    rw [Action.bind_of_ok hcheck, isBuffering_bind, hmore.inTransaction, hquiet.inTransaction, hfree,
      if_neg Bool.false_ne_true, Action.bind_of_ok happended,
      Action.bind_of_ok (patchIndexes_ok schema [] [row] _)]
    rfl

/-! ### Updates -/

/-- What an update assigns passes, where the columns take it and what it refers to is stored. -/
theorem exists_assignments (hsound : schema.IsSound) {pairs : List (String × String)}
    (h : ∀ pair ∈ pairs, ∃ column ∈ schema.columns, column.name = pair.1 ∧ column.Takes pair.2 ∧
      Row.delimiter ∉ pair.2.toList ∧ e.Refers database column pair.2) (table : String) :
    ∃ assignments, (pairs.mapM (checkAssignment schema database table) e).1 = .ok assignments := by
  rw [Observes.result_mapM (observes_checkAssignment schema database table)]
  refine Action.mapM_of_exists fun (name, value) hpair => ?_
  obtain ⟨column, hcolumn, rfl, htakes, hbar, hrefers⟩ := h _ hpair
  obtain ⟨position, hposition⟩ := List.mem_iff_getElem?.1 hcolumn
  refine ⟨⟨position, column, value⟩, ?_⟩
  unfold checkAssignment
  dsimp only
  rw [Action.ofExcept_bind,
    requireColumn_eq_ok.2 (TableSchema.columnIndex?_of_getElem? hsound hposition)]
  dsimp only
  rw [hposition]
  dsimp only
  rw [Action.ofExcept_bind, htakes.checkField hbar]
  dsimp only
  cases hcheck : column.referenceCheck? value with
  | none => rfl
  | some check =>
    unfold Column.referenceCheck? at hcheck
    split at hcheck
    · exact absurd hcheck (by simp)
    · rename_i hnull
      obtain ⟨target, htarget, rfl⟩ := Option.map_eq_some_iff.1 hcheck
      dsimp only
      rw [Action.bind_of_ok (Prod.ext (hrefers.run_check htarget (by simpa using hnull)) rfl)]
      rfl

/-- On a readable table, an update that is made at once and whose values pass fails as the rewriting of the
rows does. -/
theorem update_failure? (hschema : (writableSchema who database table e).1 = .ok schema)
    (hfree : e.inTransaction who.user = false)
    (hrows : Table.rows e.disk database table = .ok rows) {assignments : List Assignment}
    (hassigned : (assigned.entries.mapM (checkAssignment schema database table) e).1 = .ok assignments)
    (conditions : List Condition) :
    Action.failure? (update who database table assigned conditions e).1
      = Action.failure? (schema.update assignments conditions rows) := by
  have hquiet := (observes_writableSchema who database table).quiet e
  generalize hlooked : (writableSchema who database table e).2 = e₁ at hquiet
  have hchecks : Observes (assigned.entries.mapM (checkAssignment schema database table)) :=
    .mapM (observes_checkAssignment schema database table)
  have hsame := hchecks.stable e e₁ hquiet.sameView
  have hmore := hchecks.quiet e₁
  generalize hchecked : (assigned.entries.mapM (checkAssignment schema database table) e₁).2 = e₂ at hmore
  obtain ⟨place, text, hlocate, rfl⟩ := Table.locate_of_rows hrows
  unfold update
  rw [Action.bind_of_ok (Prod.ext hschema hlooked),
    Action.bind_of_ok (Prod.ext (hsame.trans hassigned) hchecked), isBuffering_bind, hmore.inTransaction,
    hquiet.inTransaction, hfree, if_neg Bool.false_ne_true]
  rcases onDisk_bind (Table.modify database table (schema.update assignments conditions)) _ e₂ with
    ⟨failure, disk, hmodify, hrun⟩ | ⟨changed, disk, hmodify, hrun⟩
  · rw [hrun]
    rw [hmore.disk, hquiet.disk, Table.modify_of_locate hlocate] at hmodify
    cases hupdate : schema.update assignments conditions (Text.filledLines text) with
    | error found =>
      rw [hupdate] at hmodify
      rw [Except.error.inj (congrArg Prod.fst hmodify)]
      rfl
    | ok result =>
      rw [hupdate] at hmodify
      exact absurd (congrArg Prod.fst hmodify) (by simp)
  · rw [hrun]
    rw [hmore.disk, hquiet.disk, Table.modify_of_locate hlocate] at hmodify
    cases hupdate : schema.update assignments conditions (Text.filledLines text) with
    | error found =>
      rw [hupdate] at hmodify
      exact absurd (congrArg Prod.fst hmodify) (by simp)
    | ok result =>
      cases changed with
      | nil => rfl
      | cons first rest =>
        exact (congrArg (fun step => Action.failure? step.1)
          (Action.bind_of_ok (patchIndexes_ok schema _ _ _))).trans rfl

/-! ### Statements -/

theorem PassesRest.authorize (h : e.PassesRest database table schema command)
    (hdatabase : who.requireDatabase = .ok database) (hmaster : e.role = .master) :
    RunsSelected who command ∧ Engine.authorize who command e.role = .ok () := by
  rw [hmaster]
  cases h <;>
  · refine ⟨fun _ => rfl, ?_⟩
    unfold Engine.authorize
    rw [hdatabase]
    rfl

theorem IsSound.ok_or_duplicate (h : e.IsSound) (hdatabase : who.requireDatabase = .ok database)
    (htable : Name.isValid table = true) (hschema : Engine.readSchema e.disk database table = .ok schema)
    (hwrite : who.role ∈ schema.permissions.write) (hmaster : e.role = .master)
    (hfree : e.inTransaction who.user = false)
    (hrows : Table.rows e.disk database table = .ok rows) (htaken : AllTaken schema rows)
    (hunique : schema.IsUnique rows) (hpasses : e.PassesRest database table schema command) :
    ∃ after, Proposes table schema rows command after ∧
      ((∃ outcome, (executeAs who command e).1 = .ok outcome) ∧ schema.IsUnique after ∨
        (∃ value column, (executeAs who command e).1 = .error (.duplicateValue value column)) ∧
          ¬schema.IsUnique after) := by
  have hknown := h.knownSchema_of_readSchema htable hschema
  obtain ⟨-, hsound, rfl⟩ := h.knownSchema htable hknown
  have hwritable := writableSchema_of_require hknown (TableSchema.require_eq_ok.2 hwrite)
  obtain ⟨hruns, hallowed⟩ := hpasses.authorize hdatabase hmaster
  have hresult := (congrArg Action.failure? (executeAs_result hruns hallowed hdatabase)).trans
    (Action.failure?_map _ _)
  simp only [← Action.failure?_eq_none, ← Action.failure?_eq_some]
  cases hpasses with
  | @insert row htakes hrefers =>
    refine ⟨_, .insert, ?_⟩
    rw [hresult.trans (insert_failure? hwritable hfree hrows row)]
    rcases checkRow_ok_or hsound hknown hrows hunique htakes hrefers with
      ⟨hok, hafter⟩ | ⟨⟨value, column, hfailed⟩, hafter⟩
    · exact .inl ⟨by rw [hok]; rfl, hafter⟩
    · exact .inr ⟨⟨value, column, by rw [hfailed]; rfl⟩, hafter⟩
  | @update assigned conditions hkeys hassigned =>
    obtain ⟨assignments, hmade⟩ := exists_assignments hsound hassigned schema.name
    have hassignments := passesAs_of_mapM hmade
    refine ⟨_, .update (hassignments.updates_map hkeys hsound htaken conditions), ?_⟩
    rw [hresult.trans (update_failure? hwritable hfree hrows hmade conditions)]
    rcases TableSchema.update_ok_or hsound hunique hassignments hkeys with
      ⟨⟨result, hok⟩, hafter⟩ | ⟨⟨value, column, hfailed⟩, hafter⟩
    · exact .inl ⟨by rw [hok]; rfl, hafter⟩
    · exact .inr ⟨⟨value, column, by rw [hfailed]; rfl⟩, hafter⟩

/-- In every sound state in which the rows of a table are well formed and unique, a statement that is made
at once and passes everything else is refused for a duplicate exactly if the table that it would leave has
one, and else it is made. An update whose values the rows that it matches hold already is made. -/
theorem IsSound.duplicateValue_iff (h : e.IsSound) (hdatabase : who.requireDatabase = .ok database)
    (htable : Name.isValid table = true) (hschema : Engine.readSchema e.disk database table = .ok schema)
    (hwrite : who.role ∈ schema.permissions.write) (hmaster : e.role = .master)
    (hfree : e.inTransaction who.user = false)
    (hrows : Table.rows e.disk database table = .ok rows) (htaken : AllTaken schema rows)
    (hunique : schema.IsUnique rows) (hpasses : e.PassesRest database table schema command) :
    ∃ after, Proposes table schema rows command after ∧
      ((∃ value column, (executeAs who command e).1 = .error (.duplicateValue value column)) ↔
        ¬schema.IsUnique after) ∧
      ((∃ outcome, (executeAs who command e).1 = .ok outcome) ↔ schema.IsUnique after) ∧
      ∀ assigned conditions, command = .update table assigned conditions →
        (∀ row ∈ rows, schema.matchesRow conditions row = true → schema.Assigns assigned row row) →
          ∃ outcome, (executeAs who command e).1 = .ok outcome := by
  obtain ⟨after, hproposes, hcases⟩ :=
    h.ok_or_duplicate hdatabase htable hschema hwrite hmaster hfree hrows htaken hunique hpasses
  refine ⟨after, hproposes, ?_⟩
  rcases hcases with ⟨⟨outcome, hok⟩, hafter⟩ | ⟨⟨value, column, hfailed⟩, hafter⟩
  · refine ⟨⟨?_, fun hno => absurd hafter hno⟩, ⟨fun _ => hafter, fun _ => ⟨outcome, hok⟩⟩,
      fun _ _ _ _ => ⟨outcome, hok⟩⟩
    rintro ⟨value, column, hfailed⟩
    exact absurd (hok.symm.trans hfailed) (by simp)
  · refine ⟨⟨fun _ => hafter, fun _ => ⟨value, column, hfailed⟩⟩, ⟨?_, fun hyes => absurd hyes hafter⟩, ?_⟩
    · rintro ⟨outcome, hok⟩
      exact absurd (hok.symm.trans hfailed) (by simp)
    · rintro assigned conditions rfl hkept
      cases hproposes with
      | update hupdates =>
        rw [TableSchema.eq_of_updates htaken hupdates hkept] at hafter
        exact absurd hunique hafter

end Engine

namespace Run

/-- Two pupils with an address each, one of them in a form. -/
def addresses : Run :=
  .script "asep" "kantor"
    ["CREATE TABLE kelas id:INT:PK", "INSERT kelas 1",
      "CREATE TABLE siswa nis:INT:PK, surel:STRING:UNIQUE, kelas:INT:FK(kelas.id)",
      "INSERT siswa 7|a|1", "INSERT siswa 8|b|"]

def formSchema : TableSchema where
  database := "kantor"
  name := "kelas"
  columns := [(Column.plain "id" .int).constrain .primaryKey]
  permissions := .standard

def addressSchema : TableSchema where
  database := "kantor"
  name := "siswa"
  columns := [(Column.plain "nis" .int).constrain .primaryKey,
    (Column.plain "surel" .string).constrain .unique,
    (Column.plain "kelas" .int).constrain (.references ⟨"kelas", "id"⟩)]
  permissions := .standard

/-- The address of the second pupil. -/
def secondAddress : Keyed String String := ⟨[("surel", "b")]⟩

/-- The second pupil. -/
def secondPupil : List Condition := [⟨"nis", .equal, "8", none⟩]

/-- The address of the first pupil is refused for a third one; the second may get the one that he has. -/
theorem duplicateValue_iff_addresses :
    (∃ after, Engine.Proposes "siswa" addressSchema ["7|a|1", "8|b|"] (.insert "siswa" "9|a|1") after ∧
        ¬addressSchema.IsUnique after) ∧
      (Engine.executeAs author (.insert "siswa" "9|a|1") addresses.last).1
        = .error (.duplicateValue "a" "surel") ∧
      ∃ outcome, (Engine.executeAs author (.update "siswa" secondAddress secondPupil) addresses.last).1
        = .ok outcome := by
  have hrun : addresses.last.knownSchema "kantor" "siswa" = .ok addressSchema ∧
      addresses.last.knownSchema "kantor" "kelas" = .ok formSchema ∧
      Table.rows addresses.last.disk "kantor" "siswa" = .ok ["7|a|1", "8|b|"] ∧
      Table.rows addresses.last.disk "kantor" "kelas" = .ok ["1"] ∧
      (∀ x ∈ addresses.executions, x.staysUnique = true) ∧
      addresses.last.inTransaction "asep" = false ∧ addresses.last.role = .master ∧
      (Engine.executeAs author (.insert "siswa" "9|a|1") addresses.last).1
        = .error (.duplicateValue "a" "surel") := by
    decide +kernel
  obtain ⟨hknown, hforms, hrows, hformRows, hstays, hfree, hmaster, hrefused⟩ := hrun
  have hread := addresses.isSound_last.readSchema (by decide) hknown
  have htaken := addresses.holds_allTaken.rows (by decide) hread hrows
  have hunique := addresses.isUnique_last hstays (by decide) hread hrows
  have hstatement (command : Command)
      (hpasses : addresses.last.PassesRest "kantor" "siswa" addressSchema command) :=
    @Engine.IsSound.duplicateValue_iff author "kantor" "siswa" addressSchema _ command _
      addresses.isSound_last rfl (by decide) hread (by decide) hmaster hfree hrows htaken hunique hpasses
  have hinsert : addresses.last.PassesRest "kantor" "siswa" addressSchema (.insert "siswa" "9|a|1") := by
    refine .insert (TableSchema.takes_of_checkFields (by decide +kernel)) ?_
    intro position column value hcolumn hvalue target htarget _
    match position with
    | 0 | 1 =>
      obtain rfl := Option.some.inj hcolumn
      exact nomatch htarget
    | 2 =>
      obtain rfl := Option.some.inj hcolumn
      obtain rfl := Option.some.inj htarget
      obtain rfl : "1" = value := by
        have hfield : (Row.fields "9|a|1")[2]? = some "1" := by decide
        exact Option.some.inj (hfield.symm.trans hvalue)
      exact ⟨formSchema, 0, ["1"], hforms, by decide, hformRows, "1", by decide, by decide⟩
    | position + 3 => exact absurd hcolumn (by simp [addressSchema])
  have hupdate : addresses.last.PassesRest "kantor" "siswa" addressSchema
      (.update "siswa" secondAddress secondPupil) := by
    refine .update (by decide) (List.forall_mem_singleton.2 ?_)
    refine ⟨_, List.mem_cons_of_mem _ List.mem_cons_self, rfl,
      Column.takes_of_checkField (by decide +kernel), by decide, nofun⟩
  obtain ⟨after, hproposes, hduplicate, -, -⟩ := hstatement _ hinsert
  obtain ⟨-, -, -, -, hkept⟩ := hstatement _ hupdate
  refine ⟨⟨after, hproposes, hduplicate.1 ⟨_, _, hrefused⟩⟩, hrefused, hkept _ _ rfl ?_⟩
  have hmatches : addressSchema.matchesRow secondPupil "7|a|1" = false := by decide +kernel
  simp only [List.forall_mem_cons]
  refine ⟨fun hno => absurd (hmatches.symm.trans hno) (by decide), fun _ => ⟨rfl, ?_⟩, by simp⟩
  intro position column hcolumn
  match position with
  | 0 | 1 | 2 =>
    obtain rfl := Option.some.inj hcolumn
    decide +kernel
  | position + 3 => exact absurd hcolumn (by simp [addressSchema])

end Run

end FlatFileDb
