import FlatFileDb.Proofs.Stored

/-!
# The form of stored rows

Every row that is stored has a field for each column, and each of them is one that its column takes:
rows are checked when they are inserted, and an update puts checked values into a row that has the
form already. What a commit writes is such a row, made when the statement was executed; the schema of
a table stays the one that it was checked against.
-/

namespace FlatFileDb

/-- Whether a text may stand in a column: no line break, no missing value unless the column allows
it, and else a text of its type. -/
structure Column.Takes (column : Column) (value : String) : Prop where
  line : Text.IsLine value
  null : Field.isNull value = true → column.notNull = false
  typed : Field.isNull value = false → column.type.accepts value = true

/-- Whether a row has the form that a schema asks for: a field for each column that the column
takes. -/
structure TableSchema.Takes (schema : TableSchema) (row : String) : Prop where
  width : (Row.fields row).length = schema.columns.length
  fields : ∀ (position : Nat) (column : Column) (value : String),
    schema.columns[position]? = some column → (Row.fields row)[position]? = some value →
      column.Takes value

theorem Column.takes_of_checkField {column : Column} {value : String}
    (h : column.checkField value = .ok ()) : column.Takes value := by
  have hline := (Column.clean_of_checkField h).2
  unfold checkField at h
  split at h
  · exact absurd h (by simp)
  split at h
  · exact absurd h (by simp)
  split at h
  · rename_i hnull
    refine ⟨hline, fun _ => ?_, fun hno => absurd (hnull.symm.trans hno) (by simp)⟩
    split at h
    · exact absurd h (by simp)
    · rename_i hallowed
      simpa using hallowed
  · rename_i hnull
    refine ⟨hline, fun hyes => absurd hyes hnull, fun _ => ?_⟩
    split at h
    · rename_i haccepts
      exact haccepts
    · exact absurd h (by simp)

theorem Column.Takes.checkField {column : Column} {value : String} (h : column.Takes value)
    (hbar : Row.delimiter ∉ value.toList) : column.checkField value = .ok () := by
  unfold Column.checkField
  rw [if_neg (by simpa using hbar), if_neg (Text.isLine_iff_any.1 h.line)]
  cases hnull : Field.isNull value with
  | true => simp [h.null hnull]
  | false => simp [h.typed hnull]

namespace TableSchema

variable {schema : TableSchema}

theorem Takes.checkFields {row : String} (h : schema.Takes row) :
    schema.checkFields (Row.fields row) = .ok () := by
  unfold TableSchema.checkFields
  rw [if_pos h.width]
  refine Action.forM_of_forall (Row.forall_mem_zip.2 fun position column value hcolumn hvalue => ?_)
  exact (h.fields position column value hcolumn hvalue).checkField
    (Row.delimiter_not_mem (List.mem_of_getElem? hvalue))

theorem takes_of_checkFields {row : String} (h : schema.checkFields (Row.fields row) = .ok ()) :
    schema.Takes row := by
  obtain ⟨hwidth, hchecked⟩ := checkFields_eq_ok h
  exact ⟨hwidth, fun position column value hcolumn hvalue =>
    Column.takes_of_checkField (hchecked position column value hcolumn hvalue)⟩

/-- A row has at least one field, so a schema that takes one has a column. -/
theorem Takes.columns_pos {row : String} (h : schema.Takes row) : 0 < schema.columns.length := by
  rw [← h.width]
  exact List.length_pos_of_ne_nil (Row.fields_ne_nil row)

/-- An update puts values into a row that their columns take, and leaves its other fields. -/
theorem Takes.assign {row : String} (h : schema.Takes row) {assigned : List (String × String)}
    {assignments : List Assignment} (hassigned : Engine.PassesAs schema assigned assignments) :
    schema.Takes (schema.assign assignments row) := by
  refine ⟨length_fields_assign hassigned.isClean row h.columns_pos,
    fun position column value hcolumn hvalue => ?_⟩
  have hposition := (List.getElem?_eq_some_iff.1 hcolumn).1
  rw [getElem?_fields_assign hassigned.isClean row hposition, Option.some.injEq] at hvalue
  cases hgiven : Assignment.valueAt? assignments position with
  | none =>
    obtain ⟨found, hfound⟩ : ∃ found, (Row.fields row)[position]? = some found :=
      ⟨_, List.getElem?_eq_getElem (by rw [h.width]; exact hposition)⟩
    rw [hgiven, Option.getD_none, hfound, Option.getD_some] at hvalue
    exact hvalue ▸ h.fields position column found hcolumn hfound
  | some given =>
    obtain ⟨a, ha, rfl, rfl⟩ := Assignment.exists_of_valueAt? hgiven
    obtain ⟨-, -, -, hthere, -, hchecked⟩ := hassigned.exists_of_mem ha
    obtain rfl := Option.some.inj (hthere.symm.trans hcolumn)
    rw [hgiven, Option.getD_some] at hvalue
    exact hvalue ▸ Column.takes_of_checkField hchecked

end TableSchema

/-! ### Commands -/

namespace Engine

/-- All rows have the form that the schema asks for. -/
def AllTaken (schema : TableSchema) (rows : List String) : Prop :=
  ∀ row ∈ rows, schema.Takes row

variable {who : Identity} {command : Command} {e e' : Engine}

/-- What a command makes of rows of the right form has it too. -/
theorem Changes.allTaken {database : String} {schema : TableSchema} {rows after : List String}
    (h : Changes e database schema rows command after) (hrows : AllTaken schema rows) :
    AllTaken schema after := by
  cases h with
  | insert hrow =>
    intro other hother
    rw [List.mem_append, List.mem_singleton] at hother
    rcases hother with hother | rfl
    · exact hrows other hother
    · exact TableSchema.takes_of_checkFields (checkRow_eq_ok hrow).1
  | update hassigned hchange =>
    obtain ⟨rfl, -, -⟩ := TableSchema.update_eq_ok hchange
    intro other hother
    obtain ⟨row, hrow, rfl⟩ := List.mem_map.1 hother
    split
    · exact (hrows row hrow).assign hassigned
    · exact hrows row hrow
  | delete conditions =>
    rw [TableSchema.delete_eq]
    exact fun row hrow => hrows row (List.mem_filter.1 hrow).1

/-- The row that is to be written at a commit has the form that the schema asks for. -/
theorem Buffers.takes {entry : Log.Entry} (h : Buffers who command e entry) (hsound : e.IsSound)
    (hholds : e.disk.Holds AllTaken) (hentry : entry.IsSound) (hwrites : entry.operation ≠ .delete) :
    ∃ schema, Engine.readSchema e.disk entry.database entry.table = .ok schema ∧
      schema.Takes entry.row := by
  cases h with
  | insert hdatabase hactive hschema hrow =>
    exact ⟨_, hsound.readSchema hentry.table hschema,
      TableSchema.takes_of_checkFields (checkRow_eq_ok hrow).1⟩
  | update hdatabase hactive hschema hassigned hrows hfound hmatches =>
    have hread := hsound.readSchema hentry.table hschema
    exact ⟨_, hread, (hholds.rows hentry.table hread hrows _ hfound).assign hassigned⟩
  | delete => exact absurd rfl hwrites

/-- Where the row that an entry writes has the right form, all rows have it after the change. -/
theorem AllTaken.change {schema : TableSchema} {entry : Log.Entry} {rows after : List String}
    (h : AllTaken schema rows) (hchange : entry.change? rows = some after)
    (hrow : entry.operation ≠ .delete → schema.Takes entry.row) : AllTaken schema after := by
  obtain ⟨hothers, ⟨-, rfl⟩ | ⟨hwrites, hperm⟩⟩ := Log.Entry.change?_cases hchange
  · exact fun row hmem => h row (hothers.subset hmem)
  · intro row hmem
    have hmem' := hperm.symm.subset hmem
    rw [List.mem_append, List.mem_singleton] at hmem'
    rcases hmem' with hmem' | rfl
    · exact h row (hothers.subset hmem')
    · exact hrow hwrites

theorem Trace.allTaken {first : Engine} {executions : List Execution}
    (h : Trace first executions e) (hsound : first.IsSound)
    (hnone : first.transactions = .empty) (hfirst : first.disk.Holds AllTaken) :
    e.disk.Holds AllTaken := by
  refine (h.holds_all hfirst fun earlier later who command before after upkeep _ htrace hearlier
    hholds hnamed hown => ?_).2
  have hbefore := htrace.isSound hsound
  refine hbefore.holds_own hnamed hown hholds (fun _ _ hno => absurd hno (by simp)) ?_ ?_
  · intro database schema rows after _ _ _ hchanges hrows row hrow
    exact hchanges.allTaken hrows row (List.mem_filter.1 hrow).1
  · intro a ha schema rows after hschema _ hchange hrows row hrow
    obtain ⟨⟨y, hy, -, entry, number, hbuffers, hnumber⟩, -, hentry, -⟩ :=
      @Trace.application _ _ ⟨who, command, before⟩ htrace hsound hnone a ha
    refine hrows.change hchange (fun hwrites => ?_) row (List.mem_filter.1 hrow).1
    rw [hnumber] at hschema hentry hwrites ⊢
    -- The schema is still the one that the row was checked against when it was buffered.
    obtain ⟨early, late, rfl, hthen⟩ := htrace.before hy
    obtain ⟨found, hfound, htakes⟩ := hbuffers.takes (hthen.isSound hsound) (hearlier y hy)
      ⟨hentry.table, hentry.row⟩ hwrites
    have hnow := htrace.readSchema hsound hy hentry.table hfound
    have hread := hbefore.readSchema hentry.table hschema
    obtain rfl := Except.ok.inj (hnow.symm.trans hread)
    exact htakes

end Engine

theorem Run.holds_allTaken (run : Run) : run.last.disk.Holds Engine.AllTaken :=
  run.trace.allTaken run.isSound_first run.transactions_first run.holds_first

/-- Every row of a table has the form that the schema of the table asks for. -/
theorem Run.takes_of_mem (run : Run) {database table : String} (htable : Name.isValid table = true)
    {schema : TableSchema} {rows : List String}
    (hschema : Engine.readSchema run.last.disk database table = .ok schema)
    (hrows : Table.rows run.last.disk database table = .ok rows) :
    ∀ row ∈ rows, schema.Takes row :=
  (run.trace.allTaken run.isSound_first run.transactions_first run.holds_first).rows htable hschema
    hrows

namespace Run

/-- The schema of a table whose second column is short and may be missing. -/
def shortSchema : TableSchema where
  database := "kantor"
  name := "t"
  columns := [(Column.plain "id" .int).constrain .primaryKey, .plain "nama" (.char 5)]
  permissions := .standard

/-- Rows that are inserted at once, and one that is updated and one that is inserted by a commit. -/
def threeRows : Run :=
  .script "asep" "kantor"
    ["CREATE TABLE t id:INT:PK, nama:CHAR(5)", "INSERT t 1|ani", "INSERT t 2|budi", "BEGIN",
      "UPDATE t SET nama=NULL WHERE id = 1", "INSERT t 3|citra", "COMMIT"]

theorem takes_of_mem_threeRows :
    shortSchema.Takes "1|NULL" ∧ shortSchema.Takes "2|budi" ∧ shortSchema.Takes "3|citra" := by
  have hrun : Name.isValid "t" = true ∧
      threeRows.last.knownSchema "kantor" "t" = .ok shortSchema ∧
      Table.rows threeRows.last.disk "kantor" "t" = .ok ["1|NULL", "2|budi", "3|citra"] := by
    decide +kernel
  obtain ⟨htable, hknown, hrows⟩ := hrun
  have htakes :=
    threeRows.takes_of_mem htable (threeRows.isSound_last.readSchema htable hknown) hrows
  exact ⟨htakes _ (by simp), htakes _ (by simp), htakes _ (by simp)⟩

end Run

end FlatFileDb
