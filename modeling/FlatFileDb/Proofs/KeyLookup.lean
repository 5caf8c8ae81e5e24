import FlatFileDb.Proofs.Unique

/-!
# Looking up a key

Rows are told apart in a unique column by the texts of their fields, and a condition compares what the
texts stand for. Both come to the same for texts that are spelled as what they stand for is written,
which all texts are unless they stand for a number or a truth value. So of the rows that are equal to
a literal at most one has its value spelled that way, as long as nothing is executed in a transaction.
-/

namespace FlatFileDb

open Number

/-! ### Values that are equal -/

theorem Number.Binary64.eq_of_compare? {x y : Binary64} (h : x.compare? y = some .eq) : x = y := by
  cases x with
  | nan => exact nomatch h
  | finite a =>
    cases y with
    | nan => exact nomatch h
    | finite b => rw [Std.LawfulEqOrd.eq_of_compare (Option.some.inj h)]
    | infinity negative => cases negative <;> exact nomatch h
  | infinity negative =>
    cases y with
    | nan => exact nomatch h
    | finite b => cases negative <;> exact nomatch h
    | infinity other => rw [Std.LawfulEqOrd.eq_of_compare (Option.some.inj h)]

namespace Value

theorem eq_of_compare? {a b : Value} (h : a.compare? b = some .eq) : a = b := by
  cases a with
  | null =>
    cases b with
    | null => rfl
    | _ => exact nomatch h
  | boolean a =>
    cases b with
    | boolean b => revert a b; decide
    | _ => exact nomatch h
  | integer a =>
    cases b with
    | integer b => rw [Std.LawfulEqOrd.eq_of_compare (Option.some.inj h)]
    | _ => exact nomatch h
  | float x =>
    cases b with
    | float y => rw [Binary64.eq_of_compare? h]
    | _ => exact nomatch h
  | text a =>
    cases b with
    | text b => rw [Std.LawfulEqOrd.eq_of_compare (Option.some.inj h)]
    | _ => exact nomatch h

/-- Whether a field is spelled as the value that it stands for is written. -/
def isWritten (type : DataType) (field : String) : Bool :=
  (ofField type field).render == field

/-- Of the fields that stand for one value only one is spelled as the value is written. -/
theorem eq_of_isWritten {type : DataType} {first second : String}
    (hfirst : isWritten type first = true) (hsecond : isWritten type second = true)
    (h : (ofField type first).compare? (ofField type second) = some .eq) : first = second := by
  rw [← eq_of_beq hfirst, ← eq_of_beq hsecond, eq_of_compare? h]

/-- Every text that stands for itself is spelled as it is written. -/
theorem isWritten_of_text {type : DataType} (hnumeric : type.isNumeric = false)
    (hbool : type ≠ .bool) {field : String} (hnull : Field.isNull field = false) :
    isWritten type field = true := by
  have hfield : ofField type field = text field := by
    unfold ofField
    rw [hnull, if_neg (by simp)]
    cases type with
    | int | float => exact nomatch hnumeric
    | bool => exact absurd rfl hbool
    | string | text | date | char | enum => rfl
  rw [isWritten, hfield, beq_iff_eq]
  rfl

end Value

/-- A condition on equality asks for values that are equal. -/
theorem Condition.compare?_of_compareTyped {type : DataType} {field literal : String}
    (h : compareTyped type field .equal literal = true) :
    (Value.ofField type field).compare? (Value.ofField type literal) = some .eq := by
  unfold compareTyped at h
  rw [if_neg (by decide), if_neg (by simp)] at h
  split at h
  · rename_i ordering hordering
    rw [Operator.holds, beq_iff_eq] at h
    exact hordering.trans (congrArg some h)
  · exact nomatch h

/-- Outside of a transaction, a commit applies nothing. -/
theorem Execution.staysUnique_of_direct {x : Execution}
    (h : x.before.inTransaction x.who.user = false) : x.staysUnique = true := by
  have hnone : x.before.transactions.get? x.who.user = none := by
    simpa [Engine.inTransaction, Keyed.contains] using h
  have hnothing : x.applications = [] := by
    unfold applications
    rw [hnone]
    split
    · contradiction
    · rfl
  rw [staysUnique, hnothing]
  rfl

namespace TableSchema

variable {schema : TableSchema} {rows : List String} {position : Nat} {column : Column}

/-- Whether a row has a value at the position of a column that is spelled as it is written. -/
def isWrittenAt (column : Column) (position : Nat) (row : String) : Bool :=
  !Field.isNull (Row.valueAt row position) && Value.isWritten column.type (Row.valueAt row position)

/-- Whether a row has a value at the position of a column that is equal to a literal. -/
def isEqualAt (column : Column) (position : Nat) (literal row : String) : Bool :=
  Condition.compareTyped column.type (Row.valueAt row position) .equal literal

/-- No two rows have values in a column that are spelled as they are written and equal. -/
def IsKeyed (column : Column) (position : Nat) (rows : List String) : Prop :=
  rows.Pairwise fun first second =>
    Field.isNull (Row.valueAt first position) = false →
      Field.isNull (Row.valueAt second position) = false →
        Row.valueAt first position ≠ Row.valueAt second position ∧
          (Value.isWritten column.type (Row.valueAt first position) = true →
            Value.isWritten column.type (Row.valueAt second position) = true →
              (Value.ofField column.type (Row.valueAt first position)).compare?
                (Value.ofField column.type (Row.valueAt second position)) ≠ some .eq)

theorem IsUnique.isKeyed (h : schema.IsUnique rows) (hcolumn : schema.columns[position]? = some column)
    (hunique : column.unique = true ∨ column.primaryKey = true) : IsKeyed column position rows := by
  refine (h position column hcolumn hunique).imp fun {first second} hne hfirst hsecond => ?_
  have hfield {row : String} (hnull : Field.isNull (Row.valueAt row position) = false) :
      (Row.fields row)[position]? = some (Row.valueAt row position) := by
    cases hrow : (Row.fields row)[position]? with
    | some value => rw [Row.valueAt, hrow, Option.getD_some]
    | none =>
      rw [Row.valueAt, hrow] at hnull
      exact absurd hnull (by decide)
  have hdistinct : Row.valueAt first position ≠ Row.valueAt second position := fun hsame =>
    hne _ hfirst ⟨hfield hfirst, hsame ▸ hfield hsecond⟩
  exact ⟨hdistinct, fun hwritten hwritten' hequal =>
    hdistinct (Value.eq_of_isWritten hwritten hwritten' hequal)⟩

/-- Where no two rows fit, at most one does. -/
theorem length_filter_of_pairwise {fits : String → Bool}
    (h : rows.Pairwise fun first second => ¬(fits first = true ∧ fits second = true)) :
    (rows.filter fits).length ≤ 1 := by
  have hfits (row : String) (hrow : row ∈ rows.filter fits) : fits row = true :=
    (List.mem_filter.1 hrow).2
  have hfiltered := h.filter fits
  match hfound : rows.filter fits with
  | [] | [_] => simp
  | first :: second :: rest =>
    rw [hfound] at hfits hfiltered
    exact absurd ⟨hfits first (by simp), hfits second (by simp)⟩
      ((List.pairwise_cons.1 hfiltered).1 second (by simp))

/-- A lookup of a value meets at most one row in which the value is spelled as it is written. -/
theorem IsKeyed.length_filter_le_one (h : IsKeyed column position rows) (literal : String) :
    (rows.filter fun row =>
      isEqualAt column position literal row && isWrittenAt column position row).length ≤ 1 := by
  refine length_filter_of_pairwise (h.imp fun {first second} hne hboth => ?_)
  simp only [isEqualAt, isWrittenAt, Bool.and_eq_true, Bool.not_eq_true'] at hboth
  obtain ⟨⟨hfirst, hnull, hwritten⟩, hsecond, hnull', hwritten'⟩ := hboth
  have hequal := Condition.compare?_of_compareTyped hfirst
  have hequal' := Value.eq_of_compare? (Condition.compare?_of_compareTyped hsecond)
  rw [← hequal'] at hequal
  exact (hne hnull hnull').2 hwritten hwritten' hequal

end TableSchema

namespace Run

/-- Outside of transactions, two rows of a table never hold one text in a unique column or a primary
key. Their values are not equal either if both are spelled as they are written, and of the rows in
which a value is equal to a literal at most one has it spelled so. All texts are that stand for
neither numbers nor truth values. -/
theorem isKeyed_last (run : Run)
    (hdirect : ∀ x ∈ run.executions, x.before.inTransaction x.who.user = false)
    {database table : String} (htable : Name.isValid table = true) {schema : TableSchema}
    {rows : List String} (hschema : Engine.readSchema run.last.disk database table = .ok schema)
    (hrows : Table.rows run.last.disk database table = .ok rows) {position : Nat} {column : Column}
    (hcolumn : schema.columns[position]? = some column)
    (hunique : column.unique = true ∨ column.primaryKey = true) :
    TableSchema.IsKeyed column position rows ∧
      (∀ literal, (rows.filter fun row => TableSchema.isEqualAt column position literal row
        && TableSchema.isWrittenAt column position row).length ≤ 1) ∧
      (column.type.isNumeric = false → column.type ≠ .bool → ∀ field, Field.isNull field = false →
        Value.isWritten column.type field = true) := by
  have hstays : ∀ x ∈ run.executions, x.staysUnique = true :=
    fun x hx => Execution.staysUnique_of_direct (hdirect x hx)
  have hdisk := run.trace.isUnique run.isSound_first run.holds_first hstays
  have hkeyed := ((Disk.isUnique_iff.1 hdisk).rows htable hschema hrows).isKeyed hcolumn hunique
  exact ⟨hkeyed, hkeyed.length_filter_le_one, fun hnumeric hbool _ hnull =>
    Value.isWritten_of_text hnumeric hbool hnull⟩

/-- The schema of a table with a number for its key and a unique text. -/
def codedSchema : TableSchema where
  database := "kantor"
  name := "t"
  columns := [(Column.plain "id" .int).constrain .primaryKey,
    (Column.plain "kode" .string).constrain .unique]
  permissions := .standard

/-- An insertion whose key is taken, one of the same number that is spelled otherwise, and an update. -/
def codedRows : Run :=
  .script "asep" "kantor"
    ["CREATE TABLE t id:INT:PK, kode:STRING:UNIQUE", "INSERT t 1|a", "INSERT t 1|b", "INSERT t 01|c",
      "INSERT t 2|d", "UPDATE t SET kode=e WHERE id = 2"]

theorem isKeyed_codedRows :
    (∀ x ∈ codedRows.executions, x.before.inTransaction x.who.user = false) ∧
      TableSchema.IsKeyed ((Column.plain "id" .int).constrain .primaryKey) 0
        ["1|a", "01|c", "2|e"] ∧
      ∀ literal, (["1|a", "01|c", "2|e"].filter fun row =>
        TableSchema.isEqualAt ((Column.plain "id" .int).constrain .primaryKey) 0 literal row
          && TableSchema.isWrittenAt ((Column.plain "id" .int).constrain .primaryKey) 0 row).length
        ≤ 1 := by
  have hrun : Name.isValid "t" = true ∧
      (∀ x ∈ codedRows.executions, x.before.inTransaction x.who.user = false) ∧
      codedRows.last.knownSchema "kantor" "t" = .ok codedSchema ∧
      Table.rows codedRows.last.disk "kantor" "t" = .ok ["1|a", "01|c", "2|e"] := by
    decide +kernel
  obtain ⟨htable, hdirect, hknown, hrows⟩ := hrun
  have hcolumn :
      codedSchema.columns[0]? = some ((Column.plain "id" .int).constrain .primaryKey) := rfl
  have hkeyed := codedRows.isKeyed_last hdirect htable
    (codedRows.isSound_last.readSchema htable hknown) hrows hcolumn (.inl rfl)
  exact ⟨hdirect, hkeyed.1, hkeyed.2.1⟩

/-- One key in two spellings. -/
def spelledTwice : Run :=
  .script "asep" "kantor" ["CREATE TABLE t id:INT:PK", "INSERT t 1", "INSERT t 01"]

/-- Both spellings are taken, and a lookup of the number meets both. -/
theorem not_isKeyed :
    ¬∀ (run : Run) (database table : String) (schema : TableSchema) (rows : List String)
      (position : Nat) (column : Column),
      (∀ x ∈ run.executions, x.before.inTransaction x.who.user = false) →
        Name.isValid table = true →
          Engine.readSchema run.last.disk database table = .ok schema →
            Table.rows run.last.disk database table = .ok rows →
              schema.columns[position]? = some column →
                column.unique = true ∨ column.primaryKey = true →
                  (rows.Pairwise fun first second =>
                    Field.isNull (Row.valueAt first position) = false →
                      Field.isNull (Row.valueAt second position) = false →
                        (Value.ofField column.type (Row.valueAt first position)).compare?
                          (Value.ofField column.type (Row.valueAt second position)) ≠ some .eq) ∧
                    ∀ literal, (rows.filter fun row => !Field.isNull (Row.valueAt row position)
                      && TableSchema.isEqualAt column position literal row).length ≤ 1 := by
  intro h
  have hrun : Name.isValid "t" = true ∧
      (∀ x ∈ spelledTwice.executions, x.before.inTransaction x.who.user = false) ∧
      spelledTwice.last.knownSchema "kantor" "t" = .ok keySchema ∧
      Table.rows spelledTwice.last.disk "kantor" "t" = .ok ["1", "01"] := by
    decide +kernel
  obtain ⟨htable, hdirect, hknown, hrows⟩ := hrun
  have hlookup := (h _ _ _ _ _ 0 _ hdirect htable
    (spelledTwice.isSound_last.readSchema htable hknown) hrows rfl (.inl rfl)).2 "1"
  exact absurd hlookup (by decide +kernel)

end Run

end FlatFileDb
