import FlatFileDb.Proofs.Stored

/-!
# Unique columns

Values of unique columns are compared with the stored rows when a statement is executed: an insertion
outside of a transaction and an update keep the stored rows unique. In a transaction the row is
written later, over whatever is stored by then, and nothing is compared again. So the rows stay unique
in a run in which every change that a commit applies is still new among the rows that it finds.
-/

namespace FlatFileDb

namespace TableSchema

variable {schema : TableSchema} {rows : List String}

/-- No two rows hold the same value in a unique column or a primary key. -/
def IsUnique (schema : TableSchema) (rows : List String) : Prop :=
  ∀ (position : Nat) (column : Column), schema.columns[position]? = some column →
    column.unique = true ∨ column.primaryKey = true →
      rows.Pairwise fun first second => ∀ value, Field.isNull value = false →
        ¬((Row.fields first)[position]? = some value ∧ (Row.fields second)[position]? = some value)

/-- Whether a row holds no value of a unique column or a primary key that another row holds. -/
def isNewAmong (schema : TableSchema) (rows : List String) (row : String) : Bool :=
  (schema.columns.zip (Row.fields row)).zipIdx.all fun ((column, value), position) =>
    !(column.unique || column.primaryKey) || Field.isNull value ||
      rows.all fun other => (Row.fields other)[position]? != some value

theorem isNewAmong_iff {row : String} :
    schema.isNewAmong rows row = true ↔
      ∀ (position : Nat) (column : Column) (value : String),
        schema.columns[position]? = some column → (Row.fields row)[position]? = some value →
          column.unique = true ∨ column.primaryKey = true → Field.isNull value = false →
            ∀ other ∈ rows, (Row.fields other)[position]? ≠ some value := by
  rw [isNewAmong, List.all_eq_true]
  constructor
  · intro h position column value hcolumn hvalue hunique hnull other hother
    have hentry := h ((column, value), position) (by
      rw [List.mem_zipIdx_iff_getElem?, List.getElem?_zip_eq_some]
      exact ⟨hcolumn, hvalue⟩)
    simp only [hnull, Bool.or_false, Bool.or_eq_true, Bool.not_eq_true', Bool.or_eq_false_iff,
      List.all_eq_true, bne_iff_ne] at hentry
    rcases hentry with ⟨hno, hno'⟩ | hentry
    · rw [hno, hno'] at hunique
      exact absurd hunique (by simp)
    · exact hentry other hother
  · rintro h ⟨⟨column, value⟩, position⟩ hmem
    rw [List.mem_zipIdx_iff_getElem?, List.getElem?_zip_eq_some] at hmem
    simp only [Bool.or_eq_true, Bool.not_eq_true', Bool.or_eq_false_iff, List.all_eq_true,
      bne_iff_ne]
    by_cases hunique : column.unique = true ∨ column.primaryKey = true
    · cases hnull : Field.isNull value with
      | true => exact .inl (.inr rfl)
      | false => exact .inr (h position column value hmem.1 hmem.2 hunique hnull)
    · rw [not_or, Bool.not_eq_true, Bool.not_eq_true] at hunique
      exact .inl (.inl hunique)

theorem isUnique_nil : schema.IsUnique [] :=
  fun _ _ _ _ => .nil

theorem IsUnique.sublist {fewer : List String} (h : schema.IsUnique rows)
    (hfewer : fewer.Sublist rows) : schema.IsUnique fewer :=
  fun position column hcolumn hunique => (h position column hcolumn hunique).sublist hfewer

theorem IsUnique.perm {other : List String} (h : schema.IsUnique rows) (hother : rows.Perm other) :
    schema.IsUnique other :=
  fun position column hcolumn hunique => (hother.pairwise_iff fun hne value hnull hsame =>
    hne value hnull hsame.symm).1 (h position column hcolumn hunique)

theorem IsUnique.concat {row : String} (h : schema.IsUnique rows)
    (hrow : schema.isNewAmong rows row = true) : schema.IsUnique (rows ++ [row]) := by
  intro position column hcolumn hunique
  refine List.pairwise_append.2 ⟨h position column hcolumn hunique, List.pairwise_singleton _ _, ?_⟩
  intro other hother last hlast value hnull hsame
  rw [List.mem_singleton.1 hlast] at hsame
  exact isNewAmong_iff.1 hrow position column value hcolumn hsame.2 hunique hnull other hother
    hsame.1

/-! ### Insertions -/

theorem columnIndex?_of_getElem? (h : schema.IsSound) {position : Nat} {column : Column}
    (hcolumn : schema.columns[position]? = some column) :
    schema.columnIndex? column.name = some position := by
  obtain ⟨hposition, rfl⟩ := List.getElem?_eq_some_iff.1 hcolumn
  rw [columnIndex?, List.findIdx?_eq_some_iff_getElem]
  refine ⟨hposition, by simp, fun earlier hearlier hsame => ?_⟩
  have hnames := List.pairwise_iff_getElem.1 h.distinct earlier position
    (by rw [List.length_map]; omega) (by rwa [List.length_map]) hearlier
  rw [List.getElem_map, List.getElem_map] at hnames
  exact hnames (eq_of_beq hsame)

/-- The stored values are looked at for a value in a unique column and for one that refers to another. -/
theorem mem_storedChecks {fields : List String} {check : StoredCheck} :
    check ∈ schema.storedChecks fields ↔ ∃ (position : Nat) (column : Column) (value : String),
      schema.columns[position]? = some column ∧ fields[position]? = some value ∧
        Field.isNull value = false ∧
        (column.unique = true ∧ check = .absent schema.name column.name value ∨
          ∃ target, column.reference = some target ∧ check = .present value column.name target) := by
  have hchecks (column : Column) (value : String) : check ∈ column.storedChecks schema.name value ↔
      Field.isNull value = false ∧
        (column.unique = true ∧ check = .absent schema.name column.name value ∨
          ∃ target, column.reference = some target ∧ check = .present value column.name target) := by
    unfold Column.storedChecks Column.referenceCheck?
    cases Field.isNull value <;> cases column.unique <;> simp [eq_comm]
  rw [storedChecks, List.mem_flatMap]
  constructor
  · rintro ⟨⟨column, value⟩, hmem, hcheck⟩
    obtain ⟨position, hposition⟩ := List.mem_iff_getElem?.1 hmem
    obtain ⟨hcolumn, hvalue⟩ := List.getElem?_zip_eq_some.1 hposition
    exact ⟨position, column, value, hcolumn, hvalue, (hchecks column value).1 hcheck⟩
  · rintro ⟨position, column, value, hcolumn, hvalue, hcheck⟩
    refine ⟨(column, value), List.mem_iff_getElem?.2 ⟨position, ?_⟩, (hchecks column value).2 hcheck⟩
    exact List.getElem?_zip_eq_some.2 ⟨hcolumn, hvalue⟩

/-- A row that passed its checks is new among the stored ones. -/
theorem isNewAmong_of_checkRow {e : Engine} {database row : String} (h : schema.IsSound)
    (hschema : e.knownSchema database schema.name = .ok schema)
    (hrows : Table.rows e.disk database schema.name = .ok rows)
    (hrow : (schema.checkRow (Engine.storedValues database) row e).1 = .ok ()) :
    schema.isNewAmong rows row = true := by
  refine isNewAmong_iff.2 fun position column value hcolumn hvalue hunique hnull other hother => ?_
  have hunique' : column.unique = true :=
    hunique.elim id (h.columns column (List.mem_of_getElem? hcolumn)).key
  have hcheck : StoredCheck.absent schema.name column.name value
      ∈ schema.storedChecks (Row.fields row) :=
    mem_storedChecks.2 ⟨position, column, value, hcolumn, hvalue, hnull, .inl ⟨hunique', rfl⟩⟩
  obtain ⟨stored, hstored, hdecide⟩ :=
    Engine.storedCheck_eq_ok ((Engine.checkRow_eq_ok hrow).2 _ hcheck)
  obtain ⟨schema', position', rows', hschema', hposition', hrows', rfl⟩ :=
    Engine.storedValues_eq_ok hstored
  obtain rfl := Except.ok.inj (hschema.symm.trans hschema')
  obtain rfl := Except.ok.inj (hrows.symm.trans hrows')
  obtain rfl := Option.some.inj ((columnIndex?_of_getElem? h hcolumn).symm.trans hposition')
  rw [StoredCheck.decide] at hdecide
  intro hsame
  rw [if_pos] at hdecide
  · exact absurd hdecide (by simp)
  · rw [List.contains_iff_mem, List.mem_filterMap]
    exact ⟨other, hother, hsame⟩

/-! ### Updates -/

/-- Where at most one row matches, no two do. -/
theorem pairwise_of_length_filter {fits : String → Bool}
    (h : (rows.filter fits).length ≤ 1) :
    rows.Pairwise fun first second => ¬(fits first = true ∧ fits second = true) := by
  induction rows with
  | nil => exact .nil
  | cons row rest ih =>
    rw [List.filter_cons] at h
    cases hrow : fits row with
    | false =>
      rw [hrow, if_neg (by simp)] at h
      exact .cons (fun other _ hboth => by rw [hrow] at hboth; exact absurd hboth.1 (by simp)) (ih h)
    | true =>
      rw [hrow, if_pos rfl, List.length_cons] at h
      have hnone : rest.filter fits = [] := List.length_eq_zero_iff.1 (by omega)
      refine .cons (fun other hother hboth => ?_) (ih (by rw [hnone]; simp))
      exact List.filter_eq_nil_iff.1 hnone other hother hboth.2

/-- An assignment that was found unique: its value is none, nothing matches, or one row does and no
other row holds the value. -/
theorem checkUnique_cases {matched others : List String} {a : Assignment}
    (h : checkUnique matched others a = .ok ()) (hunique : a.column.unique = true) :
    Field.isNull a.value = true ∨ matched = [] ∨
      matched.length ≤ 1 ∧ ∀ row ∈ others, (Row.fields row)[a.position]? ≠ some a.value := by
  unfold checkUnique at h
  split at h
  · exact absurd h (by simp)
  rename_i hno
  rw [hunique, Bool.true_and] at hno
  cases hnull : Field.isNull a.value with
  | true => exact .inl rfl
  | false =>
  cases matched with
  | nil => exact .inr (.inl rfl)
  | cons row rest =>
    simp only [hnull, Bool.not_false, List.isEmpty_cons, Bool.and_self, Bool.true_and,
      Bool.or_eq_true, decide_eq_true_eq, List.any_eq_true, beq_iff_eq, not_or, not_exists,
      not_and] at hno
    exact .inr (.inr ⟨by omega, hno.2⟩)

section Fields

variable {assignments : List Assignment} {conditions : List Condition} {position : Nat}
  {row value : String}

/-- A value in a column that is not assigned stood there before; a missing field is empty now. -/
theorem field_of_unassigned (hclean : ∀ a ∈ assignments, a.IsClean)
    (hposition : position < schema.columns.length)
    (hvalue : Assignment.valueAt? assignments position = none) (hnull : Field.isNull value = false)
    (hfield : (Row.fields (if schema.matchesRow conditions row
      then schema.assign assignments row else row))[position]? = some value) :
    (Row.fields row)[position]? = some value := by
  split at hfield
  · rw [getElem?_fields_assign hclean row hposition, hvalue, Option.getD_none, Option.some.injEq]
      at hfield
    cases hrow : (Row.fields row)[position]? with
    | none =>
      rw [hrow, Option.getD_none] at hfield
      rw [← hfield] at hnull
      exact absurd hnull (by decide)
    | some found =>
      rw [hrow, Option.getD_some] at hfield
      rw [hfield]
  · exact hfield

/-- A value in an assigned column is the assigned one, or it stands in a row that was not matched. -/
theorem field_of_assigned (hclean : ∀ a ∈ assignments, a.IsClean)
    (hposition : position < schema.columns.length) {assigned : String}
    (hvalue : Assignment.valueAt? assignments position = some assigned)
    (hfield : (Row.fields (if schema.matchesRow conditions row
      then schema.assign assignments row else row))[position]? = some value) :
    schema.matchesRow conditions row = true ∧ value = assigned ∨
      schema.matchesRow conditions row = false ∧ (Row.fields row)[position]? = some value := by
  split at hfield
  · rename_i hrow
    rw [getElem?_fields_assign hclean row hposition, hvalue, Option.getD_some, Option.some.injEq]
      at hfield
    exact .inl ⟨hrow, hfield.symm⟩
  · rename_i hrow
    exact .inr ⟨by simpa using hrow, hfield⟩

end Fields

/-- Rows stay unique where the values assigned to them were found unique. -/
theorem IsUnique.update (h : schema.IsUnique rows) (hschema : schema.IsSound)
    {assigned : List (String × String)} {assignments : List Assignment}
    (hassigned : Engine.PassesAs schema assigned assignments) {conditions : List Condition}
    {after : List String} {changed : List (String × String)}
    (hchange : schema.update assignments conditions rows = .ok (after, changed)) :
    schema.IsUnique after := by
  obtain ⟨rfl, -, hcheck⟩ := update_eq_ok hchange
  intro position column hcolumn hunique
  have hclean := hassigned.isClean
  have hposition := (List.getElem?_eq_some_iff.1 hcolumn).1
  have hbefore := h position column hcolumn hunique
  rw [List.pairwise_map]
  cases hvalue : Assignment.valueAt? assignments position with
  | none =>
    exact hbefore.imp fun hne value hnull hsame => hne value hnull
      ⟨field_of_unassigned hclean hposition hvalue hnull hsame.1,
        field_of_unassigned hclean hposition hvalue hnull hsame.2⟩
  | some assignedValue =>
    obtain ⟨a, ha, rfl, rfl⟩ := Assignment.exists_of_valueAt? hvalue
    have hcolumn' : a.column = column := by
      obtain ⟨-, -, -, hthere, -, -⟩ := hassigned.exists_of_mem ha
      exact Option.some.inj (hthere.symm.trans hcolumn)
    have hunique' : a.column.unique = true := by
      rw [hcolumn']
      exact hunique.elim id (hschema.columns column (List.mem_of_getElem? hcolumn)).key
    rcases checkUnique_cases (hcheck a ha) hunique' with hnull' | hnone | ⟨hone, hothers⟩
    · refine hbefore.imp fun hne value hnull hsame => ?_
      rcases field_of_assigned hclean hposition hvalue hsame.1 with ⟨-, rfl⟩ | ⟨-, hfirst⟩
      · exact absurd (hnull.symm.trans hnull') (by simp)
      · rcases field_of_assigned hclean hposition hvalue hsame.2 with ⟨-, rfl⟩ | ⟨-, hsecond⟩
        · exact absurd (hnull.symm.trans hnull') (by simp)
        · exact hne value hnull ⟨hfirst, hsecond⟩
    · have hunmatched := List.filter_eq_nil_iff.1 hnone
      refine hbefore.imp_of_mem fun hfirst hsecond hne value hnull hsame => ?_
      rw [if_neg (hunmatched _ hfirst), if_neg (hunmatched _ hsecond)] at hsame
      exact hne value hnull hsame
    · have hother {row : String} (hrow : row ∈ rows)
          (hno : schema.matchesRow conditions row = false) :
          (Row.fields row)[a.position]? ≠ some a.value :=
        hothers row (List.mem_filter.2 ⟨hrow, by rw [hno]; rfl⟩)
      refine (hbefore.and (pairwise_of_length_filter hone)).imp_of_mem
        fun hfirst hsecond ⟨hne, hnotBoth⟩ value hnull hsame => ?_
      rcases field_of_assigned hclean hposition hvalue hsame.1 with ⟨hmatch, rfl⟩ | ⟨hno, hfield⟩
      · rcases field_of_assigned hclean hposition hvalue hsame.2 with ⟨hmatch', -⟩ | ⟨hno', hfield'⟩
        · exact hnotBoth ⟨hmatch, hmatch'⟩
        · exact hother hsecond hno' hfield'
      · rcases field_of_assigned hclean hposition hvalue hsame.2 with ⟨-, rfl⟩ | ⟨-, hfield'⟩
        · exact hother hfirst hno hfield
        · exact hne value hnull ⟨hfield, hfield'⟩

end TableSchema

/-! ### Files -/

/-- The rows of every table are unique by its schema. -/
def Disk.IsUnique (disk : Disk) : Prop :=
  ∀ home name text schema rows, Name.isValid name = true →
    disk.at? (Path.schemaPlace home name) = some (.file text) →
      (Json.ofText? text).bind TableSchema.ofJson? = some schema →
        disk.at? (Path.tablePlace home name) = some (.file rows) →
          schema.IsUnique (Text.filledLines rows)

theorem Disk.isUnique_iff {disk : Disk} : disk.IsUnique ↔ disk.Holds TableSchema.IsUnique :=
  Iff.rfl

/-! ### Changes of a commit -/

theorem TableSchema.IsUnique.change {schema : TableSchema} {entry : Log.Entry}
    {rows after : List String} (h : schema.IsUnique rows) (hchange : entry.change? rows = some after)
    (hnew : entry.operation ≠ .delete → schema.isNewAmong (entry.others rows) entry.row = true) :
    schema.IsUnique after := by
  obtain ⟨hothers, ⟨-, rfl⟩ | ⟨hoperation, hperm⟩⟩ := Log.Entry.change?_cases hchange
  · exact h.sublist hothers
  · exact ((h.sublist hothers).concat (hnew hoperation)).perm hperm

/-- Whether the row that a commit writes holds no value of a unique column or a primary key that one
of the rows beside it holds at that moment. -/
def Application.staysUnique (schema : TableSchema) (a : Application) : Bool :=
  match Table.rows a.disk a.entry.database a.entry.table with
  | .ok rows => a.entry.operation == .delete || schema.isNewAmong (a.entry.others rows) a.entry.row
  | .error _ => true

/-- Whether every row that an execution writes as part of a commit is new among those beside it. -/
def Execution.staysUnique (x : Execution) : Bool :=
  x.applications.all fun a =>
    match x.before.knownSchema a.entry.database a.entry.table with
    | .ok schema => a.staysUnique schema
    | .error _ => true

theorem Application.isUnique {a : Application} {schema : TableSchema} {rows after : List String}
    (hunique : schema.IsUnique rows)
    (hrows : Table.rows a.disk a.entry.database a.entry.table = .ok rows)
    (hchange : a.entry.change? rows = some after) (hstays : a.staysUnique schema = true) :
    schema.IsUnique after := by
  unfold staysUnique at hstays
  rw [hrows, Bool.or_eq_true, beq_iff_eq] at hstays
  exact hunique.change hchange fun hoperation => hstays.resolve_left hoperation

/-- A row that is not new among those beside it is a second one of its kind once it is written. -/
theorem Application.staysUnique_of_isUnique {a : Application} {after : Disk} {schema : TableSchema}
    (hdisk : a.disk.IsCatalogued) (hentry : a.entry.IsSound)
    (hschema : Engine.readSchema a.disk a.entry.database a.entry.table = .ok schema)
    (hperform : a.entry.perform a.disk = (.ok (), after))
    (hfilled : Text.isFilled a.entry.row = true) (hunique : after.IsUnique) :
    a.staysUnique schema = true := by
  obtain ⟨home, text, text', rows, -, -, hrows, hchange, -, hafter, -⟩ :=
    Log.Entry.perform_eq_ok hdisk hentry hperform
  unfold staysUnique
  rw [hrows]
  dsimp only
  have hkeeps : Disk.Keeps True a.disk after := (Log.Entry.keeps_perform hentry).after hperform
  have hwritten := (Disk.isUnique_iff.1 hunique).rows hentry.table
    (Engine.readSchema_of_keeps hentry.table hkeeps hschema) hafter
  obtain ⟨hothers, ⟨hdelete, -⟩ | ⟨-, hperm⟩⟩ := Log.Entry.change?_cases hchange
  · rw [hdelete]
    rfl
  have hall : ∀ row ∈ a.entry.others (Text.filledLines text) ++ [a.entry.row],
      Text.isFilled row = true := by
    intro row hrow
    rw [List.mem_append, List.mem_singleton] at hrow
    rcases hrow with hrow | rfl
    · exact (hdisk.row hrows row (hothers.subset hrow)).2
    · exact hfilled
  have hbeside : schema.IsUnique (a.entry.others (Text.filledLines text) ++ [a.entry.row]) := by
    rw [← List.filter_eq_self.2 hall]
    exact hwritten.perm (hperm.filter _).symm
  rw [Bool.or_eq_true]
  refine .inr (TableSchema.isNewAmong_iff.2 ?_)
  intro position column value hcolumn hvalue hcolumnUnique hnull other hother hsame
  exact (List.pairwise_append.1 (hbeside position column hcolumn hcolumnUnique)).2.2 other hother
    a.entry.row (by simp) value hnull ⟨hsame, hvalue⟩

/-! ### Commands -/

namespace Engine

/-- What a command stores is unique, if what it applies is. -/
theorem isUnique_own {who : Identity} {command : Command} {e e' : Engine} {upkeep : Upkeep}
    (h : e.IsSound) (hunique : e.disk.IsUnique) (hnamed : command.isWellNamed = true)
    (hown : Own who command e e' upkeep)
    (hstays : Execution.staysUnique ⟨who, command, e⟩ = true) : e'.disk.IsUnique := by
  refine h.holds_own hnamed hown (Disk.isUnique_iff.1 hunique) (fun _ => TableSchema.isUnique_nil)
    ?_ ?_
  · intro database schema rows after hschema hsound hrows hchanges hunique
    refine TableSchema.IsUnique.sublist ?_ List.filter_sublist
    cases hchanges with
    | insert hrow => exact hunique.concat (TableSchema.isNewAmong_of_checkRow hsound hschema hrows hrow)
    | update hassigned hchange => exact hunique.update hsound hassigned hchange
    | delete conditions =>
      rw [TableSchema.delete_eq]
      exact hunique.sublist List.filter_sublist
  · intro a ha schema rows after hschema hrows hchange hunique
    have hstay := List.all_eq_true.1 hstays a ha
    rw [hschema] at hstay
    exact (Application.isUnique hunique hrows hchange hstay).sublist List.filter_sublist

theorem Trace.isUnique {first e : Engine} {executions : List Execution}
    (h : Trace first executions e) (hsound : first.IsSound) (hfirst : first.disk.IsUnique)
    (hstays : ∀ x ∈ executions, x.staysUnique = true) : e.disk.IsUnique := by
  refine (h.holds_all (Disk.isUnique_iff.1 hfirst) fun earlier later who command before after upkeep
    hexecutions htrace _ hholds hnamed hown => ?_).2
  exact isUnique_own (htrace.isSound hsound) hholds hnamed hown
    (hstays ⟨who, command, before⟩ (by rw [hexecutions]; simp))

end Engine

/-- The rows of every table stay unique, if every row that a commit writes is new among the rows that
stand beside it at that moment. -/
theorem Run.isUnique_last (run : Run)
    (hstays : ∀ x ∈ run.executions, x.staysUnique = true)
    {database table : String} (htable : Name.isValid table = true) {schema : TableSchema}
    {rows : List String} (hschema : Engine.readSchema run.last.disk database table = .ok schema)
    (hrows : Table.rows run.last.disk database table = .ok rows) : schema.IsUnique rows :=
  (Disk.isUnique_iff.1 (run.trace.isUnique run.isSound_first run.holds_first hstays)).rows htable
    hschema hrows

namespace Run

/-- The schema of a table with nothing but a key. -/
def keySchema : TableSchema where
  database := "kantor"
  name := "t"
  columns := [(Column.plain "id" .int).constrain .primaryKey]
  permissions := .standard

/-- Two insertions in one transaction. -/
def twoKeys : Run :=
  .script "asep" "kantor"
    ["CREATE TABLE t id:INT:PK", "BEGIN", "INSERT t 1", "INSERT t 2", "COMMIT"]

theorem isUnique_twoKeys :
    (∀ x ∈ twoKeys.executions, x.staysUnique = true) ∧ keySchema.IsUnique ["1", "2"] := by
  have hrun : Name.isValid "t" = true ∧ (∀ x ∈ twoKeys.executions, x.staysUnique = true) ∧
      twoKeys.last.knownSchema "kantor" "t" = .ok keySchema ∧
      Table.rows twoKeys.last.disk "kantor" "t" = .ok ["1", "2"] := by
    decide +kernel
  obtain ⟨htable, hstays, hknown, hrows⟩ := hrun
  exact ⟨hstays, twoKeys.isUnique_last hstays htable
    (twoKeys.isSound_last.readSchema htable hknown) hrows⟩

/-- The same insertion twice. -/
def oneKey : Run :=
  .script "asep" "kantor"
    ["CREATE TABLE t id:INT:PK", "BEGIN", "INSERT t 1", "INSERT t 1", "COMMIT"]

/-- Neither insertion sees the other one before both are committed. -/
theorem not_isUnique :
    ¬∀ (run : Run) (database table : String) (schema : TableSchema) (rows : List String),
      Name.isValid table = true →
        Engine.readSchema run.last.disk database table = .ok schema →
          Table.rows run.last.disk database table = .ok rows → schema.IsUnique rows := by
  intro h
  have hrun : Name.isValid "t" = true ∧ oneKey.last.knownSchema "kantor" "t" = .ok keySchema ∧
      Table.rows oneKey.last.disk "kantor" "t" = .ok ["1", "1"] := by
    decide +kernel
  obtain ⟨htable, hknown, hrows⟩ := hrun
  have hunique := h _ _ _ _ _ htable (oneKey.isSound_last.readSchema htable hknown) hrows 0 _ rfl
    (.inl rfl)
  exact (List.pairwise_cons.1 hunique).1 "1" (by simp) "1" (by decide) (by decide)

end Run

end FlatFileDb
