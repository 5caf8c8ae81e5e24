import FlatFileDb.Proofs.Form
import FlatFileDb.Proofs.Unique

/-!
# Which rows are taken, and why the others are not

Before a row is stored its fields are counted, then each is looked at by itself, and only then the stored
values are asked for: whether a value of a unique column is there already, whether a value that refers to
another column is there at all. The checks stop at the first fault. So what they come to is said here by
the list of all faults of a row, in the order in which they are looked for and without stopping anywhere:
its first element is the failure, and the row is taken if it is empty.
-/

namespace FlatFileDb

/-- A lookup of stored values that answers: with the given values, whatever has been asked before. Each
question, a table and a column, is noted in the state. -/
def answering {σ : Type} (values : String → String → List String) (note : σ → String × String → σ) :
    String → String → Action σ (List String) :=
  fun table column s => (.ok (values table column), note s (table, column))

/-- A question about the stored values, and what is wrong with the row by the answer to it. -/
structure Question where
  source : String × String
  fault? : Option Error
  deriving DecidableEq, Repr

/-- Questions are asked until an answer shows a fault. -/
def Question.asked (questions : List Question) : List Question :=
  questions.take (questions.findIdx (fun question => question.fault?.isSome) + 1)

namespace Column

/-- What is wrong with a field by itself. -/
def faults (column : Column) (value : String) : List Error :=
  (if Text.IsLine value then [] else [.lineBreakInField column.name])
    ++ (if Field.isNull value && column.notNull then [.nullRefused column.name] else [])
    ++ (if !Field.isNull value && !column.type.accepts value then
        [.typeMismatch column.name column.type.render value] else [])

/-- What is asked about a field of a row of the given table: nothing where no value is. -/
def questions (values : String → String → List String) (table : String) (column : Column)
    (value : String) : List Question :=
  if Field.isNull value then []
  else
    (if column.unique then
        [⟨(table, column.name),
          if value ∈ values table column.name then some (.duplicateValue value column.name) else none⟩]
      else [])
    ++ column.reference.toList.map fun target =>
        ⟨(target.table, target.column),
          if value ∈ values target.table target.column then none
          else some (.missingReference value column.name target.table target.column)⟩

end Column

namespace TableSchema

variable (schema : TableSchema) (values : String → String → List String) (row : String)

/-- What is wrong with the fields of a row before anything is asked: their number, and then what is wrong
with each of them. -/
def fieldFaults : List Error :=
  (if (Row.fields row).length = schema.columns.length then []
    else [.fieldCount schema.columns.length (Row.fields row).length])
  ++ (schema.columns.zip (Row.fields row)).flatMap fun (column, value) => column.faults value

/-- What there is to ask about a row. -/
def questions : List Question :=
  (schema.columns.zip (Row.fields row)).flatMap fun (column, value) =>
    column.questions values schema.name value

/-- All that is wrong with a row. -/
def faults : List Error :=
  schema.fieldFaults row ++ (schema.questions values row).filterMap Question.fault?

/-- What the lookup is asked for. -/
def asked : List (String × String) :=
  if schema.fieldFaults row = [] then (Question.asked (schema.questions values row)).map Question.source
  else []

/-- Whether it matters for a row what is stored in a column: the row holds a value that must not be there
already, or one that must be. -/
def Concerns (source : String × String) : Prop :=
  ∃ (position : Nat) (column : Column) (value : String),
    schema.columns[position]? = some column ∧ (Row.fields row)[position]? = some value ∧
      Field.isNull value = false ∧
      (column.unique = true ∧ source = (schema.name, column.name) ∨
        ∃ target, column.reference = some target ∧ source = (target.table, target.column))

/-- The rows that a table takes: the fields are as many as the columns and each is one that its column
takes, values of unique columns are new, and values that refer to a column are found there. -/
structure IsLegal : Prop where
  takes : schema.Takes row
  absent : ∀ (position : Nat) (column : Column) (value : String),
    schema.columns[position]? = some column → (Row.fields row)[position]? = some value →
      Field.isNull value = false → column.unique = true → value ∉ values schema.name column.name
  present : ∀ (position : Nat) (column : Column) (value : String) (target : Reference),
    schema.columns[position]? = some column → (Row.fields row)[position]? = some value →
      Field.isNull value = false → column.reference = some target →
        value ∈ values target.table target.column

end TableSchema

/-! ### A row without faults -/

theorem Column.faults_eq_nil {column : Column} {value : String} :
    column.faults value = [] ↔ column.Takes value := by
  constructor
  · intro h
    simp only [faults, List.append_eq_nil_iff, ite_eq_left_iff, ite_eq_right_iff, List.cons_ne_nil,
      imp_false, not_not, Bool.and_eq_true, Bool.not_eq_true', not_and, Bool.not_eq_true,
      Bool.not_eq_false] at h
    exact ⟨h.1.1, h.1.2, h.2⟩
  · intro h
    rw [faults, if_pos h.line]
    cases hnull : Field.isNull value with
    | true => simp [h.null hnull]
    | false => simp [h.typed hnull]

theorem Column.questions_faultless {column : Column} {value table : String}
    {values : String → String → List String} :
    (column.questions values table value).filterMap Question.fault? = [] ↔
      (Field.isNull value = false → column.unique = true → value ∉ values table column.name) ∧
        ∀ target, Field.isNull value = false → column.reference = some target →
          value ∈ values target.table target.column := by
  unfold questions
  cases Field.isNull value with
  | true => simp
  | false => cases column.unique <;> cases column.reference <;> simp

namespace TableSchema

variable {schema : TableSchema} {values : String → String → List String} {row : String}

theorem fieldFaults_eq_nil : schema.fieldFaults row = [] ↔ schema.Takes row := by
  rw [fieldFaults, List.append_eq_nil_iff, List.flatMap_eq_nil_iff, ite_eq_left_iff]
  simp only [Column.faults_eq_nil, List.cons_ne_nil, imp_false, not_not]
  rw [Row.forall_mem_zip]
  exact ⟨fun h => ⟨h.1, h.2⟩, fun h => ⟨h.width, h.fields⟩⟩

/-- The rows without any fault are the legal ones. -/
theorem faults_eq_nil : schema.faults values row = [] ↔ schema.IsLegal values row := by
  rw [faults, List.append_eq_nil_iff, fieldFaults_eq_nil, questions, List.filterMap_flatMap,
    List.flatMap_eq_nil_iff]
  simp only [Column.questions_faultless]
  rw [Row.forall_mem_zip]
  constructor
  · intro h
    exact ⟨h.1, fun position column value hcolumn hvalue => (h.2 position column value hcolumn hvalue).1,
      fun position column value target hcolumn hvalue =>
        (h.2 position column value hcolumn hvalue).2 target⟩
  · intro h
    exact ⟨h.takes, fun position column value hcolumn hvalue =>
      ⟨h.absent position column value hcolumn hvalue,
        fun target => h.present position column value target hcolumn hvalue⟩⟩

end TableSchema

/-! ### The checks stop at the first fault -/

theorem Column.failure?_checkField {column : Column} {value : String}
    (hbar : Row.delimiter ∉ value.toList) :
    Action.failure? (column.checkField value) = (column.faults value).head? := by
  unfold checkField faults
  rw [if_neg (by simpa using hbar)]
  by_cases hline : Text.IsLine value
  · rw [if_neg (Text.isLine_iff_any.1 hline), if_pos hline]
    cases Field.isNull value <;> cases column.notNull <;> cases column.type.accepts value <;> rfl
  · rw [if_pos (not_not.1 fun hbreak => hline (Text.isLine_iff_any.2 hbreak)), if_neg hline]
    rfl

theorem TableSchema.failure?_checkFields (schema : TableSchema) (row : String) :
    Action.failure? (schema.checkFields (Row.fields row)) = (schema.fieldFaults row).head? := by
  unfold checkFields fieldFaults
  split
  · have hfields : ∀ entry ∈ schema.columns.zip (Row.fields row),
        Action.failure? (entry.1.checkField entry.2) = (entry.1.faults entry.2).head? :=
      fun entry hmem => Column.failure?_checkField (Row.delimiter_not_mem (List.of_mem_zip hmem).2)
    rw [Action.failure?_forM, List.filterMap_congr hfields, List.head?_filterMap, List.nil_append,
      List.head?_flatMap]
  · rfl

theorem Question.asked_cons (question : Question) (rest : List Question) :
    asked (question :: rest) = question :: if question.fault?.isSome then [] else asked rest := by
  unfold asked
  rw [List.findIdx_cons]
  cases question.fault?.isSome <;> simp

/-- The question that a check asks. -/
def StoredCheck.question (values : String → String → List String) (check : StoredCheck) : Question where
  source := check.source
  fault? := Action.failure? (check.decide (values check.source.1 check.source.2))

theorem StoredCheck.question_absent (table column value : String)
    (values : String → String → List String) :
    question values (.absent table column value) = ⟨(table, column),
      if value ∈ values table column then some (.duplicateValue value column) else none⟩ := by
  simp only [question, source, decide, List.contains_iff_mem, apply_ite Action.failure?]
  rfl

theorem StoredCheck.question_present (value column : String) (target : Reference)
    (values : String → String → List String) :
    question values (.present value column target) = ⟨(target.table, target.column),
      if value ∈ values target.table target.column then none
      else some (.missingReference value column target.table target.column)⟩ := by
  simp only [question, source, decide, List.contains_iff_mem, apply_ite Action.failure?]
  rfl

theorem Column.map_question_storedChecks (table : String) (column : Column) (value : String)
    (values : String → String → List String) :
    (column.storedChecks table value).map (StoredCheck.question values)
      = column.questions values table value := by
  unfold storedChecks questions referenceCheck?
  cases Field.isNull value with
  | true => rfl
  | false =>
    cases column.unique <;> cases column.reference <;>
      simp [StoredCheck.question_absent, StoredCheck.question_present]

theorem TableSchema.map_question_storedChecks (schema : TableSchema)
    (values : String → String → List String) (row : String) :
    (schema.storedChecks (Row.fields row)).map (StoredCheck.question values)
      = schema.questions values row := by
  unfold storedChecks questions
  rw [List.map_flatMap]
  exact congrArg (List.flatMap · _) (funext fun entry =>
    Column.map_question_storedChecks schema.name entry.1 entry.2 values)

variable {σ : Type} (values : String → String → List String) (note : σ → String × String → σ)

theorem StoredCheck.run_answering (check : StoredCheck) (s : σ) :
    check.run (answering values note) s
      = (check.decide (values check.source.1 check.source.2), note s check.source) :=
  Action.ofResult_apply (check.decide (values check.source.1 check.source.2)) (note s check.source)

/-- Checks that are made one after the other ask until one of them fails. -/
theorem StoredCheck.forM_answering (checks : List StoredCheck) (s : σ) :
    Action.failure? (checks.forM (run (answering values note)) s).1
        = ((checks.map (question values)).filterMap Question.fault?).head? ∧
      (checks.forM (run (answering values note)) s).2
        = ((Question.asked (checks.map (question values))).map Question.source).foldl note s := by
  induction checks generalizing s with
  | nil => exact ⟨rfl, rfl⟩
  | cons check rest ih =>
    have hrun := run_answering values note check s
    rw [List.map_cons, List.filterMap_cons, Question.asked_cons]
    cases hdecide : check.decide (values check.source.1 check.source.2) with
    | ok _ =>
      rw [hdecide] at hrun
      have hfault : (question values check).fault? = none := Action.failure?_eq_none.2 ⟨_, hdecide⟩
      rw [hfault, List.forM_eq_forM, List.forM_cons, Action.bind_of_ok hrun]
      exact ih (note s check.source)
    | error failure =>
      rw [hdecide] at hrun
      have hfault : (question values check).fault? = some failure := Action.failure?_eq_some.2 hdecide
      rw [hfault, List.forM_eq_forM, List.forM_cons, Action.bind_of_error hrun]
      exact ⟨rfl, rfl⟩

namespace TableSchema

/-- A row fails with its first fault, and what the lookup was asked is noted. -/
theorem checkRow_answering (schema : TableSchema) (row : String) (s : σ) :
    Action.failure? (schema.checkRow (answering values note) row s).1 = (schema.faults values row).head? ∧
      (schema.checkRow (answering values note) row s).2 = (schema.asked values row).foldl note s := by
  have hchecked := Action.ofResult_apply (schema.checkFields (Row.fields row)) s
  have hfields := schema.failure?_checkFields row
  unfold checkRow faults asked
  rw [List.head?_append]
  cases hresult : schema.checkFields (Row.fields row) with
  | error failure =>
    rw [hresult] at hchecked hfields
    rw [Action.bind_of_error hchecked, ← hfields, if_neg]
    · exact ⟨rfl, rfl⟩
    · intro hnil
      rw [hnil] at hfields
      exact absurd hfields (by simp [Action.failure?])
  | ok _ =>
    rw [hresult] at hchecked hfields
    rw [Action.bind_of_ok hchecked, ← hfields, if_pos (List.head?_eq_none_iff.1 hfields.symm),
      ← schema.map_question_storedChecks values row]
    exact StoredCheck.forM_answering values note _ s

variable {values} in
/-- The lookup is asked only when all fields are right by themselves, and only for what matters. -/
theorem of_mem_asked {schema : TableSchema} {row : String} {source : String × String}
    (h : source ∈ schema.asked values row) :
    schema.Takes row ∧ schema.Concerns row source := by
  unfold asked at h
  split at h
  · rename_i hfields
    refine ⟨fieldFaults_eq_nil.1 hfields, ?_⟩
    obtain ⟨question, hquestion, rfl⟩ := List.mem_map.1 h
    have hmem := List.mem_of_mem_take hquestion
    rw [← map_question_storedChecks] at hmem
    obtain ⟨check, hcheck, rfl⟩ := List.mem_map.1 hmem
    obtain ⟨position, column, value, hcolumn, hvalue, hnull, hkind⟩ := mem_storedChecks.1 hcheck
    refine ⟨position, column, value, hcolumn, hvalue, hnull, ?_⟩
    rcases hkind with ⟨hunique, rfl⟩ | ⟨target, hreference, rfl⟩
    · exact .inl ⟨hunique, rfl⟩
    · exact .inr ⟨target, hreference, rfl⟩
  · exact absurd h (by simp)

/-- Exactly the legal rows are taken. What is wrong with another one is said by its first fault: the number
of its fields, then what is wrong with each field by itself, then what the stored values show. And the lookup
is asked about a value only where it must be new or found elsewhere, after all fields were found right by
themselves, and up to the first answer that shows a fault. -/
theorem checkRow_exact (schema : TableSchema) (row : String) (s : σ) :
    let checked := schema.checkRow (answering values note) row s
    (checked.1 = .ok () ↔ schema.IsLegal values row) ∧
      (∀ failure, checked.1 = .error failure ↔ (schema.faults values row).head? = some failure) ∧
      checked.2 = (schema.asked values row).foldl note s ∧
      ∀ source ∈ schema.asked values row, schema.Takes row ∧ schema.Concerns row source := by
  obtain ⟨hfailure, hasked⟩ := checkRow_answering values note schema row s
  refine ⟨?_, fun failure => ?_, hasked, fun source hsource => of_mem_asked hsource⟩
  · rw [← faults_eq_nil, ← List.head?_eq_none_iff, ← hfailure, Action.failure?_eq_none]
    exact ⟨fun h => ⟨(), h⟩, fun ⟨_, h⟩ => h⟩
  · rw [← hfailure, Action.failure?_eq_some]

/-- A later field that is wrong by itself comes before a value that is there already. -/
example :
    let schema : TableSchema := {
      database := "kantor", name := "t",
      columns := [(Column.plain "id" .int).constrain .primaryKey, .plain "nama" (.char 5)],
      permissions := .standard }
    schema.faults (fun _ _ => ["1"]) "1|sebastian"
        = [.typeMismatch "nama" "CHAR(5)" "sebastian", .duplicateValue "1" "id"] ∧
      schema.asked (fun _ _ => ["1"]) "1|sebastian" = [] := by
  decide +kernel

end TableSchema

end FlatFileDb
