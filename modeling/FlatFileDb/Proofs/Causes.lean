import FlatFileDb.Change
import FlatFileDb.Proofs.Statement
import FlatFileDb.Relation.Answer
import FlatFileDb.Relation.Join
import FlatFileDb.Schema.Definition

/-!
# Causes of failure

What cannot be read fails with an error of reading, what does not fit its table with an error of the
schema, and a query over rows that are there with one of those or of the query itself. None of them
ever blames a file: only what looks into the data directory does.
-/

namespace FlatFileDb

variable {α β : Type} {p q : Error → Prop}

/-- Whatever a result fails with is of a kind. -/
def FailsAs (p : Error → Prop) (result : Except Error α) : Prop :=
  ∀ failure, result = .error failure → p failure

namespace FailsAs

theorem ok (a : α) : FailsAs p (.ok a : Except Error α) :=
  fun _ h => nomatch h

theorem pure (a : α) : FailsAs p (Pure.pure a : Except Error α) :=
  ok a

theorem error {failure : Error} (h : p failure) : FailsAs p (.error failure : Except Error α) :=
  fun _ hfails => Except.error.inj hfails ▸ h

theorem throw {failure : Error} (h : p failure) :
    FailsAs p (MonadExceptOf.throw failure : Except Error α) :=
  error h

theorem mono {result : Except Error α} (h : FailsAs p result)
    (hle : ∀ failure, p failure → q failure) : FailsAs q result :=
  fun failure hfails => hle failure (h failure hfails)

theorem bind {result : Except Error α} {next : α → Except Error β} (h : FailsAs p result)
    (hnext : ∀ a, FailsAs p (next a)) : FailsAs p (result >>= next) := by
  cases result with
  | error failure => exact fun other hother => h other (congrArg _ (Except.error.inj hother))
  | ok a => exact hnext a

theorem ite {c : Prop} [Decidable c] {yes no : Except Error α} (hyes : FailsAs p yes)
    (hno : FailsAs p no) : FailsAs p (if c then yes else no) := by
  split
  · exact hyes
  · exact hno

theorem mapM {list : List α} {f : α → Except Error β} (h : ∀ a, FailsAs p (f a)) :
    FailsAs p (list.mapM f) := by
  induction list with
  | nil => exact .pure _
  | cons a rest ih =>
    rw [List.mapM_cons]
    exact (h a).bind fun _ => ih.bind fun _ => .pure _

theorem forM {list : List α} {f : α → Except Error Unit} (h : ∀ a, FailsAs p (f a)) :
    FailsAs p (list.forM f) := by
  induction list with
  | nil => exact .pure _
  | cons a rest ih =>
    rw [List.forM_eq_forM, List.forM_cons]
    exact (h a).bind fun _ => ih

section Actions

variable {σ : Type}

/-- A sequence fails as its first part, or as what follows it fails from there. -/
theorem andThen {step : Action σ α} {next : α → Action σ β} {s : σ} (h : FailsAs p (step s).1)
    (hnext : ∀ a s', step s = (.ok a, s') → FailsAs p (next a s').1) :
    FailsAs p ((step >>= next) s).1 := by
  cases hstep : step s with
  | mk result s' =>
    rw [hstep] at h
    cases result with
    | error failure =>
      rw [Action.bind_of_error hstep]
      exact fun other hother => h other (congrArg _ (Except.error.inj hother))
    | ok a =>
      rw [Action.bind_of_ok hstep]
      exact hnext a s' hstep

theorem map {step : Action σ α} {f : α → β} {s : σ} (h : FailsAs p (step s).1) :
    FailsAs p ((f <$> step) s).1 :=
  andThen h fun a _ _ => pure (f a)

theorem ofExcept {result : Except Error α} {s : σ} (h : FailsAs p result) :
    FailsAs p ((Action.ofExcept result : Action σ α) s).1 :=
  h

theorem tryCatch {step : Action σ α} {handle : Error → Action σ α} {s : σ}
    (hhandle : ∀ failure s', step s = (.error failure, s') → FailsAs p (handle failure s').1) :
    FailsAs p ((tryCatch step handle : Action σ α) s).1 := by
  cases hstep : step s with
  | mk result s' =>
  cases result with
  | error failure =>
    rw [Action.tryCatch_of_error hstep]
    exact hhandle failure s' hstep
  | ok a =>
    rw [Action.tryCatch_of_ok hstep]
    exact ok a

theorem forEach {list : List α} {step : α → Action σ Unit} {s : σ}
    (h : ∀ a s', FailsAs p (step a s').1) : FailsAs p ((list.forM step) s).1 := by
  induction list generalizing s with
  | nil => exact pure ()
  | cons a rest ih =>
    rw [List.forM_eq_forM, List.forM_cons]
    exact andThen (h a s) fun _ _ _ => ih

end Actions

end FailsAs

/-! ### Reading -/

/-- Whether a failure is one of reading. -/
def Error.IsOfReading (failure : Error) : Prop :=
  failure.layer = .parse

namespace Statement

open Cursor

variable {read : List Char → Except Error Command}

theorem failsAs_token (what : String) (cursor : Cursor) :
    FailsAs Error.IsOfReading (cursor.token what) := by
  unfold token
  split
  · exact .error rfl
  · exact .ok _

theorem failsAs_expect (keyword : Keyword) (cursor : Cursor) :
    FailsAs Error.IsOfReading (cursor.expect keyword) := by
  unfold expect
  split
  · exact .error rfl
  · exact .ite (.ok _) (.error rfl)

theorem failsAs_name (what : String) (cursor : Cursor) :
    FailsAs Error.IsOfReading (cursor.name what) :=
  (failsAs_token what cursor).bind fun _ => .ite (.pure _) (.throw rfl)

theorem failsAs_field (what : String) (cursor : Cursor) :
    FailsAs Error.IsOfReading (cursor.field what) :=
  (failsAs_token what cursor).bind fun _ => .ite (.throw rfl) (.pure _)

theorem failsAs_integer (clause : String) (cursor : Cursor) :
    FailsAs Error.IsOfReading (cursor.integer clause) := by
  refine (failsAs_token _ cursor).bind fun (token, next) => ?_
  dsimp only
  split
  · exact .pure _
  · exact .throw rfl

theorem failsAs_finish (cursor : Cursor) : FailsAs Error.IsOfReading cursor.finish := by
  unfold finish
  split
  · exact .ok _
  · exact .error rfl

theorem failsAs_someRawRest (what : String) (cursor : Cursor) :
    FailsAs Error.IsOfReading (cursor.someRawRest what) :=
  .ite (.error rfl) (.ok _)

theorem failsAs_fieldList (text : List Char) : FailsAs Error.IsOfReading (fieldList text) :=
  .mapM fun _ => .ite (.error rfl) (.ok _)

theorem failsAs_assignments (text : List Char) : FailsAs Error.IsOfReading (assignments text) := by
  refine .bind (.mapM fun piece => ?_) fun _ => .pure _
  unfold assignment
  split
  · exact .ite (.ok _) (.error rfl)
  · exact .error rfl

theorem failsAs_comparison (clause : String) (tokens : List String) :
    FailsAs Error.IsOfReading (comparison clause tokens) := by
  have hoperator (token : String) : FailsAs Error.IsOfReading (operator token) := by
    unfold operator
    split
    · exact .ok _
    · split
      · exact .ok _
      · exact .error rfl
  have hliteral (tokens : List String) : FailsAs Error.IsOfReading (literal tokens) := by
    unfold literal
    split
    · exact .error rfl
    · split
      · exact .ok _
      · split
        · exact .error rfl
        · exact .ok _
  unfold comparison
  split
  · exact .error rfl
  · exact .error rfl
  · exact (hoperator _).bind fun _ => (hliteral _).bind fun _ => .pure _

theorem failsAs_conditions (clause : String) (tokens : List String) :
    FailsAs Error.IsOfReading (conditions clause tokens) := by
  have hconnector (token : String) : FailsAs Error.IsOfReading (connector token) :=
    .ite (.ok _) (.ite (.ok _) (.error rfl))
  have hchain (fuel : Nat) (tokens : List String) :
      FailsAs Error.IsOfReading (chain clause fuel tokens) := by
    induction fuel generalizing tokens with
    | zero => exact .error rfl
    | succ fuel ih =>
      refine (failsAs_comparison clause tokens).bind fun (condition, rest) => ?_
      dsimp only
      split
      · exact .pure _
      · refine (hconnector _).bind fun _ => ?_
        split
        · exact .throw rfl
        · exact (ih _).bind fun _ => .pure _
  exact hchain _ tokens

theorem failsAs_conditionClause (clause : String) (cursor : Cursor) :
    FailsAs Error.IsOfReading (conditionClause clause cursor) :=
  (failsAs_conditions clause _).bind fun _ => .pure _

theorem failsAs_joinClause (kind : JoinKind) (cursor : Cursor) :
    FailsAs Error.IsOfReading (joinClause kind cursor) := by
  have hbehind (cursor : Cursor) : FailsAs Error.IsOfReading (do
      let table ← cursor.name "join table"
      let cursor ← table.2.expect .onColumn
      let left ← cursor.field "join column"
      let symbol ← left.2.token "="
      if symbol.1 != "=" then throw (.unexpectedToken "=" symbol.1)
      let right ← symbol.2.field "join column"
      return ((⟨kind, table.1, left.1, right.1⟩ : Join), right.2)) := by
    refine (failsAs_name _ cursor).bind fun _ => (failsAs_expect _ _).bind fun _ =>
      (failsAs_field _ _).bind fun _ => (failsAs_token _ _).bind fun _ => ?_
    dsimp only
    split
    · exact .throw rfl
    · exact (failsAs_field _ _).bind fun _ => .pure _
  unfold joinClause
  dsimp only
  split
  · exact hbehind _
  · exact (failsAs_expect _ _).bind hbehind

theorem failsAs_clause (query : Query) (word : String) (cursor : Cursor) :
    FailsAs Error.IsOfReading (clause query word cursor) := by
  have horder (cursor : Cursor) : FailsAs Error.IsOfReading (orderClause cursor) :=
    (failsAs_field _ _).bind fun _ => .ite (.pure _) (.pure _)
  unfold clause
  dsimp only
  split
  · exact (failsAs_joinClause _ _).bind fun _ => .pure _
  · refine .ite ((failsAs_conditionClause _ _).bind fun _ => .pure _) ?_
    refine .ite ((failsAs_field _ _).bind fun _ => .pure _) ?_
    refine .ite ((failsAs_conditionClause _ _).bind fun _ => .pure _) ?_
    refine .ite ((horder _).bind fun _ => .pure _) ?_
    refine .ite ((failsAs_integer _ _).bind fun _ => .pure _) ?_
    exact .ite ((failsAs_integer _ _).bind fun _ => .pure _) (.throw rfl)

theorem failsAs_clauses (fuel : Nat) (query : Query) (cursor : Cursor) :
    FailsAs Error.IsOfReading (clauses fuel query cursor) := by
  induction fuel generalizing query cursor with
  | zero => exact .ok _
  | succ fuel ih =>
    rw [clauses]
    split
    · exact .ok _
    · exact (failsAs_clause _ _ _).bind fun _ => ih _ _

theorem failsAs_selection (cursor : Cursor) : FailsAs Error.IsOfReading (selection cursor) := by
  unfold selection
  dsimp only
  split
  · exact (failsAs_finish _).bind fun _ => .pure _
  split
  · exact .throw rfl
  · exact (failsAs_fieldList _).bind fun _ => (failsAs_name _ _).bind fun _ =>
      (failsAs_clauses _ _ _).bind fun _ => .pure _
  · exact (failsAs_name _ _).bind fun _ => (failsAs_clauses _ _ _).bind fun _ => .pure _

theorem failsAs_insertion (cursor : Cursor) : FailsAs Error.IsOfReading (insertion cursor) :=
  (failsAs_name _ _).bind fun _ => (failsAs_someRawRest _ _).bind fun _ => .pure _

theorem failsAs_change (cursor : Cursor) : FailsAs Error.IsOfReading (change cursor) := by
  refine (failsAs_name _ _).bind fun _ => (failsAs_expect _ _).bind fun _ => ?_
  dsimp only
  split
  · exact .throw rfl
  · refine (failsAs_assignments _).bind fun _ => ?_
    split
    · exact .pure _
    · exact (failsAs_conditions _ _).bind fun _ => .pure _

theorem failsAs_deletion (cursor : Cursor) : FailsAs Error.IsOfReading (deletion cursor) := by
  refine (failsAs_expect _ _).bind fun _ => (failsAs_name _ _).bind fun _ => ?_
  dsimp only
  split
  · exact .pure _
  · exact (failsAs_expect _ _).bind fun _ => (failsAs_conditions _ _).bind fun _ => .pure _

theorem failsAs_tableColumn (cursor : Cursor) : FailsAs Error.IsOfReading (tableColumn cursor) :=
  (failsAs_name _ _).bind fun _ => (failsAs_expect _ _).bind fun _ =>
    (failsAs_name _ _).bind fun _ => .pure _

theorem failsAs_indexOn (kind : IndexKind) (cursor : Cursor) :
    FailsAs Error.IsOfReading (indexOn kind cursor) :=
  (failsAs_tableColumn _).bind fun _ => (failsAs_finish _).bind fun _ => .pure _

theorem failsAs_creation (hread : ∀ text, FailsAs Error.IsOfReading (read text)) (cursor : Cursor) :
    FailsAs Error.IsOfReading (creation read cursor) := by
  have hview (cursor : Cursor) : FailsAs Error.IsOfReading (viewDefinition read cursor) := by
    refine (failsAs_name _ _).bind fun _ => (failsAs_expect _ _).bind fun _ =>
      (failsAs_someRawRest _ _).bind fun _ => (hread _).bind fun command => ?_
    split
    · exact .pure _
    · exact .throw rfl
  have htrigger (cursor : Cursor) : FailsAs Error.IsOfReading (triggerDefinition read cursor) := by
    refine (failsAs_name _ _).bind fun _ => (failsAs_expect _ _).bind fun _ =>
      (failsAs_token _ _).bind fun _ => ?_
    dsimp only
    split
    · exact (failsAs_expect _ _).bind fun _ => (failsAs_name _ _).bind fun _ =>
        (failsAs_expect _ _).bind fun _ => (failsAs_someRawRest _ _).bind fun _ =>
          (hread _).bind fun _ => .pure _
    · exact .throw rfl
  refine .ite (hview _) (.ite (htrigger _) (.ite (failsAs_indexOn _ _) ?_))
  exact (failsAs_name _ _).bind fun _ => (failsAs_someRawRest _ _).bind fun _ => .pure _

theorem failsAs_wordSearch (cursor : Cursor) : FailsAs Error.IsOfReading (wordSearch cursor) := by
  refine (failsAs_tableColumn _).bind fun _ => (failsAs_expect _ _).bind fun _ => ?_
  dsimp only
  split
  · exact .throw rfl
  · exact .pure _

theorem failsAs_nodeRole (cursor : Cursor) : FailsAs Error.IsOfReading (nodeRole cursor) := by
  unfold nodeRole
  split
  · exact (failsAs_finish _).bind fun _ => .pure _
  split
  · exact (failsAs_expect _ _).bind fun _ => (failsAs_someRawRest _ _).bind fun _ => .pure _
  split
  · exact .throw rfl
  · exact .throw rfl

theorem failsAs_commandOf (hread : ∀ text, FailsAs Error.IsOfReading (read text)) (verb : String)
    (cursor : Cursor) : FailsAs Error.IsOfReading (commandOf read verb cursor) := by
  have htransaction (control : TransactionControl) :
      FailsAs Error.IsOfReading (transaction control cursor) :=
    (failsAs_finish _).bind fun _ => .pure _
  refine .ite (failsAs_creation hread _) (.ite (failsAs_insertion _) ?_)
  refine .ite (failsAs_selection _) (.ite (failsAs_change _) (.ite (failsAs_deletion _) ?_))
  refine .ite (failsAs_indexOn _ _) (.ite (failsAs_wordSearch _) ?_)
  refine .ite (htransaction _) (.ite (htransaction _) (.ite (htransaction _) ?_))
  exact .ite (failsAs_nodeRole _) (.error rfl)

/-- A statement that cannot be read fails with an error of reading. -/
theorem failsAs_parse (text : String) : FailsAs Error.IsOfReading (parse text) := by
  have hwithin (fuel : Nat) (text : List Char) :
      FailsAs Error.IsOfReading (readWithin fuel text) := by
    induction fuel generalizing text with
    | zero => exact .error rfl
    | succ fuel ih =>
      unfold readWithin
      dsimp only
      split
      · exact .error rfl
      · exact failsAs_commandOf ih _ _
  exact hwithin _ _

end Statement

namespace Definition

theorem failsAs_ofParts (name : String) (arguments : List String) :
    FailsAs Error.IsOfReading (DataType.ofParts name arguments) := by
  have hplain (type : DataType) :
      FailsAs Error.IsOfReading (DataType.withoutArguments name arguments type) :=
    .ite (.ok _) (.error rfl)
  have hchar : FailsAs Error.IsOfReading (DataType.charOf arguments) := by
    unfold DataType.charOf
    split
    · split
      · exact .ok _
      · exact .error rfl
    · exact .error rfl
  have henum : FailsAs Error.IsOfReading (DataType.enumOf arguments) := .ite (.error rfl) (.ok _)
  refine .ite (hplain _) (.ite (hplain _) (.ite (hplain _) (.ite (hplain _) (.ite (hplain _) ?_))))
  exact .ite (hplain _) (.ite hchar (.ite henum (.error rfl)))

theorem failsAs_column (item : String) : FailsAs Error.IsOfReading (column item) := by
  unfold column
  split
  · exact .error rfl
  · exact (failsAs_ofParts _ _).bind fun _ => .pure _

/-- A definition that lists no columns fails with an error of reading. -/
theorem failsAs_columns (text : String) : FailsAs Error.IsOfReading (columns text) := by
  have hafter (items : List (List Char)) (done : List Column) :
      FailsAs Error.IsOfReading (columnsAfter done items) := by
    induction items generalizing done with
    | nil => exact .ok _
    | cons item rest ih =>
      refine (failsAs_column _).bind fun column => ?_
      dsimp only
      split
      · exact .throw rfl
      · exact ih _
  unfold columns
  split
  · exact .error rfl
  · exact hafter _ _

end Definition

/-! ### Checks -/

/-- Whether a failure is one of a value or a name that does not fit. -/
def Error.IsOfSchema (failure : Error) : Prop :=
  failure.layer = .schema

theorem Name.failsAs_check (name : String) : FailsAs Error.IsOfSchema (Name.check name) :=
  .ite (.ok _) (.error rfl)

theorem Column.failsAs_checkField (column : Column) (value : String) :
    FailsAs Error.IsOfSchema (column.checkField value) :=
  .ite (.error rfl) <| .ite (.error rfl) <|
    .ite (.ite (.error rfl) (.ok _)) (.ite (.ok _) (.error rfl))

theorem StoredCheck.failsAs_decide (stored : List String) (check : StoredCheck) :
    FailsAs Error.IsOfSchema (check.decide stored) := by
  cases check with
  | absent table column value => exact .ite (.error rfl) (.ok _)
  | present value column target => exact .ite (.ok _) (.error rfl)

namespace TableSchema

variable (schema : TableSchema)

theorem failsAs_requireColumn (name table : String) :
    FailsAs Error.IsOfSchema (schema.requireColumn name table) := by
  unfold requireColumn
  split
  · exact .ok _
  · exact .error rfl

theorem failsAs_checkFields (fields : List String) :
    FailsAs Error.IsOfSchema (schema.checkFields fields) :=
  .ite (.forM fun _ => Column.failsAs_checkField _ _) (.error rfl)

theorem failsAs_update (assignments : List Assignment) (conditions : List Condition)
    (rows : List String) : FailsAs Error.IsOfSchema (schema.update assignments conditions rows) :=
  .bind (.forM fun _ => .ite (.error rfl) (.ok _)) fun _ => .pure _

end TableSchema

/-! ### Queries over rows that are there -/

/-- Whether a level of nesting was missing. -/
def Error.isNesting : Error → Bool
  | nestingTooDeep _ => true
  | _ => false

/-- Whether a failure is one of a query: a name that means nothing, or something that cannot be
computed. -/
def Error.IsOfQuery (failure : Error) : Prop :=
  failure.layer = .schema ∨ failure.layer = .execution ∧ failure.isNesting = false

theorem Aggregate.failsAs_ofField? (field : String) :
    FailsAs Error.IsOfQuery (Aggregate.ofField? field) := by
  unfold Aggregate.ofField?
  split
  · exact .ok _
  · split
    · exact .error (.inr ⟨rfl, rfl⟩)
    · exact .ite (.error (.inr ⟨rfl, rfl⟩)) (.ite (.error (.inr ⟨rfl, rfl⟩)) (.ok _))

namespace Relation

variable (relation : Relation)

theorem failsAs_require (name : String) : FailsAs Error.IsOfQuery (relation.require name) := by
  unfold Relation.require
  split
  · exact .ok _
  · exact .error (.inl rfl)

theorem failsAs_join (right : Relation) (clause : Join) :
    FailsAs Error.IsOfQuery (relation.join right clause) := by
  refine .bind ?_ fun _ => .pure _
  unfold joinColumns
  split
  · exact .ok _
  · split
    · exact .ok _
    · split
      · exact .error (.inl rfl)
      · exact .error (.inl rfl)

theorem failsAs_compute (aggregate : Aggregate) (rows : List (List String)) :
    FailsAs Error.IsOfQuery (aggregate.compute relation rows) :=
  .ite (.ok _) ((relation.failsAs_require _).bind fun _ => .pure _)

theorem failsAs_groupRow (having : List Condition) (fields : List (String × Option Aggregate))
    (group : List (List String)) :
    FailsAs Error.IsOfQuery (relation.groupRow having fields group) := by
  have hfulfils (condition : Condition) :
      FailsAs Error.IsOfQuery (relation.groupFulfils group condition) := by
    refine (Aggregate.failsAs_ofField? _).bind fun aggregate => ?_
    split
    · exact (relation.failsAs_compute _ _).bind fun _ => .pure _
    · split
      · exact .pure _
      · exact .pure _
  have hfrom (conditions : List Condition) (outcome : Bool) (connector : Option Connector) :
      FailsAs Error.IsOfQuery
        (Condition.evaluateFrom (relation.groupFulfils group) outcome connector conditions) := by
    induction conditions generalizing outcome connector with
    | nil => exact .pure _
    | cons condition rest ih => exact (hfulfils _).bind fun _ => ih _ _
  have hevaluate : FailsAs Error.IsOfQuery
      (Condition.evaluate (relation.groupFulfils group) having) := by
    cases having with
    | nil => exact .pure _
    | cons condition rest => exact (hfulfils _).bind fun _ => hfrom _ _ _
  have hfield (field : String × Option Aggregate) :
      FailsAs Error.IsOfQuery (relation.groupField group field) := by
    obtain ⟨name, aggregate | aggregate⟩ := field
    · exact (relation.failsAs_require _).bind fun _ => .pure _
    · exact relation.failsAs_compute _ _
  exact hevaluate.bind fun _ => .ite (.bind (.mapM hfield) fun _ => .pure _) (.pure _)

theorem failsAs_project (query : Query) : FailsAs Error.IsOfQuery (relation.project query) := by
  have hgroup (fields : List (String × Option Aggregate)) (group : List (List String)) :=
    relation.failsAs_groupRow query.having fields group
  unfold project
  refine .bind (.mapM fun _ => (Aggregate.failsAs_ofField? _).bind fun _ => .pure _)
    fun fields => ?_
  split
  · exact (relation.failsAs_require _).bind fun _ => .bind (.mapM (hgroup fields)) fun _ => .pure _
  · refine .ite ((hgroup _ _).bind fun _ => .pure _) (.ite (.throw (.inr ⟨rfl, rfl⟩)) ?_)
    exact .bind (.mapM relation.failsAs_require) fun _ => .pure _

/-- A query over rows that are there fails for what it asks. -/
theorem failsAs_answer (query : Query) : FailsAs Error.IsOfQuery (relation.answer query) := by
  refine ((relation.select query.conditions).failsAs_project query).bind fun _ => .bind ?_ fun _ =>
    .pure _
  unfold order
  split
  · exact .ok _
  · split
    · exact .ok _
    · exact .error (.inl rfl)

end Relation

end FlatFileDb
