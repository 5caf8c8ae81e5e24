import FlatFileDb.Engine.Execute
import FlatFileDb.Proofs.Action
import Mathlib.Data.List.Forall2

/-!
# Reading without a trace

Checks and queries read the disk and at most keep the schemas that they read. `Quiet` says so of the
engine before and after. What such a step comes to depends on nothing but what can be seen of the
engine: its disk, and the schema that it takes for that of each table. A step that does both
`Observes`, and what observes may be taken again later, or in another engine that looks the same.
-/

namespace FlatFileDb

namespace Engine

/-- Nothing happened but that schemas on the disk were read. -/
structure Quiet (before after : Engine) : Prop where
  settings : after.settings = before.settings
  disk : after.disk = before.disk
  log : after.log = before.log
  transactions : after.transactions = before.transactions
  role : after.role = before.role
  latestJobs : after.latestJobs = before.latestJobs
  clock : after.clock = before.clock
  kept : ∀ key schema, before.schemas.get? key = some schema →
    after.schemas.get? key = some schema
  read : ∀ key schema, after.schemas.get? key = some schema →
    before.schemas.get? key = some schema ∨ readSchema before.disk key.1 key.2 = .ok schema

instance : IsPreorder Engine Quiet where
  refl _ := ⟨rfl, rfl, rfl, rfl, rfl, rfl, rfl, fun _ _ h => h, fun _ _ h => .inl h⟩
  trans first second third h h' := {
    settings := h'.settings.trans h.settings
    disk := h'.disk.trans h.disk
    log := h'.log.trans h.log
    transactions := h'.transactions.trans h.transactions
    role := h'.role.trans h.role
    latestJobs := h'.latestJobs.trans h.latestJobs
    clock := h'.clock.trans h.clock
    kept := fun key schema hkey => h'.kept key schema (h.kept key schema hkey)
    read := fun key schema hkey => by
      rcases h'.read key schema hkey with hsecond | hdisk
      · exact h.read key schema hsecond
      · rw [h.disk] at hdisk
        exact .inr hdisk }

/-! ### What can be seen of an engine -/

/-- The schema that the engine takes for that of a table: the one in memory, else the one on the
disk. -/
def knownSchema (engine : Engine) (database table : String) : Except Error TableSchema :=
  match engine.schemas.get? (database, table) with
  | some schema => .ok schema
  | none => readSchema engine.disk database table

/-- Nothing tells two engines apart that a check or a query looks at. -/
structure SameView (first second : Engine) : Prop where
  settings : second.settings = first.settings
  disk : second.disk = first.disk
  schema : ∀ database table, second.knownSchema database table = first.knownSchema database table

theorem SameView.refl (engine : Engine) : SameView engine engine :=
  ⟨rfl, rfl, fun _ _ => rfl⟩

theorem Quiet.sameView {before after : Engine} (h : Quiet before after) : SameView before after := by
  refine ⟨h.settings, h.disk, fun database table => ?_⟩
  unfold knownSchema
  cases hbefore : before.schemas.get? (database, table) with
  | some found => rw [h.kept _ _ hbefore]
  | none =>
    cases hafter : after.schemas.get? (database, table) with
    | none => rw [h.disk]
    | some found =>
      rcases h.read _ _ hafter with hmemory | hdisk
      · rw [hbefore] at hmemory
        exact absurd hmemory (by simp)
      · exact hdisk.symm

/-! ### Steps that observe -/

/-- A step that leaves no trace and comes to the same wherever the same is seen. -/
structure Observes {α : Type} (step : Action Engine α) : Prop where
  quiet : Action.Within Quiet step
  stable : ∀ first second, SameView first second → (step second).1 = (step first).1

namespace Observes

variable {α β : Type}

theorem pure (a : α) : Observes (Pure.pure a : Action Engine α) :=
  ⟨.pure a, fun _ _ _ => rfl⟩

theorem throw (e : Error) : Observes (throw e : Action Engine α) :=
  ⟨.throw e, fun _ _ _ => rfl⟩

theorem ofExcept (result : Except Error α) : Observes (Action.ofExcept result) :=
  ⟨.ofExcept result, fun _ _ _ => rfl⟩

theorem ofResult (result : Except Error α) :
    Observes (MonadExcept.ofExcept result : Action Engine α) := by
  cases result with
  | ok a => exact pure a
  | error e => exact throw e

theorem readDisk (f : Disk → Except Error α) : Observes (Engine.readDisk f) :=
  ⟨.read _, fun _ _ h => by rw [Engine.readDisk, Action.read_apply, Action.read_apply, h.disk]⟩

theorem look (f : Disk → α) : Observes (Engine.look f) :=
  ⟨.read _, fun _ _ h => by rw [Engine.look, Action.read_apply, Action.read_apply, h.disk]⟩

theorem sameView {step : Action Engine α} (h : Observes step) {first second : Engine}
    (hview : SameView first second) : SameView (step first).2 (step second).2 := by
  have hfirst := (h.quiet first).sameView
  have hsecond := (h.quiet second).sameView
  refine ⟨?_, ?_, fun database table => ?_⟩
  · rw [hsecond.settings, hfirst.settings, hview.settings]
  · rw [hsecond.disk, hfirst.disk, hview.disk]
  · rw [hsecond.schema, hfirst.schema, hview.schema]

theorem bind {step : Action Engine α} {next : α → Action Engine β} (h : Observes step)
    (hnext : ∀ a, Observes (next a)) : Observes (step >>= next) := by
  refine ⟨.bind h.quiet fun a => (hnext a).quiet, fun first second hview => ?_⟩
  have hresult := h.stable first second hview
  have hafter := h.sameView hview
  rw [Action.bind_apply, Action.bind_apply]
  cases hfirst : step first with
  | mk result first' =>
    cases hsecond : step second with
    | mk result' second' =>
      rw [hfirst, hsecond] at hresult hafter
      simp only at hresult
      subst hresult
      cases result' with
      | error e => rfl
      | ok a => exact (hnext a).stable first' second' hafter

theorem ite {p : Prop} [Decidable p] {yes no : Action Engine α} (hyes : Observes yes)
    (hno : Observes no) : Observes (if p then yes else no) := by
  by_cases h : p
  · rw [if_pos h]
    exact hyes
  · rw [if_neg h]
    exact hno

theorem forM {list : List α} {step : α → Action Engine Unit} (h : ∀ a, Observes (step a)) :
    Observes (list.forM step) := by
  induction list with
  | nil => exact pure ()
  | cons a list ih =>
    rw [List.forM_eq_forM, List.forM_cons]
    exact bind (h a) fun _ => ih

theorem mapM {list : List α} {step : α → Action Engine β} (h : ∀ a, Observes (step a)) :
    Observes (list.mapM step) := by
  induction list with
  | nil => exact pure []
  | cons a list ih =>
    rw [List.mapM_cons]
    exact bind (h a) fun b => bind ih fun rest => pure (b :: rest)

/-- A sequence that starts with observing stops there without a trace, or goes on. -/
theorem run_bind {step : Action Engine α} (h : Observes step) (next : α → Action Engine β)
    (engine : Engine) :
    (∃ e after, Quiet engine after ∧ (step >>= next) engine = (.error e, after)) ∨
      ∃ a after, Quiet engine after ∧ (step engine).1 = .ok a ∧
        (step >>= next) engine = next a after := by
  have hquiet := h.quiet engine
  cases hstep : step engine with
  | mk result after =>
    rw [hstep] at hquiet
    cases result with
    | error e => exact .inl ⟨e, after, hquiet, Action.bind_of_error hstep⟩
    | ok a => exact .inr ⟨a, after, hquiet, rfl, Action.bind_of_ok hstep⟩

/-- In a sequence of steps that observe, each might as well start where the first one does. -/
theorem result_bind {step : Action Engine α} {next : α → Action Engine β} (h : Observes step)
    (hnext : ∀ a, Observes (next a)) (engine : Engine) :
    ((step >>= next) engine).1 = (step engine).1 >>= fun a => (next a engine).1 := by
  have hquiet := h.quiet engine
  rw [Action.bind_apply]
  cases hstep : step engine with
  | mk result after =>
    rw [hstep] at hquiet
    cases result with
    | error e => rfl
    | ok a => exact (hnext a).stable _ _ hquiet.sameView

/-- A sequence comes to the same in two engines where each of its steps does. -/
theorem bind_congr {step : Action Engine α} {next : α → Action Engine β} (h : Observes step)
    (hnext : ∀ a, Observes (next a)) {first second : Engine}
    (hstep : (step second).1 = (step first).1)
    (hafter : ∀ a, (step first).1 = .ok a → (next a second).1 = (next a first).1) :
    ((step >>= next) second).1 = ((step >>= next) first).1 := by
  rw [result_bind h hnext, result_bind h hnext, hstep]
  cases hresult : (step first).1 with
  | error failure => rfl
  | ok a => exact hafter a hresult

/-- The parts of a sequence that came to a result would each come to one on their own. -/
theorem of_bind {step : Action Engine α} {next : α → Action Engine β} (h : Observes step)
    (hnext : ∀ a, Observes (next a)) {engine : Engine} {b : β}
    (hresult : ((step >>= next) engine).1 = .ok b) :
    ∃ a, (step engine).1 = .ok a ∧ (next a engine).1 = .ok b := by
  rw [Action.bind_apply] at hresult
  have hquiet := h.quiet engine
  cases hstep : step engine with
  | mk result after =>
    rw [hstep] at hresult hquiet
    cases result with
    | error e => exact absurd hresult (by simp)
    | ok a => exact ⟨a, rfl, ((hnext a).stable _ _ hquiet.sameView).symm.trans hresult⟩

/-- The steps of a loop that observe might all be taken at its start. -/
theorem result_forM {step : α → Action Engine Unit} (h : ∀ a, Observes (step a)) (list : List α)
    (engine : Engine) : (list.forM step engine).1 = list.forM fun a => (step a engine).1 := by
  induction list with
  | nil => rfl
  | cons a list ih =>
    rw [List.forM_eq_forM, List.forM_cons, List.forM_eq_forM, List.forM_cons]
    refine (result_bind (h a) (fun _ => forM h) engine).trans ?_
    exact congrArg _ (funext fun _ => ih)

theorem result_mapM {step : α → Action Engine β} (h : ∀ a, Observes (step a)) (list : List α)
    (engine : Engine) : (list.mapM step engine).1 = list.mapM fun a => (step a engine).1 := by
  induction list with
  | nil => rfl
  | cons a list ih =>
    rw [List.mapM_cons, List.mapM_cons,
      result_bind (h a) fun b => bind (mapM h) fun rest => pure (b :: rest)]
    refine congrArg _ (funext fun b => ?_)
    rw [result_bind (mapM h) fun rest => pure (b :: rest), ih]
    rfl

theorem of_mapM {list : List α} {step : α → Action Engine β} (h : ∀ a, Observes (step a))
    {engine : Engine} {results : List β} (hresult : (list.mapM step engine).1 = .ok results) :
    List.Forall₂ (fun a b => (step a engine).1 = .ok b) list results := by
  induction list generalizing results with
  | nil =>
    rw [← Except.ok.inj hresult]
    exact .nil
  | cons a list ih =>
    rw [List.mapM_cons] at hresult
    obtain ⟨b, hb, hresult⟩ := of_bind (h a)
      (fun b => bind (mapM h) fun rest => pure (b :: rest)) hresult
    obtain ⟨rest, hrest, hresult⟩ := of_bind (mapM h) (fun rest => pure (b :: rest)) hresult
    rw [← Except.ok.inj hresult]
    exact .cons hb (ih hrest)

end Observes

/-! ### Schemas and stored values -/

/-- Reading a schema comes to the known one. -/
theorem schema_apply (database table : String) (engine : Engine) :
    ∃ after, schema database table engine = (engine.knownSchema database table, after) ∧
      Quiet engine after := by
  unfold schema knownSchema
  rw [Action.get_bind]
  cases hmemory : engine.schemas.get? (database, table) with
  | some found => exact ⟨engine, rfl, refl engine⟩
  | none =>
    cases hread : readSchema engine.disk database table with
    | error e =>
      refine ⟨engine, ?_, refl engine⟩
      exact Action.bind_of_error (by rw [readDisk, Action.read_apply, hread])
    | ok found =>
      have hstep : readDisk (readSchema · database table) engine = (.ok found, engine) := by
        rw [readDisk, Action.read_apply, hread]
      refine ⟨{ engine with schemas := engine.schemas.insert (database, table) found },
        Action.bind_of_ok hstep, rfl, rfl, rfl, rfl, rfl, rfl, rfl, ?_, ?_⟩
      · intro key schema hkey
        rw [Keyed.get?_insert]
        split
        · rename_i heq
          rw [eq_of_beq heq, hmemory] at hkey
          exact absurd hkey (by simp)
        · exact hkey
      · intro key schema hkey
        rw [Keyed.get?_insert] at hkey
        split at hkey
        · rename_i heq
          rw [eq_of_beq heq, ← Option.some.inj hkey]
          exact .inr hread
        · exact .inl hkey

theorem schema_result (database table : String) (engine : Engine) :
    (schema database table engine).1 = engine.knownSchema database table := by
  obtain ⟨after, h, -⟩ := schema_apply database table engine
  rw [h]

theorem observes_schema (database table : String) : Observes (schema database table) := by
  refine ⟨fun engine => ?_, fun first second hview => ?_⟩
  · obtain ⟨after, h, hquiet⟩ := schema_apply database table engine
    rw [h]
    exact hquiet
  · rw [schema_result, schema_result, hview.schema]

theorem observes_storedValues (database table column : String) :
    Observes (storedValues database table column) :=
  (observes_schema database table).bind fun _ => (Observes.ofExcept _).bind fun _ =>
    (Observes.readDisk _).bind fun _ => Observes.pure _

/-- The stored values are the fields at the position of the column, by the known schema. -/
theorem storedValues_result (database table column : String) (engine : Engine) :
    (storedValues database table column engine).1 = (do
      let schema ← engine.knownSchema database table
      let position ← schema.requireColumn column table
      let rows ← Table.rows engine.disk database table
      return rows.filterMap fun row => (Row.fields row)[position]?) := by
  unfold storedValues
  rw [Observes.result_bind (observes_schema database table), schema_result]
  · refine congrArg _ (funext fun schema => ?_)
    rw [Observes.result_bind (.ofExcept _) fun _ => (Observes.readDisk _).bind fun _ => .pure _]
    refine congrArg _ (funext fun position => ?_)
    rw [Observes.result_bind (.readDisk _) fun _ => .pure _]
    rfl
  · exact fun _ => (Observes.ofExcept _).bind fun _ => (Observes.readDisk _).bind fun _ => .pure _

theorem requireColumn_eq_ok {schema : TableSchema} {name table : String} {position : Nat} :
    schema.requireColumn name table = .ok position ↔ schema.columnIndex? name = some position := by
  rw [TableSchema.requireColumn]
  cases schema.columnIndex? name with
  | none => simp
  | some found => rw [Except.ok.injEq, Option.some.injEq]

theorem storedValues_eq_ok {database table column : String} {engine : Engine} {stored : List String}
    (h : (storedValues database table column engine).1 = .ok stored) :
    ∃ schema position rows, engine.knownSchema database table = .ok schema ∧
      schema.columnIndex? column = some position ∧
      Table.rows engine.disk database table = .ok rows ∧
      stored = rows.filterMap fun row => (Row.fields row)[position]? := by
  rw [storedValues_result] at h
  obtain ⟨schema, hschema, h⟩ := Action.of_bind_eq_ok h
  obtain ⟨position, hposition, h⟩ := Action.of_bind_eq_ok h
  obtain ⟨rows, hrows, h⟩ := Action.of_bind_eq_ok h
  exact ⟨schema, position, rows, hschema, requireColumn_eq_ok.1 hposition, hrows,
    (Except.ok.inj h).symm⟩

theorem storedValues_of_rows {database table column : String} {engine : Engine} {schema : TableSchema}
    {position : Nat} {rows : List String} (hschema : engine.knownSchema database table = .ok schema)
    (hposition : schema.columnIndex? column = some position)
    (hrows : Table.rows engine.disk database table = .ok rows) :
    (storedValues database table column engine).1
      = .ok (rows.filterMap fun row => (Row.fields row)[position]?) := by
  rw [storedValues_result, hschema]
  dsimp only [bind, Except.bind]
  rw [requireColumn_eq_ok.2 hposition]
  dsimp only
  rw [hrows]
  rfl

theorem observes_storedCheck (database : String) (check : StoredCheck) :
    Observes (check.run (storedValues database)) :=
  (observes_storedValues database _ _).bind fun _ => Observes.ofResult _

theorem observes_checkRow (schema : TableSchema) (database row : String) :
    Observes (schema.checkRow (storedValues database) row) :=
  (Observes.ofResult _).bind fun _ => Observes.forM fun check => observes_storedCheck database check

theorem storedCheck_result (database : String) (check : StoredCheck) (engine : Engine) :
    (check.run (storedValues database) engine).1
      = (storedValues database check.source.1 check.source.2 engine).1 >>= check.decide := by
  unfold StoredCheck.run
  rw [Observes.result_bind (observes_storedValues database _ _) fun _ => .ofResult _]
  exact congrArg _ (funext fun stored => congrArg Prod.fst (Action.ofResult_apply (check.decide stored) engine))

theorem storedCheck_eq_ok {database : String} {check : StoredCheck} {engine : Engine}
    (h : (check.run (storedValues database) engine).1 = .ok ()) :
    ∃ stored, (storedValues database check.source.1 check.source.2 engine).1 = .ok stored ∧
      check.decide stored = .ok () :=
  Action.of_bind_eq_ok (storedCheck_result database check engine ▸ h)

/-- A row is checked by its fields alone and then by what is stored. -/
theorem checkRow_result (schema : TableSchema) (database row : String) (engine : Engine) :
    (schema.checkRow (storedValues database) row engine).1 = (do
      schema.checkFields (Row.fields row)
      (schema.storedChecks (Row.fields row)).forM fun check =>
        (check.run (storedValues database) engine).1) := by
  unfold TableSchema.checkRow
  rw [Observes.result_bind (.ofResult _) fun _ => .forM fun check => observes_storedCheck database check,
    Action.ofResult_apply]
  exact congrArg _ (funext fun _ =>
    Observes.result_forM (fun check => observes_storedCheck database check) _ engine)

/-- A row that passes has passed each of its checks. -/
theorem checkRow_eq_ok {schema : TableSchema} {database row : String} {engine : Engine}
    (h : (schema.checkRow (storedValues database) row engine).1 = .ok ()) :
    schema.checkFields (Row.fields row) = .ok () ∧
      ∀ check ∈ schema.storedChecks (Row.fields row),
        (check.run (storedValues database) engine).1 = .ok () := by
  rw [checkRow_result] at h
  obtain ⟨⟨⟩, hfields, hstored⟩ := Action.of_bind_eq_ok h
  exact ⟨hfields, Action.forM_eq_ok hstored⟩

/-! ### Writable schemas, assignments and queries -/

theorem observes_writableSchema (who : Identity) (database table : String) :
    Observes (writableSchema who database table) :=
  (observes_schema database table).bind fun _ => (Observes.ofExcept _).bind fun _ => .pure _

theorem writableSchema_result (who : Identity) (database table : String) (engine : Engine) :
    (writableSchema who database table engine).1 = (do
      let schema ← engine.knownSchema database table
      schema.require who.role .write
      return schema) := by
  unfold writableSchema
  rw [Observes.result_bind (observes_schema database table), schema_result]
  · refine congrArg _ (funext fun schema => ?_)
    rw [Observes.result_bind (.ofExcept _) fun _ => .pure _]
    rfl
  · exact fun _ => (Observes.ofExcept _).bind fun _ => .pure _

theorem writableSchema_of_require {who : Identity} {database table : String} {engine : Engine}
    {schema : TableSchema} (hknown : engine.knownSchema database table = .ok schema)
    (hrole : schema.require who.role .write = .ok ()) :
    (writableSchema who database table engine).1 = .ok schema := by
  rw [writableSchema_result, hknown]
  change (do
    schema.require who.role .write
    return schema) = _
  rw [hrole]
  rfl

theorem writableSchema_eq_ok {who : Identity} {database table : String} {engine : Engine}
    {schema : TableSchema} (h : (writableSchema who database table engine).1 = .ok schema) :
    engine.knownSchema database table = .ok schema := by
  rw [writableSchema_result] at h
  obtain ⟨found, hfound, h⟩ := Action.of_bind_eq_ok h
  obtain ⟨⟨⟩, -, h⟩ := Action.of_bind_eq_ok h
  obtain rfl := Except.ok.inj h
  exact hfound

/-- What is left of an assignment once its column is found. -/
private theorem observes_checkReference (database : String) (position : Nat) (column : Column)
    (value : String) :
    Observes (match column.referenceCheck? value with
      | some check => do
        check.run (storedValues database)
        return ({ position, column, value } : Assignment)
      | none => return { position, column, value }) := by
  cases column.referenceCheck? value with
  | none => exact .pure _
  | some check => exact (observes_storedCheck database check).bind fun _ => .pure _

private theorem observes_checkColumn (schema : TableSchema) (database table name value : String)
    (position : Nat) :
    Observes (match schema.columns[position]? with
      | none => throw (.unknownColumn name table)
      | some column => do
        Action.ofExcept (column.checkField value)
        match column.referenceCheck? value with
        | some check => do
          check.run (storedValues database)
          return ({ position, column, value } : Assignment)
        | none => return { position, column, value }) := by
  cases schema.columns[position]? with
  | none => exact .throw _
  | some column =>
    exact (Observes.ofExcept _).bind fun _ =>
      observes_checkReference database position column value

theorem observes_checkAssignment (schema : TableSchema) (database table : String)
    (assigned : String × String) : Observes (checkAssignment schema database table assigned) :=
  (Observes.ofExcept _).bind fun position =>
    observes_checkColumn schema database table assigned.1 assigned.2 position

/-- What passed as an assignment names a column of the schema and fits it. -/
theorem checkAssignment_eq_ok {schema : TableSchema} {database table : String}
    {assigned : String × String} {engine : Engine} {a : Assignment}
    (h : (checkAssignment schema database table assigned engine).1 = .ok a) :
    schema.columnIndex? assigned.1 = some a.position ∧
      schema.columns[a.position]? = some a.column ∧ a.value = assigned.2 ∧
      a.column.checkField a.value = .ok () := by
  obtain ⟨position, hposition, h⟩ := Observes.of_bind (Observes.ofExcept _)
    (observes_checkColumn schema database table assigned.1 assigned.2) h
  have hindex := requireColumn_eq_ok.1 hposition
  cases hcolumn : schema.columns[position]? with
  | none =>
    rw [hcolumn] at h
    exact absurd h (by simp)
  | some column =>
    rw [hcolumn] at h
    obtain ⟨⟨⟩, hfield, h⟩ := Observes.of_bind (Observes.ofExcept _)
      (fun _ => observes_checkReference database position column assigned.2) h
    have ha : a = { position, column, value := assigned.2 } := by
      cases hreference : column.referenceCheck? assigned.2 with
      | none =>
        rw [hreference] at h
        exact (Except.ok.inj h).symm
      | some check =>
        rw [hreference] at h
        obtain ⟨⟨⟩, -, h⟩ := Observes.of_bind (observes_storedCheck database check)
          (fun _ => .pure _) h
        exact (Except.ok.inj h).symm
    rw [ha]
    exact ⟨hindex, hcolumn, rfl, hfield⟩

/-! ### Queries -/

theorem observes_tableSource (who : Identity) (database name : String)
    (condition : Option Condition) : Observes (tableSource who database name condition) :=
  (observes_schema database name).bind fun _ => (Observes.ofExcept _).bind fun _ =>
    (Observes.readDisk _).bind fun _ => (Observes.look _).bind fun _ => .pure _

section Executing

variable {executing : Executing}

theorem observes_viewSource (h : ∀ who query, Observes (executing who (.select query)))
    (who : Identity) (database name : String) :
    Observes (viewSource executing who database name) := by
  refine (Observes.ofExcept _).bind fun _ => (Observes.readDisk _).bind fun _ =>
    (Observes.ofExcept _).bind fun command => ?_
  split
  · exact (h who _).bind fun _ => .pure _
  · exact .throw _

theorem observes_source (h : ∀ who query, Observes (executing who (.select query)))
    (who : Identity) (database name : String) (condition : Option Condition) :
    Observes (source executing who database name condition) := by
  refine (Observes.look _).bind fun isTable => .ite (observes_tableSource who database name _) ?_
  refine (Observes.look _).bind fun isView => .ite (observes_viewSource h who database name) ?_
  exact .throw _

theorem observes_joinSources (h : ∀ who query, Observes (executing who (.select query)))
    (who : Identity) (database : String) (relation : Relation) (joins : List Join) :
    Observes (joinSources executing who database relation joins) := by
  induction joins generalizing relation with
  | nil => exact .pure _
  | cons join rest ih =>
    exact (observes_source h who database join.table none).bind fun right =>
      (Observes.ofExcept _).bind fun relation => ih relation

theorem observes_select (h : ∀ who query, Observes (executing who (.select query)))
    (who : Identity) (database : String) (query : Query) :
    Observes (select executing who database query) :=
  (observes_source h who database query.table _).bind fun _ =>
    (observes_joinSources h who database _ _).bind fun _ => .ofExcept _

/-- What only asks needs a selected database, and fires no triggers. -/
theorem perform_of_asking {who : Identity} {command : Command} {step : String → Action Engine Outcome}
    (hauthorize : ∀ role, authorize who command role = who.requireDatabase >>= fun _ => .ok ())
    (heffect : effect executing who command = (do
      Action.read fun engine => authorize who command engine.role
      let database ← Action.ofExcept who.requireDatabase
      Effect.ofOutcome <$> step database)) (budget : Nat) :
    perform executing budget who command = Action.ofExcept who.requireDatabase >>= step := by
  funext engine
  unfold perform
  rw [heffect, bind_assoc, Action.read_bind, Action.ofExcept_bind, hauthorize]
  cases hdatabase : who.requireDatabase with
  | error failure => rfl
  | ok database =>
    change ((Effect.ofOutcome <$> step database) >>= fun effect => do
      effect.firing.forM (fireTriggers executing budget who)
      return effect.outcome) engine = step database engine
    rw [Action.bind_apply, Action.map_apply]
    cases step database engine with
    | mk result after => cases result <;> rfl

theorem perform_select (executing : Executing) (budget : Nat) (who : Identity) (query : Query) :
    perform executing budget who (.select query)
      = Action.ofExcept who.requireDatabase >>= fun database =>
          select executing who database query :=
  perform_of_asking (fun _ => rfl) rfl budget

theorem perform_search (executing : Executing) (budget : Nat) (who : Identity)
    (table column word : String) :
    perform executing budget who (.search table column word)
      = Action.ofExcept who.requireDatabase >>= fun database =>
          search who database table column word :=
  perform_of_asking (fun _ => rfl) rfl budget

theorem observes_executeWithin (budget : Nat) (who : Identity) (query : Query) :
    Observes (executeWithin budget who (.select query)) := by
  induction budget generalizing who query with
  | zero =>
    refine ⟨.read _, fun first second hview => ?_⟩
    rw [executeWithin, Action.read_apply, Action.read_apply, hview.settings]
  | succ budget ih =>
    rw [executeWithin, perform_select]
    exact (Observes.ofExcept _).bind fun database => observes_select ih who database query

end Executing

theorem observes_search (who : Identity) (database table column word : String) :
    Observes (search who database table column word) :=
  (observes_schema database table).bind fun _ => (Observes.ofExcept _).bind fun _ =>
    (Observes.ofExcept _).bind fun _ => (Observes.readDisk _).bind fun _ =>
      (Observes.readDisk _).bind fun _ => .pure _

end Engine

end FlatFileDb
