import FlatFileDb.Proofs.Buffer

/-!
# What an update writes at the commit

In a transaction an update keeps the whole row that it makes of every row it finds, with the
identifier of the row found. The commit writes that row over the first row of the identifier. What
stands there by then may be another row, or the same one after other changes: the columns that the
update does not assign get the values that it found, whatever was written since.
-/

namespace FlatFileDb

/-- An update in a transaction made an entry of a row that it found. -/
structure Execution.Images (y : Execution) (schema : TableSchema) (assignments : List Assignment)
    (found : String) (entry : Log.Entry) : Prop where
  active : y.before.inTransaction y.who.user = true
  database : y.who.requireDatabase = .ok entry.database
  known : y.before.knownSchema entry.database entry.table = .ok schema
  update : ∃ assigned conditions, y.command = .update entry.table assigned conditions ∧
    Engine.PassesAs schema assigned.entries assignments ∧
    schema.matchesRow conditions found = true
  mem : ∃ rows, Table.rows y.before.disk entry.database entry.table = .ok rows ∧ found ∈ rows
  rowId : entry.rowId = Row.id found
  row : entry.row = schema.assign assignments found

theorem Engine.Buffers.images {y : Execution} {entry : Log.Entry}
    (h : Engine.Buffers y.who y.command y.before entry) (hupdate : entry.operation = .update) :
    ∃ schema assignments found, y.Images schema assignments found entry := by
  obtain ⟨who, command, before⟩ := y
  cases h with
  | insert | delete => exact absurd hupdate (by simp [pendingEntry])
  | @update _ database table assigned conditions schema assignments rows transaction found
      hdatabase hactive hschema hassigned hrows hfound hmatches =>
    refine ⟨schema, assignments, found, ?_, hdatabase, hschema,
      ⟨assigned, conditions, rfl, hassigned, hmatches⟩, ⟨rows, hrows, hfound⟩, rfl, rfl⟩
    rw [Engine.inTransaction, Keyed.contains, hactive]
    rfl

theorem Execution.Images.isClean {y : Execution} {schema : TableSchema}
    {assignments : List Assignment} {found : String} {entry : Log.Entry}
    (h : y.Images schema assignments found entry) : ∀ a ∈ assignments, a.IsClean := by
  obtain ⟨_, _, -, hassigned, -⟩ := h.update
  exact hassigned.isClean

/-- An update that a commit applies writes the row that an earlier update of the user made of a row
it found, over the first row of the same identifier. There the assigned columns get the assigned
values. Every other column gets the value that was found, and so keeps the one that stood there just
if that is the one found. -/
theorem Run.update_applied (run : Run) {x : Execution} (hx : x ∈ run.executions) {a : Application}
    (ha : a ∈ x.applications) (hupdate : a.entry.operation = .update) :
    ∃ earlier later, run.executions = earlier ++ x :: later ∧
      ∃ y ∈ earlier, y.who.user = x.who.user ∧
        ∃ schema assignments found, y.Images schema assignments found a.entry ∧
          ∃ front stored rest after,
            Table.rows a.disk a.entry.database a.entry.table = .ok (front ++ stored :: rest) ∧
            Row.id stored = Row.id found ∧ (∀ row ∈ front, Row.id row ≠ Row.id found) ∧
            a.entry.perform a.disk = (.ok (), after) ∧
            Table.rows after a.entry.database a.entry.table
              = .ok ((front ++ a.entry.row :: rest).filter Text.isFilled) ∧
            ∀ position < schema.columns.length,
              (∀ value, Assignment.valueAt? assignments position = some value →
                Row.valueAt a.entry.row position = value) ∧
              (Assignment.valueAt? assignments position = none →
                Row.valueAt a.entry.row position = Row.valueAt found position ∧
                (Row.valueAt a.entry.row position = Row.valueAt stored position ↔
                  Row.valueAt stored position = Row.valueAt found position)) := by
  obtain ⟨earlier, later, hexecutions, ⟨y, hy, huser, entry, number, hbuffers, hentry⟩, hdisk,
    hsound, after, hperform⟩ := run.application hx ha
  refine ⟨earlier, later, hexecutions, y, hy, huser, ?_⟩
  have hsame : entry.operation = .update := by rw [← hupdate, hentry]
  obtain ⟨schema, assignments, found, himages⟩ := hbuffers.images hsame
  have himages' : y.Images schema assignments found a.entry := by
    rw [hentry]
    exact ⟨himages.active, himages.database, himages.known, himages.update, himages.mem,
      himages.rowId, himages.row⟩
  obtain ⟨home, text, text', rows, -, -, hrows, hchange, -, hafter, -⟩ :=
    Log.Entry.perform_eq_ok hdisk hsound hperform
  rw [Log.Entry.change?, hupdate] at hchange
  obtain ⟨front, stored, rest, hbefore, hstored, hfront, rfl⟩ := Table.changeFirst?_eq_some hchange
  rw [hbefore] at hrows
  rw [himages'.rowId] at hstored hfront
  rw [List.append_assoc, List.singleton_append] at hafter
  refine ⟨schema, assignments, found, himages', front, stored, rest, after, hrows, hstored, hfront,
    hperform, hafter, fun position hposition => ?_⟩
  have hvalue := TableSchema.valueAt_assign himages.isClean found hposition
  rw [← himages'.row] at hvalue
  constructor
  · intro value hassigned
    rw [hvalue, hassigned, Option.getD_some]
  · intro hnone
    rw [hnone, Option.getD_none] at hvalue
    rw [hvalue]
    exact ⟨rfl, eq_comm⟩

/-- Two updates of one row in one transaction, each of a column of its own. -/
def Run.twoUpdates : Run :=
  .script "asep" "kantor" [
    "CREATE TABLE t id:INT:PK, a:STRING, b:STRING",
    "INSERT t 1|x|y",
    "BEGIN",
    "UPDATE t SET a=new WHERE id = 1",
    "UPDATE t SET b=new WHERE id = 1",
    "COMMIT"]

namespace Run

/-- The schema of the table that the two updates change. -/
def twoUpdatesSchema : TableSchema where
  database := "kantor"
  name := "t"
  columns := [(Column.plain "id" .int).constrain .primaryKey, .plain "a" .string, .plain "b" .string]
  permissions := .standard

/-- What is executed last is the commit; the second of its changes is what the second update found
and made, and finds what the first update made. -/
theorem executions_twoUpdates :
    ∃ hx : 5 < twoUpdates.executions.length,
      ∃ ha : 1 < (twoUpdates.executions[5]).applications.length,
        let x := twoUpdates.executions[5]
        let y := twoUpdates.executions[4]
        let a := x.applications[1]
        a.entry.operation = .update ∧ y.who.user = x.who.user ∧
          y.before.inTransaction y.who.user = true ∧
          y.who.requireDatabase = .ok a.entry.database ∧
          y.before.knownSchema a.entry.database a.entry.table = .ok twoUpdatesSchema ∧
          y.command = .update a.entry.table (Keyed.empty.insert "b" "new")
            [⟨"id", .equal, "1", none⟩] ∧
          Table.rows y.before.disk a.entry.database a.entry.table = .ok ["1|x|y"] ∧
          a.entry.rowId = Row.id "1|x|y" ∧ a.entry.row = "1|x|new" ∧
          Table.rows a.disk a.entry.database a.entry.table = .ok ["1|new|y"] := by
  decide +kernel

theorem update_applied_twoUpdates :
    ∃ x ∈ twoUpdates.executions, ∃ a ∈ x.applications, a.entry.operation = .update ∧
      ∃ y ∈ twoUpdates.executions, y.who.user = x.who.user ∧
        ∃ schema assignments found, y.Images schema assignments found a.entry := by
  obtain ⟨hx, ha, hupdate, -⟩ := executions_twoUpdates
  obtain ⟨earlier, later, hexecutions, y, hy, huser, schema, assignments, found, himages, -⟩ :=
    twoUpdates.update_applied (List.getElem_mem hx) (List.getElem_mem ha) hupdate
  refine ⟨_, List.getElem_mem hx, _, List.getElem_mem ha, hupdate, y, ?_, huser, schema,
    assignments, found, himages⟩
  rw [hexecutions]
  exact List.mem_append_left _ hy

/-- Whatever an update of a transaction does not assign stays as it is when the update is applied. -/
def KeepsOthers (run : Run) : Prop :=
  ∀ x ∈ run.executions, ∀ a ∈ x.applications, ∀ y ∈ run.executions, y.who.user = x.who.user →
    ∀ schema assignments found, y.Images schema assignments found a.entry →
      ∀ front stored rest,
        Table.rows a.disk a.entry.database a.entry.table = .ok (front ++ stored :: rest) →
        Row.id stored = a.entry.rowId → (∀ row ∈ front, Row.id row ≠ a.entry.rowId) →
        ∀ position < schema.columns.length, Assignment.valueAt? assignments position = none →
          Row.valueAt a.entry.row position = Row.valueAt stored position

/-- The second update takes back the first one. -/
theorem not_keepsOthers : ¬twoUpdates.KeepsOthers := by
  intro h
  obtain ⟨hx, ha, -, huser, hactive, hdatabase, hknown, hcommand, hrows, hrowId, hrow, hstored⟩ :=
    executions_twoUpdates
  have himages : Execution.Images _ twoUpdatesSchema [⟨2, .plain "b" .string, "new"⟩] "1|x|y" _ :=
    { active := hactive
      database := hdatabase
      known := hknown
      update := ⟨_, _, hcommand, .cons (by decide) .nil, by decide⟩
      mem := ⟨_, hrows, by simp⟩
      rowId := hrowId
      row := hrow.trans (by decide) }
  have hsame := h _ (List.getElem_mem hx) _ (List.getElem_mem ha) _ (List.getElem_mem _) huser _ _ _
    himages [] "1|new|y" [] hstored (by rw [hrowId]; decide) (by simp) 1 (by decide) (by decide)
  rw [hrow] at hsame
  exact absurd hsame (by decide)

end Run

end FlatFileDb
