import FlatFileDb.Proofs.Posting
import FlatFileDb.Proofs.Unique

/-!
# Queries with and without an index

A query with a single equality reads only the rows that an exact index lists under its literal. Where
every row is listed under its value that changes nothing: a column that has such an index for queries
compares as text, so a row fulfils the equality only if its field is the literal itself. An index that
misses a row is another matter, and nothing else keeps a query from missing the row as well.
-/

namespace FlatFileDb

/-! ### Equalities of texts -/

namespace Relation

variable {schema : TableSchema} {rows : List String}

/-- A column without a point in its name is what stands behind the last point of its qualified name. -/
theorem eq_of_endsIn {source column field : String} (hcolumn : '.' ∉ column.toList)
    (hfield : '.' ∉ field.toList) (h : endsIn field (qualify source column) = true) :
    field = column := by
  obtain ⟨front, hfront⟩ := List.isSuffixOf_iff_suffix.1 h
  have hpoints : field.toList.reverse ++ '.' :: front.reverse
      = column.toList.reverse ++ '.' :: source.toList.reverse := by
    simpa [qualify] using congrArg List.reverse hfront
  have hsame := (Text.eq_of_point (by simpa using hfield) (by simpa using hcolumn) hpoints).1
  exact String.toList_inj.1 (List.reverse_inj.1 hsame)

theorem findIdx?_name (schema : TableSchema) (rows : List String) (name : String) :
    ((ofTable schema rows).attributes.findIdx? fun a => a.name == name) = schema.columnIndex? name := by
  rw [ofTable, List.findIdx?_map, TableSchema.columnIndex?]
  rfl

theorem findIdx?_qualified (schema : TableSchema) (rows : List String) (name : String) :
    ((ofTable schema rows).attributes.findIdx? fun a => a.qualified == qualify schema.name name)
      = schema.columnIndex? name := by
  rw [ofTable, List.findIdx?_map, TableSchema.columnIndex?]
  congr 1
  funext column
  simp [Function.comp, qualify]

/-- A name without the table in front is no qualified name. -/
theorem findIdx?_qualified_bare {field : String}
    (h : Text.afterStart? (schema.name ++ ".").toList field.toList = none) :
    ((ofTable schema rows).attributes.findIdx? fun a => a.qualified == field) = none := by
  rw [List.findIdx?_eq_none_iff]
  intro a ha
  obtain ⟨column, -, rfl⟩ := List.mem_map.1 ha
  rw [beq_eq_false_iff_ne]
  rintro rfl
  rw [Option.eq_none_iff_forall_ne_some] at h
  exact h column.name.toList (Text.afterStart?_eq_some.2 (by simp [qualify]))

/-- Qualified names end in the names of columns only. -/
theorem findIdx?_endsIn (hvalid : ∀ column ∈ schema.columns, Name.isValid column.name = true)
    {field : String} (hfield : '.' ∉ field.toList) (hcolumn : schema.columnIndex? field = none) :
    ((ofTable schema rows).attributes.findIdx? fun a => endsIn field a.qualified) = none := by
  rw [TableSchema.columnIndex?, List.findIdx?_eq_none_iff] at hcolumn
  rw [List.findIdx?_eq_none_iff]
  intro a ha
  obtain ⟨column, hmem, rfl⟩ := List.mem_map.1 ha
  rw [← Bool.not_eq_true]
  intro hend
  obtain rfl := eq_of_endsIn (Name.not_mem (hvalid column hmem) (by decide)) hfield hend
  exact absurd (hcolumn column hmem) (by simp)

/-- A name means to a query the column of a table that it means to indexes, updates and deletions. -/
theorem resolve?_ofTable (hvalid : ∀ column ∈ schema.columns, Name.isValid column.name = true)
    (field : String) :
    (ofTable schema rows).resolve? field = schema.columnIndex? (schema.conditionColumn field) := by
  unfold resolve? TableSchema.conditionColumn
  rw [findIdx?_name]
  cases hstart : Text.afterStart? (schema.name ++ ".").toList field.toList with
  | some rest =>
    -- The table stands in front, so only a qualified name can be meant.
    have hfield : field = qualify schema.name (String.ofList rest) := by
      apply String.toList_inj.1
      rw [Text.afterStart?_eq_some.1 hstart, qualify, String.toList_append, String.toList_append]
      simp
    have hpoint : '.' ∈ field.toList := by simp [hfield, qualify]
    have hnone : schema.columnIndex? field = none := by
      rw [TableSchema.columnIndex?, List.findIdx?_eq_none_iff]
      intro column hmem
      rw [beq_eq_false_iff_ne]
      rintro rfl
      exact Name.not_mem (hvalid column hmem) (by decide) hpoint
    rw [hnone, if_pos (List.contains_iff_mem.2 hpoint), hfield, findIdx?_qualified]
    cases schema.columnIndex? (String.ofList rest) <;> rfl
  | none =>
    dsimp only
    cases hcolumn : schema.columnIndex? field with
    | some position => rfl
    | none =>
      rw [findIdx?_qualified_bare hstart]
      by_cases hfield : field.toList.contains '.' = true
      · rw [if_pos hfield]
        rfl
      · rw [if_neg hfield, findIdx?_endsIn hvalid (by simpa using hfield) hcolumn]
        rfl

/-- What a query asks of a row of a table by one condition. -/
theorem fulfils_ofTable (hvalid : ∀ column ∈ schema.columns, Name.isValid column.name = true)
    {condition : Condition} {position : Nat} {column : Column}
    (hcolumn : schema.columnIndex? (schema.conditionColumn condition.field) = some position)
    (hthere : schema.columns[position]? = some column) (fields : List String) :
    (ofTable schema rows).fulfils (Row.resize schema.columns.length fields) condition
      = Condition.compareTyped column.type (fields[position]?.getD "") condition.operator
          condition.value := by
  have hattribute : (ofTable schema rows).attributes[position]?
      = some ⟨column.name, qualify schema.name column.name, column.type⟩ := by
    simp [ofTable, hthere]
  have hposition : position < schema.columns.length := (List.getElem?_eq_some_iff.1 hthere).1
  have hfield : fieldAt (Row.resize schema.columns.length fields) position
      = fields[position]?.getD "" := by
    rw [fieldAt, Row.getElem?_resize, if_pos hposition, Option.getD_some]
  rw [fulfils, resolve?_ofTable hvalid, hcolumn]
  dsimp only
  rw [hattribute]
  dsimp only
  rw [hfield]

/-- Conditions choose among the rows of a table. -/
theorem select_ofTable (schema : TableSchema) (rows : List String) (conditions : List Condition) :
    (ofTable schema rows).select conditions
      = ofTable schema (rows.filter fun row => Id.run (Condition.evaluate (fun condition =>
          pure ((ofTable schema rows).fulfils (Row.resize schema.columns.length (Row.fields row))
            condition)) conditions)) := by
  have hrows : ((ofTable schema rows).select conditions).rows
      = (rows.filter fun row => Id.run (Condition.evaluate (fun condition =>
          pure ((ofTable schema rows).fulfils (Row.resize schema.columns.length (Row.fields row))
            condition)) conditions)).map fun row =>
              Row.resize schema.columns.length (Row.fields row) := List.filter_map
  exact congrArg (fun kept => { ofTable schema rows with rows := kept }) hrows

end Relation

/-! ### Narrowed rows -/

namespace Engine

variable {disk : Disk} {database : String} {schema : TableSchema} {condition : Condition}
  {rows ids : List String}

variable {e : Engine} {who : Identity} {query : Query}

theorem tableSource_result (who : Identity) (database name : String) (condition : Option Condition)
    (e : Engine) :
    (tableSource who database name condition e).1 = do
      let schema ← e.knownSchema database name
      schema.require who.role .read
      let rows ← Table.rows e.disk database name
      return Relation.ofTable schema (narrow e.disk database schema condition rows) := by
  unfold tableSource
  rw [Observes.result_bind (observes_schema database name), schema_result]
  · refine congrArg _ (funext fun schema => ?_)
    rw [Observes.result_bind (.ofExcept _)]
    · refine congrArg _ (funext fun _ => ?_)
      rw [Observes.result_bind (.readDisk _)]
      · rfl
      · exact fun _ => (Observes.look _).bind fun _ => .pure _
    · exact fun _ => (Observes.readDisk _).bind fun _ => (Observes.look _).bind fun _ => .pure _
  · exact fun _ => (Observes.ofExcept _).bind fun _ => (Observes.readDisk _).bind fun _ =>
      (Observes.look _).bind fun _ => .pure _

theorem source_result {executing : Executing} {condition : Option Condition}
    (h : hasSchema e.disk database query.table = true) :
    source executing who database query.table condition e
      = tableSource who database query.table condition e := by
  unfold source
  rw [look_bind, h, if_pos rfl]

/-- A query without joins answers by its one source. -/
theorem select_result {executing : Executing}
    (hexecuting : ∀ who query, Observes (executing who (.select query))) (hjoins : query.joins = [])
    (condition : Option Condition) :
    ((source executing who database query.table condition >>= fun first =>
        joinSources executing who database first query.joins >>= fun relation =>
          Action.ofExcept (relation.answer query)) e).1
      = (source executing who database query.table condition e).1 >>= fun first =>
          first.answer query := by
  rw [hjoins, Observes.result_bind (observes_source hexecuting who database query.table condition)]
  · rfl
  · exact fun _ => (Observes.pure _).bind fun _ => .ofExcept _

end Engine

namespace Run

end Run

end FlatFileDb
