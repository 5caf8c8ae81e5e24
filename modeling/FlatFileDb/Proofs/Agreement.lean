import FlatFileDb.Proofs.Defining
import FlatFileDb.Proofs.Direct
import FlatFileDb.Proofs.Joining

/-!
# Rows that queries show and rows that changes match

A query looks for the name in a condition among the headers of a relation, as it stands, qualified, or as
the end of a qualified name, and reads rows that are cut or filled up. An update or a deletion takes the
name of the table away from it, looks it up in the schema and reads rows as they stand. For a table both
come to the same, since a name of a column has no point in it and stored rows are as wide as the table. So
a deletion removes the rows that a query with its conditions shows.
-/

namespace FlatFileDb

theorem Query.showsAll_where (table : String) (conditions : List Condition) :
    ShowsAll { all table with conditions } :=
  ⟨rfl, rfl, rfl, rfl, by simp [all], by simp [all]⟩

namespace Relation

variable {schema : TableSchema} {rows : List String}

/-- A row of a table fulfils a condition of a query if it fulfils it in an update or a deletion. -/
theorem fulfils_row (hvalid : ∀ column ∈ schema.columns, Name.isValid column.name = true) {row : String}
    (hwidth : (Row.fields row).length = schema.columns.length) (condition : Condition) :
    (ofTable schema rows).fulfils (Row.resize schema.columns.length (Row.fields row)) condition
      = schema.fulfils (Row.fields row) condition := by
  unfold TableSchema.fulfils
  cases hcolumn : schema.columnIndex? (schema.conditionColumn condition.field) with
  | none => rw [fulfils, resolve?_ofTable hvalid, hcolumn]
  | some position =>
    obtain ⟨hbound, -⟩ := List.findIdx?_eq_some_iff_getElem.1 hcolumn
    rw [fulfils_ofTable hvalid hcolumn (List.getElem?_eq_getElem hbound)]
    dsimp only
    rw [List.getElem?_eq_getElem (by rwa [hwidth]), List.getElem?_eq_getElem hbound]
    rfl

/-- The rows of a table that a query selects are those that an update or a deletion matches. -/
theorem select_eq_matching (hvalid : ∀ column ∈ schema.columns, Name.isValid column.name = true)
    (hwidth : ∀ row ∈ rows, (Row.fields row).length = schema.columns.length)
    (conditions : List Condition) :
    (ofTable schema rows).select conditions
      = ofTable schema (rows.filter (schema.matchesRow conditions)) := by
  rw [select_ofTable]
  refine congrArg (ofTable schema) (List.filter_congr fun row hrow => ?_)
  have htests : (fun condition => pure ((ofTable schema rows).fulfils
        (Row.resize schema.columns.length (Row.fields row)) condition) : Condition → Id Bool)
      = fun condition => pure (schema.fulfils (Row.fields row) condition) :=
    funext fun condition => congrArg pure (fulfils_row hvalid (hwidth row hrow) condition)
  rw [htests]
  rfl

end Relation

namespace Engine

variable {who : Identity} {database table : String} {schema : TableSchema} {rows : List String}
  {e : Engine}

/-- Without exact indexes no rows are left out. -/
theorem narrow_of_unindexed {disk : Disk}
    (h : ∀ name ∈ schema.fieldNames, Index.isPresent disk database schema.name name .exact = false)
    (condition : Option Condition) (rows : List String) :
    narrow disk database schema condition rows = rows := by
  have hnone : condition.bind (candidates? disk database schema) = none := by
    rw [Option.bind_eq_none_iff]
    intro clause _
    unfold candidates?
    refine Option.bind_eq_none_iff.2 fun column hcolumn => ?_
    have hname : column.name = schema.conditionColumn clause.field := by
      simpa using List.find?_some hcolumn
    have hmem := List.mem_map_of_mem (f := Column.name) (List.mem_of_find?_eq_some hcolumn)
    rw [h _ (hname ▸ hmem), if_neg Bool.false_ne_true, ite_self]
  rw [narrow, hnone]

/-- A query of one table answers by the rows that narrowing leaves. -/
theorem IsSound.executeAs_select_table (h : e.IsSound) (hdatabase : who.requireDatabase = .ok database)
    {query : Query} (htable : Name.isValid query.table = true)
    (hschema : Engine.readSchema e.disk database query.table = .ok schema)
    (hrole : who.role ∈ schema.permissions.read)
    (hrows : Table.rows e.disk database query.table = .ok rows) (hjoins : query.joins = []) :
    (executeAs who (.select query) e).1
      = (Relation.ofTable schema (narrow e.disk database schema (narrowing? query) rows)).answer
          query := by
  change (executeWithin (e.settings.nestingLimit + 1) who (.select query) e).1 = _
  rw [executeWithin, perform_select, hdatabase, Action.ofExcept_bind]
  dsimp only
  unfold select
  rw [select_result (observes_executeWithin _) hjoins, source_of_rows h htable hschema hrole hrows]
  rfl

/-- A query for everything in a table shows the fields of the rows that an update or a deletion with the
same conditions matches. -/
theorem IsSound.executeAs_selectAll (h : e.IsSound) (hdatabase : who.requireDatabase = .ok database)
    (htable : Name.isValid table = true)
    (hschema : Engine.readSchema e.disk database table = .ok schema)
    (hrole : who.role ∈ schema.permissions.read)
    (hrows : Table.rows e.disk database table = .ok rows) (htaken : AllTaken schema rows)
    (hunindexed : ∀ name ∈ schema.fieldNames, Index.isPresent e.disk database table name .exact = false)
    (conditions : List Condition) :
    (executeAs who (.select { Query.all table with conditions }) e).1
      = .ok (.ofRows schema.fieldNames
          ((rows.filter (schema.matchesRow conditions)).map Row.fields)) := by
  obtain ⟨-, hsound, hname⟩ := h.knownSchema htable (h.knownSchema_of_readSchema htable hschema)
  have hwidth : ∀ row ∈ rows, (Row.fields row).length = schema.columns.length := fun row hrow =>
    (htaken row hrow).width
  have hselect := @IsSound.executeAs_select_table who database schema rows e h hdatabase
    { Query.all table with conditions } htable hschema hrole hrows rfl
  rw [hselect, narrow_of_unindexed (hname ▸ hunindexed),
    Relation.answer_of_showsAll (Query.showsAll_where table conditions),
    Relation.select_eq_matching hsound.valid hwidth]
  exact Relation.answer_ofTable hsound (fun row hrow => hwidth row (List.mem_filter.1 hrow).1) table

end Engine

namespace Run

variable (run : Run) {who : Identity} {database table : String} {schema : TableSchema}
  {rows : List String}

/-- In every run without triggers, a deletion that is made at once removes exactly the rows of a table
that a query with the same conditions shows, in their order, and an update matches as many. -/
theorem agree_on_conditions (hdatabase : who.requireDatabase = .ok database)
    (htable : Name.isValid table = true)
    (hschema : Engine.readSchema run.last.disk database table = .ok schema)
    (hrows : Table.rows run.last.disk database table = .ok rows)
    (hunindexed : ∀ name ∈ schema.fieldNames,
      Index.isPresent run.last.disk database table name .exact = false)
    (huntriggered : run.last.disk.IsUntriggered) (hfree : run.last.inTransaction who.user = false)
    (conditions : List Condition) :
    let matched := rows.filter (schema.matchesRow conditions)
    (Engine.executeAs who (.select { Query.all table with conditions }) run.last).1
        = .ok (.ofRows schema.fieldNames (matched.map Row.fields)) ∧
      (∀ outcome e', Engine.executeAs who (.delete table conditions) run.last = (.ok outcome, e') →
        outcome = .ofMessage s!"{Engine.countText matched.length} row(s) deleted from '{table}'" ∧
          Table.rows e'.disk database table
            = .ok (rows.filter fun row => !schema.matchesRow conditions row)) ∧
      (who.role ∈ schema.permissions.write → run.last.role = .master →
        ∃ outcome e', Engine.executeAs who (.delete table conditions) run.last = (.ok outcome, e')) ∧
      ∀ assigned outcome e',
        Engine.executeAs who (.update table assigned conditions) run.last = (.ok outcome, e') →
          outcome = .ofMessage s!"{Engine.countText matched.length} row(s) updated in '{table}'" := by
  intro matched
  have hsound := run.isSound_last
  have hknown := hsound.knownSchema_of_readSchema htable hschema
  have hread : who.role ∈ schema.permissions.read := by
    rw [run.permissions_of_readSchema htable hschema]
    exact Permissions.mem_standard who.role
  refine ⟨hsound.executeAs_selectAll hdatabase htable hschema hread hrows
    (run.holds_allTaken.rows htable hschema hrows) hunindexed conditions, ?_, ?_, ?_⟩
  · intro outcome e' hdelete
    obtain ⟨found, hfound, houtcome, hreplaces⟩ :=
      hsound.executeAs_delete hdatabase huntriggered hfree hrows hdelete
    obtain rfl := Except.ok.inj (hfound.symm.trans hknown)
    refine ⟨houtcome, hreplaces.rows.trans (congrArg Except.ok ?_)⟩
    exact List.filter_eq_self.2 fun row hrow =>
      (hsound.disk.row hrows row (List.mem_filter.1 hrow).1).2
  · exact hsound.exists_executeAs_delete hdatabase huntriggered hfree hknown hrows
  · intro assigned outcome e' hupdate
    obtain ⟨found, assignments, before, after, changed, hfound, -, hchange, houtcome, hreplaces⟩ :=
      hsound.executeAs_update hdatabase huntriggered hfree hupdate
    obtain rfl := Except.ok.inj (hfound.symm.trans hknown)
    obtain rfl := Except.ok.inj (hreplaces.before.symm.trans hrows)
    rw [houtcome, (TableSchema.update_eq_ok hchange).2.1, List.length_map]

/-- Pupils after the first one in some form, or with two letters in their names. -/
def formConditions : List Condition :=
  [⟨"siswa.id", .greater, "1", some .and⟩, ⟨"kelas", .notEqual, "x", some .or⟩,
    ⟨"nama", .contains, "AN", none⟩]

/-- There is no column of forms, so one row is left. -/
theorem agree_on_conditions_threePupils :
    (Engine.executeAs author (.select { Query.all "siswa" with conditions := formConditions })
        threePupils.last).1 = .ok (.ofRows ["id", "nama"] [["1", "ani"]]) ∧
      ∃ outcome e', Engine.executeAs author (.delete "siswa" formConditions) threePupils.last
          = (.ok outcome, e') ∧
        outcome = .ofMessage "1 row(s) deleted from 'siswa'" ∧
        Table.rows e'.disk "kantor" "siswa" = .ok ["2|budi", "3|citra"] := by
  have hrun : threePupils.last.knownSchema "kantor" "siswa" = .ok pupilSchema ∧
      Table.rows threePupils.last.disk "kantor" "siswa" = .ok ["1|ani", "2|budi", "3|citra"] ∧
      (∀ name ∈ pupilSchema.fieldNames,
        Index.isPresent threePupils.last.disk "kantor" "siswa" name .exact = false) ∧
      (∀ entry ∈ threePupils.last.disk.entries.entries, "triggers" ∉ entry.1.2) ∧
      threePupils.last.inTransaction "asep" = false ∧ threePupils.last.role = .master := by
    decide +kernel
  obtain ⟨hknown, hrows, hunindexed, hentries, hfree, hmaster⟩ := hrun
  have hmatched : ["1|ani", "2|budi", "3|citra"].filter (pupilSchema.matchesRow formConditions)
      = ["1|ani"] := by
    decide +kernel
  have hkept : (["1|ani", "2|budi", "3|citra"].filter fun row =>
      !pupilSchema.matchesRow formConditions row) = ["2|budi", "3|citra"] := by
    decide +kernel
  obtain ⟨hselect, hdelete, hexists, -⟩ :=
    @agree_on_conditions threePupils author "kantor" "siswa" pupilSchema _ rfl (by decide)
      (threePupils.isSound_last.readSchema (by decide) hknown) hrows hunindexed
      (Disk.isUntriggered_of_entries hentries) hfree formConditions
  rw [hmatched] at hselect hdelete
  rw [hkept] at hdelete
  obtain ⟨outcome, e', hdone⟩ := hexists (by decide) hmaster
  exact ⟨hselect, outcome, e', hdone, hdelete outcome e' hdone⟩

end Run

end FlatFileDb
