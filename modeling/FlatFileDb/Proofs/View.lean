import FlatFileDb.Proofs.Naming
import FlatFileDb.Proofs.Narrowing
import FlatFileDb.Proofs.Words

/-!
# What a view shows

A query for everything in a view runs the query of the view and then a second one over its answer. The
second one reads the header of the answer as a list of fields. Every row of an answer stands under its
header in the sense that equal names have equal values, so that looking each name up again finds the
value that was there before, however many columns have the name. Only a name that spells an aggregate is
not looked up: it is computed anew, over the rows of the answer.
-/

namespace FlatFileDb

/-- Whether the values of a row follow from the names above them. -/
def Outcome.IsUnder (columns row : List String) : Prop :=
  ∃ value : String → String, row = columns.map value

/-- What every query answers: rows that stand under a header of plain columns and aggregates. -/
structure Outcome.IsAnswer (outcome : Outcome) : Prop where
  message : outcome.message = none
  columns : ∀ column ∈ outcome.columns, ∃ spelled, Aggregate.ofField? column = .ok spelled
  rows : ∀ row ∈ outcome.rows, IsUnder outcome.columns row

namespace Relation

open Outcome (IsUnder)

variable {relation : Relation} {query : Query}

/-! ### Answers of queries -/

theorem groupRow_isUnder {having : List Condition} {names : List String}
    {fields : List (String × Option Aggregate)} {group : List (List String)} {row : List String}
    (hfields : names.mapM readField = .ok fields)
    (h : relation.groupRow having fields group = .ok (some row)) : IsUnder names row := by
  obtain ⟨read, rfl, -⟩ := Action.mapM_eq_ok hfields
  obtain ⟨fulfils, -, h⟩ := Action.of_bind_eq_ok h
  cases fulfils with
  | false => exact absurd (Except.ok.inj h) (by simp)
  | true =>
    obtain ⟨shown, hshown, h⟩ := Action.of_bind_eq_ok h
    obtain ⟨value, rfl, -⟩ := Action.mapM_eq_ok hshown
    obtain rfl := Option.some.inj (Except.ok.inj h)
    exact ⟨value ∘ read, List.map_map⟩

/-- A projection shows the names that it read, and under them what it found for each. -/
theorem project_eq_ok {columns : List String} {rows : List (List String)}
    (h : relation.project query = .ok (columns, rows)) :
    (∃ fields, columns.mapM readField = .ok fields) ∧ ∀ row ∈ rows, IsUnder columns row := by
  unfold project at h
  generalize (if query.isWildcard then relation.header else query.fields) = names at h
  obtain ⟨fields, hfields, h⟩ := Action.of_bind_eq_ok h
  split at h
  · obtain ⟨index, -, h⟩ := Action.of_bind_eq_ok h
    obtain ⟨shown, hshown, h⟩ := Action.of_bind_eq_ok h
    obtain ⟨rfl, rfl⟩ := Prod.mk.inj (Except.ok.inj h)
    obtain ⟨rowOf, rfl, hgroups⟩ := Action.mapM_eq_ok hshown
    refine ⟨⟨fields, hfields⟩, fun row hrow => ?_⟩
    obtain ⟨found, hfound, rfl⟩ := List.mem_filterMap.1 hrow
    obtain ⟨group, hgroup, hrowOf⟩ := List.mem_map.1 hfound
    exact groupRow_isUnder hfields (hrowOf ▸ hgroups group hgroup)
  · split at h
    · obtain ⟨shown, hshown, h⟩ := Action.of_bind_eq_ok h
      obtain ⟨rfl, rfl⟩ := Prod.mk.inj (Except.ok.inj h)
      refine ⟨⟨fields, hfields⟩, fun row hrow => ?_⟩
      rw [Option.mem_toList] at hrow
      exact groupRow_isUnder hfields (hrow ▸ hshown)
    · split at h
      · exact absurd h Action.throw_ne_ok
      · obtain ⟨indices, hindices, h⟩ := Action.of_bind_eq_ok h
        obtain ⟨rfl, rfl⟩ := Prod.mk.inj (Except.ok.inj h)
        obtain ⟨index, rfl, -⟩ := Action.mapM_eq_ok hindices
        refine ⟨⟨fields, hfields⟩, fun row hrow => ?_⟩
        obtain ⟨found, -, rfl⟩ := List.mem_map.1 hrow
        exact ⟨fieldAt found ∘ index, List.map_map⟩

theorem order_eq_ok {table : String} {columns : List String} {rows sorted : List (List String)}
    {key : Option OrderBy} (h : order table columns rows key = .ok sorted) : sorted.Perm rows := by
  unfold order at h
  split at h
  · rw [Except.ok.inj h]
  · split at h
    · rw [← Except.ok.inj h]
      exact perm_sortOn _ _ _
    · exact absurd h (by simp)

theorem paginate_sublist {α : Type} (limit offset : Int) (rows : List α) :
    (paginate limit offset rows).Sublist rows := by
  unfold paginate
  dsimp only
  split
  · exact (List.take_sublist _ _).trans (List.drop_sublist _ _)
  · exact List.drop_sublist _ _

theorem isAnswer_answer {outcome : Outcome} (h : relation.answer query = .ok outcome) :
    outcome.IsAnswer := by
  unfold answer at h
  obtain ⟨⟨columns, rows⟩, hproject, h⟩ := Action.of_bind_eq_ok h
  obtain ⟨sorted, hsorted, h⟩ := Action.of_bind_eq_ok h
  obtain rfl := Except.ok.inj h
  obtain ⟨⟨fields, hfields⟩, hrows⟩ := project_eq_ok hproject
  refine ⟨rfl, fun column hcolumn => ?_, fun row hrow => hrows row ?_⟩
  · obtain ⟨read, -, hread⟩ := Action.mapM_eq_ok hfields
    obtain ⟨spelled, hspelled, -⟩ := Action.of_bind_eq_ok (hread column hcolumn)
    exact ⟨spelled, hspelled⟩
  -- Ordering and paging move and drop rows.
  · exact (order_eq_ok hsorted).subset ((paginate_sublist _ _ _).subset hrow)

/-! ### The answer of a view -/

theorem resolve?_ofView {name column : String} {outcome : Outcome} (h : column ∈ outcome.columns) :
    ∃ index, (ofView name outcome).resolve? column = some index ∧
      outcome.columns[index]? = some column := by
  have hnamed : ((ofView name outcome).attributes.findIdx? fun a => a.name == column)
      = outcome.columns.findIdx? fun other => other == column := by
    simp only [ofView, List.findIdx?_map]
    rfl
  cases hfound : outcome.columns.findIdx? fun other => other == column with
  | none =>
    rw [List.findIdx?_eq_none_iff] at hfound
    exact absurd (hfound column h) (by simp)
  | some index =>
    refine ⟨index, ?_, ?_⟩
    · rw [resolve?, hnamed, hfound]
      rfl
    · obtain ⟨hindex, hsame, -⟩ := List.findIdx?_eq_some_iff_getElem.1 hfound
      rw [List.getElem?_eq_getElem hindex, eq_of_beq hsame]

theorem header_ofView (name : String) (outcome : Outcome) :
    (ofView name outcome).header = outcome.columns := by
  unfold header ofView
  rw [List.map_map]
  exact List.map_id _

/-- Looking up every name of the header leaves a row as it is. -/
theorem map_fieldAt_isUnder {columns row : List String} (h : IsUnder columns row)
    {index : String → Nat}
    (hindex : ∀ column ∈ columns, columns[index column]? = some column) :
    (columns.map index).map (fieldAt (Row.resize columns.length row)) = row := by
  obtain ⟨value, rfl⟩ := h
  rw [Row.resize_of_length (by rw [List.length_map]), List.map_map]
  refine List.map_congr_left fun column hcolumn => ?_
  rw [Function.comp_apply, fieldAt, List.getElem?_map, hindex column hcolumn]
  rfl

theorem select_nil (relation : Relation) : relation.select [] = relation := by
  have hrows : (relation.select []).rows = relation.rows := List.filter_eq_self.2 fun _ _ => rfl
  exact congrArg (fun rows => { relation with rows }) hrows

theorem project_all {names : List String} {table : String} {index : String → Nat}
    (hheader : relation.header = names)
    (hplain : ∀ name ∈ names, Aggregate.ofField? name = .ok none)
    (hindex : ∀ name ∈ names, relation.require name = .ok (index name)) :
    relation.project (.all table)
      = .ok (names, relation.rows.map fun row => (names.map index).map (fieldAt row)) := by
  have hfields : names.mapM readField = .ok (names.map fun name => (name, none)) :=
    Action.mapM_of_forall fun name hname => by rw [readField, hplain name hname]; rfl
  have hnone : ((names.map fun name => (name, (none : Option Aggregate))).any fun field =>
      field.2.isSome) = false := by simp
  change (do
    let fields ← relation.header.mapM readField
    if fields.any fun field => field.2.isSome then
      let row ← relation.groupRow [] fields relation.rows
      return (relation.header, row.toList)
    else
      let indices ← relation.header.mapM relation.require
      return (relation.header, relation.rows.map fun row => indices.map (fieldAt row))) = _
  rw [hheader, hfields, Action.mapM_of_forall hindex]
  dsimp only [bind, Except.bind]
  rw [hnone]
  rfl

theorem answer_all {names : List String} {rows : List (List String)} {table : String}
    (h : relation.project (.all table) = .ok (names, rows)) :
    relation.answer (.all table) = .ok (.ofRows names rows) := by
  unfold answer
  change (do
    let found ← (relation.select []).project (.all table)
    let rows ← order table found.1 found.2 none
    return Outcome.ofRows found.1 (paginate (-1) 0 rows)) = _
  rw [select_nil, h]
  rfl

/-- Everything in a view is what its query answered, where no name in the header spells an
aggregate. -/
theorem answer_ofView {name : String} {outcome : Outcome} (h : outcome.IsAnswer)
    (hplain : ∀ column ∈ outcome.columns, ∀ aggregate,
      Aggregate.ofField? column ≠ .ok (some aggregate)) :
    (ofView name outcome).answer (.all name) = .ok outcome := by
  let index : String → Nat := fun column => ((ofView name outcome).resolve? column).getD 0
  have hindex : ∀ column ∈ outcome.columns,
      (ofView name outcome).require column = .ok (index column) ∧
        outcome.columns[index column]? = some column := by
    intro column hcolumn
    obtain ⟨position, hposition, hthere⟩ := @resolve?_ofView name column outcome hcolumn
    have hsame : index column = position := by
      change ((ofView name outcome).resolve? column).getD 0 = position
      rw [hposition, Option.getD_some]
    rw [hsame, require, hposition]
    exact ⟨rfl, hthere⟩
  have hread : ∀ column ∈ outcome.columns, Aggregate.ofField? column = .ok none := by
    intro column hcolumn
    obtain ⟨spelled, hspelled⟩ := h.columns column hcolumn
    cases spelled with
    | none => exact hspelled
    | some aggregate => exact absurd hspelled (hplain column hcolumn aggregate)
  have hproject : (ofView name outcome).project (.all name) = _ :=
    project_all (header_ofView name outcome) hread fun column hcolumn => (hindex column hcolumn).1
  have hsame : ((ofView name outcome).rows.map fun row =>
      (outcome.columns.map index).map (fieldAt row)) = outcome.rows := by
    change ((outcome.rows.map (Row.resize outcome.columns.length)).map fun row =>
      (outcome.columns.map index).map (fieldAt row)) = outcome.rows
    rw [List.map_map]
    refine (List.map_congr_left fun row hrow => ?_).trans (List.map_id _)
    exact map_fieldAt_isUnder (h.rows row hrow) fun column hcolumn => (hindex column hcolumn).2
  rw [hsame] at hproject
  rw [answer_all hproject, Outcome.ofRows, ← h.message]

end Relation

/-! ### The statement that asks for everything -/

namespace Statement

theorem selection_all {cursor : Cursor} {name : String} (hleft : cursor.left = ["*", "FROM", name])
    (hname : Name.isValid name = true) : selection cursor = .ok (.select (.all name)) := by
  have hdatabases : cursor.sees .databases = false := by
    rw [Cursor.sees, hleft]
    exact (by decide : Keyword.databases.accepts "*" = false)
  have hcount : fieldCount? ["*", "FROM", name] = some 1 := by
    rw [fieldCount?, List.takeWhile_cons_of_pos (by decide), List.takeWhile_cons_of_pos (by decide)]
    rfl
  have hfields : fieldList (joinTokens ["*"]) = .ok ["*"] := rfl
  have htable : (cursor.advance 2).name "table name"
      = .ok (name, (cursor.advance 2).advance 1) := by
    have hleft' : (cursor.advance 2).left = [name] := by rw [Cursor.advance, hleft]; rfl
    rw [Cursor.name, Cursor.token, hleft']
    change (if Name.isValid name then _ else _) = _
    rw [if_pos hname]
    rfl
  have hnothing : ((cursor.advance 2).advance 1).left = [] := by
    rw [Cursor.advance, Cursor.advance, hleft]
    rfl
  rw [selection, hdatabases, if_neg (by simp), hleft, hcount]
  change (do
    let fields ← fieldList (joinTokens ["*"])
    let named ← (cursor.advance 2).name "table name"
    return Command.select
      (← clauses named.2.left.length { Query.all named.1 with fields } named.2)) = _
  rw [hfields]
  change (do
    let named ← (cursor.advance 2).name "table name"
    return Command.select (← clauses named.2.left.length (Query.all named.1) named.2)) = _
  rw [htable]
  change (do
    let rest := (cursor.advance 2).advance 1
    return Command.select (← clauses rest.left.length (Query.all name) rest)) = _
  dsimp only
  rw [hnothing]
  rfl

/-- What the statement that asks for everything is read as. -/
theorem parse_all {name : String} (hname : Name.isValid name = true) :
    parse ("SELECT * FROM " ++ name) = .ok (.select (.all name)) := by
  have htext : "SELECT * FROM " ++ name = " ".intercalate ["SELECT", "*", "FROM", name] := by
    simp [String.intercalate_cons_cons, ← String.append_assoc]
  have htokens : ∀ word ∈ ["SELECT", "*", "FROM", name], tokens word.toList = [word] := by
    have hfixed : ∀ word ∈ ["SELECT", "*", "FROM"], tokens word.toList = [word] := by decide
    simpa [tokens_of_isValid hname] using hfixed
  have hend : ∀ word ∈ ["SELECT", "*", "FROM", name], ';' ∉ word.toList := by
    simpa using Name.not_mem hname (by decide)
  obtain ⟨read, hparse⟩ := parse_joinTokens (htokens "SELECT" (by simp)) fun word hword =>
    endsStatement_of_tokens (htokens word hword) (hend word hword)
  rw [htext, hparse, tokensOf_of_tokens fun word hword => htokens word (by simp [hword]),
    commandOf, if_neg (by decide), if_neg (by decide), if_pos (by decide)]
  exact selection_all rfl hname

end Statement

/-! ### Running a view -/

namespace Engine

variable {who : Identity} {database name text : String} {query : Query} {outcome : Outcome}
  {e : Engine}

/-- Whatever a query answers is a header with rows that stand under it. -/
theorem isAnswer_of_select {executing : Executing}
    (h : (select executing who database query e).1 = .ok outcome) : outcome.IsAnswer := by
  rcases hselect : select executing who database query e with ⟨result, e'⟩
  rw [hselect] at h
  dsimp only at h
  subst h
  rcases Action.bind_cases hselect with ⟨failure, -, hno⟩ | ⟨first, e₁, -, hrest⟩
  · exact absurd hno (by simp)
  rcases Action.bind_cases hrest with ⟨failure, -, hno⟩ | ⟨relation, e₂, -, hanswer⟩
  · exact absurd hno (by simp)
  exact Relation.isAnswer_answer (congrArg Prod.fst hanswer)

theorem isAnswer_of_executeWithin {budget : Nat}
    (h : (executeWithin budget who (.select query) e).1 = .ok outcome) : outcome.IsAnswer := by
  cases budget with
  | zero => exact absurd h (by simp [executeWithin])
  | succ budget =>
    rw [executeWithin, perform_select, Action.ofExcept_bind] at h
    cases hdatabase : who.requireDatabase with
    | error failure =>
      rw [hdatabase] at h
      exact absurd h (by simp)
    | ok database =>
      rw [hdatabase] at h
      exact isAnswer_of_select h

/-- Everyone may read views. -/
theorem requireRole_user (who : Identity) : who.requireRole .user = .ok () :=
  if_pos (Nat.zero_le _)

theorem source_of_view {executing : Executing} {condition : Option Condition}
    (hschema : hasSchema e.disk database name = false)
    (hload : View.load e.disk database name = .ok text)
    (hparse : Statement.parse text = .ok (.select query))
    (hrun : (executing who (.select query) e).1 = .ok outcome) :
    (source executing who database name condition e).1 = .ok (Relation.ofView name outcome) := by
  have hpresent : View.isPresent e.disk database name = true := by
    obtain ⟨place, hlocate⟩ := Disk.textAt_eq_ok.1 (Disk.textOr_eq_ok.1 hload)
    unfold View.isPresent Disk.hasFile Disk.entryAt
    rw [hlocate]
    rfl
  unfold source
  rw [look_bind, hschema, if_neg (by simp), look_bind, hpresent, if_pos rfl]
  unfold viewSource
  rw [requireRole_user, Action.ofExcept_bind]
  dsimp only
  rw [readDisk, Action.read_bind, hload]
  dsimp only
  rw [hparse, Action.ofExcept_bind]
  rcases hdone : executing who (.select query) e with ⟨result, e'⟩
  rw [hdone] at hrun
  dsimp only at hrun ⊢
  subst hrun
  rw [Action.bind_of_ok hdone]
  rfl

/-- Everything in a view is what its query answers one level deeper. -/
theorem perform_all (hdatabase : who.requireDatabase = .ok database)
    (hschema : hasSchema e.disk database name = false)
    (hload : View.load e.disk database name = .ok text)
    (hparse : Statement.parse text = .ok (.select query)) {budget : Nat}
    (hrun : (executeWithin budget who (.select query) e).1 = .ok outcome)
    (hplain : ∀ column ∈ outcome.columns, ∀ aggregate,
      Aggregate.ofField? column ≠ .ok (some aggregate)) :
    (perform (executeWithin budget) budget who (.select (.all name)) e).1 = .ok outcome := by
  rw [perform_select, hdatabase, Action.ofExcept_bind]
  dsimp only
  have hsource : (source (executeWithin budget) who database (Query.all name).table
      (narrowing? (.all name)) e).1 = .ok (Relation.ofView name outcome) :=
    source_of_view hschema hload hparse hrun
  unfold select
  rw [select_result (observes_executeWithin budget) rfl, hsource]
  exact Relation.answer_ofView (isAnswer_of_executeWithin hrun) hplain

end Engine

namespace Run

/-- Selecting everything from a stored view answers what the query of the view answers, where no name
in the header of that answer spells an aggregate. -/
theorem selectAll_view (run : Run) {x : Execution} (hx : x ∈ run.executions)
    {database name text : String} (hstores : x.StoresView database name) {who : Identity}
    (hdatabase : who.requireDatabase = .ok database) {query : Query} {outcome : Outcome}
    (hload : View.load run.last.disk database name = .ok text)
    (hparse : Statement.parse text = .ok (.select query))
    (hrun : (Engine.executeWithin run.settings.nestingLimit who (.select query) run.last).1
      = .ok outcome)
    (hplain : ∀ column ∈ outcome.columns, ∀ aggregate,
      Aggregate.ofField? column ≠ .ok (some aggregate)) :
    (Engine.run (some who) ("SELECT * FROM " ++ name) run.last).1 = .ok outcome := by
  have hname := run.trace.isValid_of_storesView hx hstores
  rw [Engine.run_of_parse (Statement.parse_all hname), run.settings_last]
  exact Engine.perform_all hdatabase (run.hasSchema_of_storesView hx hstores) hload hparse hrun
    hplain

/-- The query of a view over two tables. -/
def joinedText : String :=
  "SELECT nama, k.kota FROM t JOIN k ON t.id = k.id LIMIT 1 OFFSET 1"

def joinedQuery : Query :=
  { Query.all "t" with
    fields := ["nama", "k.kota"]
    joins := [⟨.inner, "k", "t.id", "k.id"⟩]
    limit := 1
    offset := 1 }

/-- A view of the latter of two joined rows. -/
def joinedView : Run :=
  .script "asep" "kantor"
    ["CREATE TABLE t id:INT, nama:STRING", "INSERT t 1|ani", "INSERT t 2|budi",
      "CREATE TABLE k id:INT, kota:STRING", "INSERT k 1|Bandung", "INSERT k 2|Garut",
      "CREATE VIEW v AS " ++ joinedText]

theorem selectAll_view_joinedView :
    (Engine.run (some ⟨"asep", .supermaung, some "kantor"⟩) ("SELECT * FROM " ++ "v")
      joinedView.last).1 = .ok (.ofRows ["nama", "k.kota"] [["budi", "Garut"]]) := by
  have hstored : ∃ hx : 6 < joinedView.executions.length,
      joinedView.executions[6].command = .createView "v" joinedText ∧
      joinedView.executions[6].who.requireDatabase = .ok "kantor" ∧
      (Engine.executeWithin 1 joinedView.executions[6].who joinedView.executions[6].command
        joinedView.executions[6].before).1 = .ok (.ofMessage "View 'v' created") := by
    decide +kernel
  have hquery : View.load joinedView.last.disk "kantor" "v" = .ok joinedText ∧
      Statement.parse joinedText = .ok (.select joinedQuery) ∧
      (Engine.executeWithin joinedView.settings.nestingLimit ⟨"asep", .supermaung, some "kantor"⟩
        (.select joinedQuery) joinedView.last).1
          = .ok (.ofRows ["nama", "k.kota"] [["budi", "Garut"]]) := by
    decide +kernel
  have hplain : ∀ column ∈ ["nama", "k.kota"], Aggregate.ofField? column = .ok none := by
    decide +kernel
  obtain ⟨hx, hcommand, hdatabase, hmade⟩ := hstored
  obtain ⟨hload, hparse, hrun⟩ := hquery
  refine joinedView.selectAll_view (List.getElem_mem hx) ⟨⟨_, hcommand⟩, hdatabase, _, hmade⟩ rfl
    hload hparse hrun fun column hcolumn aggregate hno => ?_
  exact absurd ((hplain column hcolumn).symm.trans hno) (by simp)

end Run

end FlatFileDb
