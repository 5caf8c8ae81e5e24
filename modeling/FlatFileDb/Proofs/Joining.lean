import FlatFileDb.Proofs.Listing

/-!
# Everything in joined tables

A query for all columns of joined tables reads the header of the join as a list of names and looks each
of them up again. Where every table is joined once, every name in the header is there once, so each is
found where it stands and the answer are the joined rows as they are: for each table one after the other
the fields of one of its rows, or nulls. A table that is joined with itself has each of its names twice,
and both are found at the first place.
-/

namespace FlatFileDb

namespace Query

/-- The tables of a query in the order in which they are joined. -/
def tables (query : Query) : List String :=
  query.table :: query.joins.map Join.table

/-- Whether a query shows every column of all that it selects, without groups, an order or pages. -/
structure ShowsAll (query : Query) : Prop where
  fields : query.fields = ["*"]
  groupBy : query.groupBy = none
  having : query.having = []
  orderBy : query.orderBy = none
  limit : query.limit ≤ 0
  offset : query.offset ≤ 0

end Query

namespace Relation

variable {relation left right joined : Relation} {query : Query}

/-! ### All columns by their names -/

theorem answer_of_showsAll (h : query.ShowsAll) (relation : Relation) :
    relation.answer query = (relation.select query.conditions).answer (.all query.table) := by
  have hproject : (relation.select query.conditions).project query
      = (relation.select query.conditions).project (.all query.table) := by
    unfold project Query.isWildcard
    rw [h.fields, h.groupBy, h.having]
    rfl
  have hpage : paginate query.limit query.offset
      = fun rows : List (List String) => paginate (-1) 0 rows := by
    funext rows
    rw [paginate, if_neg (by have := h.limit; omega), Int.toNat_eq_zero.2 h.offset]
    rfl
  unfold answer
  rw [h.orderBy, hproject, hpage]
  change _ = (do
    let found ← ((relation.select query.conditions).select []).project (.all query.table)
    let rows ← order query.table found.1 found.2 none
    return Outcome.ofRows found.1 (paginate (-1) 0 rows))
  rw [select_nil]

/-! ### The rows of a chain of joins -/

/-- The columns of a table, each with the name of the table in front. -/
def qualifiedNames (schema : TableSchema) : List String :=
  schema.columns.map fun column => qualify schema.name column.name

theorem qualify_inj {source source' column column' : String} (h : Name.isValid source = true)
    (h' : Name.isValid source' = true) (hsame : qualify source column = qualify source' column') :
    source = source' ∧ column = column' := by
  have htext := congrArg String.toList hsame
  simp only [qualify, String.toList_append, List.append_assoc] at htext
  obtain ⟨hsource, hcolumn⟩ := Name.eq_of_point h h' htext
  exact ⟨hsource, String.toList_inj.1 hcolumn⟩

/-- A chain of joins of distinct tables has every name in its header once, and none of them calls an
aggregate. -/
theorem nodup_qualifiedNames {schemas : List TableSchema}
    (hsound : ∀ schema ∈ schemas, schema.IsSound) (hvalid : ∀ schema ∈ schemas,
      Name.isValid schema.name = true) (hdistinct : (schemas.map TableSchema.name).Nodup) :
    (schemas.flatMap qualifiedNames).Nodup := by
  refine List.nodup_flatMap.2 ⟨fun schema hschema => ?_, ?_⟩
  · refine List.Nodup.map_on (fun column hcolumn other hother hsame => ?_)
      (List.Nodup.of_map _ (hsound schema hschema).distinct)
    exact List.inj_on_of_nodup_map (hsound schema hschema).distinct hcolumn hother
      (qualify_inj (hvalid schema hschema) (hvalid schema hschema) hsame).2
  · refine (List.pairwise_map.1 hdistinct).imp_of_mem fun {schema other} hschema hother hne => ?_
    intro name hname hname'
    obtain ⟨column, -, rfl⟩ := List.mem_map.1 hname
    obtain ⟨column', -, hsame⟩ := List.mem_map.1 hname'
    exact hne (qualify_inj (hvalid other hother) (hvalid schema hschema) hsame).1.symm

theorem ofField?_of_mem_qualifiedNames {schema : TableSchema} (hsound : schema.IsSound)
    (hvalid : Name.isValid schema.name = true) {name : String} (h : name ∈ qualifiedNames schema) :
    Aggregate.ofField? name = .ok none := by
  obtain ⟨column, hcolumn, rfl⟩ := List.mem_map.1 h
  refine Aggregate.ofField?_of_not_mem ?_
  simp only [qualify, String.toList_append, List.mem_append, not_or]
  exact ⟨⟨Name.not_mem hvalid (by decide), by decide⟩,
    Name.not_mem (hsound.valid column hcolumn) (by decide)⟩

/-- What a joined row shows of a table: the fields of one of its rows, or nulls. -/
def IsPart (disk : Disk) (database : String) (schema : TableSchema) (part : List String) : Prop :=
  part.length = schema.columns.length ∧
    (part = nullRow schema.columns.length ∨
      ∃ rows row, Table.rows disk database schema.name = .ok rows ∧ row ∈ rows ∧
        part = Row.fields row)

/-- A relation of some tables: its columns are those of one table after the other, and each of its rows
is put together from what it shows of each table. -/
structure Combines (disk : Disk) (database : String) (schemas : List TableSchema)
    (relation : Relation) : Prop where
  qualified : relation.attributes.map Attribute.qualified = schemas.flatMap qualifiedNames
  rows : ∀ row ∈ relation.rows, ∃ parts, row = parts.flatten ∧
    List.Forall₂ (IsPart disk database) schemas parts

variable {disk : Disk} {database : String} {schemas : List TableSchema} {schema : TableSchema}

theorem combines_ofTable {rows : List String} (hrows : Table.rows disk database schema.name = .ok rows)
    (htakes : ∀ row ∈ rows, schema.Takes row) :
    Combines disk database [schema] (ofTable schema rows) where
  qualified := by
    simp [ofTable, qualifiedNames]
  rows := by
    intro row hrow
    obtain ⟨text, htext, rfl⟩ := List.mem_map.1 hrow
    have hwidth := (htakes text htext).width
    rw [Row.resize_of_length hwidth]
    exact ⟨[Row.fields text], by simp, .cons ⟨hwidth, .inr ⟨rows, text, hrows, htext, rfl⟩⟩ .nil⟩

theorem Combines.length (h : Combines disk database schemas relation) :
    relation.attributes.length = (schemas.map fun schema => schema.columns.length).sum := by
  have hlength := congrArg List.length h.qualified
  simpa [List.length_flatMap, qualifiedNames] using hlength

theorem Combines.isWide (h : Combines disk database schemas relation) : relation.IsWide := by
  intro row hrow
  obtain ⟨parts, rfl, hparts⟩ := h.rows row hrow
  rw [h.length]
  clear h hrow
  induction hparts with
  | nil => rfl
  | cons hpart _ ih =>
    rw [List.flatten_cons, List.length_append, ih, hpart.1, List.map_cons, List.sum_cons]

/-- Nulls for all columns are nulls for each table. -/
theorem Combines.nullRow (h : Combines disk database schemas relation) :
    ∃ parts, Relation.nullRow relation.attributes.length = parts.flatten ∧
      List.Forall₂ (IsPart disk database) schemas parts := by
  refine ⟨schemas.map fun schema => Relation.nullRow schema.columns.length, ?_, ?_⟩
  · rw [h.length]
    simp only [Relation.nullRow]
    clear h
    induction schemas with
    | nil => rfl
    | cons schema rest ih =>
      rw [List.map_cons, List.sum_cons, List.replicate_add, ih, List.map_cons, List.flatten_cons]
  · rw [List.forall₂_map_right_iff, List.forall₂_same]
    exact fun schema _ => ⟨List.length_replicate, .inl rfl⟩

theorem Combines.join (hleft : Combines disk database schemas left)
    {others : List TableSchema} (hright : Combines disk database others right) {clause : Join}
    (h : left.join right clause = .ok joined) :
    Combines disk database (schemas ++ others) joined ∧
      joined.header = (schemas ++ others).flatMap qualifiedNames := by
  obtain ⟨⟨leftColumn, rightColumn⟩, -, h⟩ := Action.of_bind_eq_ok h
  obtain rfl := Except.ok.inj h
  have hnames : (left.attributes ++ right.attributes).map Attribute.qualified
      = (schemas ++ others).flatMap qualifiedNames := by
    rw [List.map_append, hleft.qualified, hright.qualified, List.flatMap_append]
  refine ⟨⟨?_, fun row hrow => ?_⟩, ?_⟩
  · rw [← hnames, List.map_map]
    rfl
  · obtain ⟨l, r, rfl, hsides⟩ := mem_joinRows hrow
    have hparts : (∃ parts, l = parts.flatten ∧ List.Forall₂ (IsPart disk database) schemas parts) ∧
        ∃ parts, r = parts.flatten ∧ List.Forall₂ (IsPart disk database) others parts := by
      rcases hsides with ⟨hl, hr⟩ | ⟨hl, rfl⟩ | ⟨rfl, hr⟩
      · exact ⟨hleft.rows l hl, hright.rows r hr⟩
      · exact ⟨hleft.rows l hl, hright.nullRow⟩
      · exact ⟨hleft.nullRow, hright.rows r hr⟩
    obtain ⟨⟨first, rfl, hfirst⟩, second, rfl, hsecond⟩ := hparts
    exact ⟨first ++ second, List.flatten_append.symm, List.rel_append hfirst hsecond⟩
  · rw [← hnames, header, List.map_map]
    rfl

/-- Everything in tables that are joined once each. -/
theorem Combines.answer (h : Combines disk database schemas joined)
    (hheader : joined.header = schemas.flatMap qualifiedNames) {names : List String}
    (hnamed : List.Forall₂ (fun name schema => schema.name = name ∧ schema.IsSound) names schemas)
    (hvalid : ∀ name ∈ names, Name.isValid name = true) (hdistinct : names.Nodup)
    (hquery : query.ShowsAll) :
    joined.answer query = .ok (.ofRows joined.header (joined.select query.conditions).rows) := by
  have hnames : names = schemas.map TableSchema.name := by
    rw [← List.forall₂_eq_eq_eq, List.forall₂_map_right_iff]
    exact hnamed.imp fun _ _ h => h.1.symm
  have hsound : ∀ schema ∈ schemas, schema.IsSound :=
    ((List.forall₂_and_left _ _).1 (hnamed.flip.imp fun _ _ h => ⟨h.2, h⟩)).1
  subst hnames
  have hvalid' : ∀ schema ∈ schemas, Name.isValid schema.name = true := fun schema hschema =>
    hvalid schema.name (List.mem_map_of_mem hschema)
  rw [answer_of_showsAll hquery]
  refine answer_of_nodup (h.isWide.select _) ?_ (fun name hname => ?_) query.table
  · change joined.header.Nodup
    rw [hheader]
    exact nodup_qualifiedNames hsound hvalid' hdistinct
  · change name ∈ joined.header at hname
    rw [hheader] at hname
    obtain ⟨schema, hschema, hname⟩ := List.mem_flatMap.1 hname
    exact ofField?_of_mem_qualifiedNames (hsound schema hschema) (hvalid' schema hschema) hname

end Relation

namespace Engine

/-! ### Queries over tables -/

/-- A table as a relation, all its rows. -/
def tableRelation (who : Identity) (database name : String) (e : Engine) : Except Error Relation := do
  let schema ← e.knownSchema database name
  schema.require who.role .read
  return Relation.ofTable schema (← Table.rows e.disk database name)

/-- A relation joined with further tables, from the first to the last. -/
def joinTables (who : Identity) (database : String) (e : Engine) (relation : Relation) :
    List Join → Except Error Relation
  | [] => .ok relation
  | clause :: rest => do
    let right ← tableRelation who database clause.table e
    let joined ← relation.join right clause
    joinTables who database e joined rest

/-- The tables of a query joined. -/
def joinedTables (who : Identity) (database : String) (query : Query) (e : Engine) :
    Except Error Relation := do
  let first ← tableRelation who database query.table e
  joinTables who database e first query.joins

variable {executing : Executing} {who : Identity} {database : String} {e : Engine}

theorem source_eq_tableRelation {name : String} (h : hasSchema e.disk database name = true) :
    (source executing who database name none e).1 = tableRelation who database name e := by
  have hsource := @source_result database e who (.all name) executing none h
  exact (congrArg Prod.fst hsource).trans (tableSource_result who database name none e)

theorem joinSources_eq_joinTables
    (hexecuting : ∀ who query, Observes (executing who (.select query))) {joins : List Join}
    (h : ∀ join ∈ joins, hasSchema e.disk database join.table = true) (relation : Relation) :
    (joinSources executing who database relation joins e).1
      = joinTables who database e relation joins := by
  induction joins generalizing relation with
  | nil => rfl
  | cons clause rest ih =>
    change ((source executing who database clause.table none >>= fun right =>
        Action.ofExcept (relation.join right clause) >>= fun joined =>
          joinSources executing who database joined rest) e).1
      = tableRelation who database clause.table e >>= fun right =>
        relation.join right clause >>= fun joined => joinTables who database e joined rest
    rw [Observes.result_bind (observes_source hexecuting who database clause.table none),
      source_eq_tableRelation (h clause (by simp))]
    · refine congrArg _ (funext fun right => ?_)
      rw [Observes.result_bind (.ofExcept _)]
      · exact congrArg _ (funext fun joined =>
          ih (fun join hjoin => h join (List.mem_cons_of_mem clause hjoin)) joined)
      · exact fun joined => observes_joinSources hexecuting who database joined rest
    · exact fun right => (Observes.ofExcept _).bind fun joined =>
        observes_joinSources hexecuting who database joined rest

/-- A query that joins tables answers by the tables joined. -/
theorem select_joined (hexecuting : ∀ who query, Observes (executing who (.select query)))
    {query : Query} (hjoins : query.joins ≠ [])
    (h : ∀ name ∈ query.tables, hasSchema e.disk database name = true) :
    (select executing who database query e).1
      = joinedTables who database query e >>= fun joined => joined.answer query := by
  have hnarrowing : narrowing? query = none := by
    unfold narrowing?
    cases hcases : query.joins with
    | nil => exact absurd hcases hjoins
    | cons clause rest => rfl
  unfold select joinedTables
  rw [hnarrowing, Observes.result_bind (observes_source hexecuting who database query.table none),
    source_eq_tableRelation (h query.table (by simp [Query.tables]))]
  · rw [bind_assoc]
    refine congrArg _ (funext fun first => ?_)
    rw [Observes.result_bind (observes_joinSources hexecuting who database first query.joins),
      joinSources_eq_joinTables hexecuting fun join hjoin => h join.table (by
        rw [Query.tables]
        exact List.mem_cons_of_mem _ (List.mem_map_of_mem hjoin))]
    · rfl
    · exact fun _ => .ofExcept _
  · exact fun first => (observes_joinSources hexecuting who database first query.joins).bind
      fun _ => .ofExcept _

theorem executeAs_joined {query : Query} (hdatabase : who.requireDatabase = .ok database)
    (hjoins : query.joins ≠ []) (h : ∀ name ∈ query.tables, hasSchema e.disk database name = true) :
    (executeAs who (.select query) e).1
      = joinedTables who database query e >>= fun joined => joined.answer query := by
  change (executeWithin (e.settings.nestingLimit + 1) who (.select query) e).1 = _
  rw [executeWithin, perform_select, hdatabase, Action.ofExcept_bind]
  exact select_joined (observes_executeWithin _) hjoins h

end Engine

namespace Run

variable (run : Run) {who : Identity} {database : String}

theorem combines_tableRelation {name : String} (hvalid : Name.isValid name = true)
    {schema : TableSchema} (hschema : Engine.readSchema run.last.disk database name = .ok schema)
    {relation : Relation} (h : Engine.tableRelation who database name run.last = .ok relation) :
    Relation.Combines run.last.disk database [schema] relation := by
  have hknown := run.isSound_last.knownSchema_of_readSchema hvalid hschema
  obtain ⟨-, -, hname⟩ := run.isSound_last.knownSchema hvalid hknown
  obtain ⟨found, hfound, h⟩ := Action.of_bind_eq_ok h
  obtain rfl := Except.ok.inj (hknown.symm.trans hfound)
  obtain ⟨-, -, h⟩ := Action.of_bind_eq_ok h
  obtain ⟨rows, hrows, h⟩ := Action.of_bind_eq_ok h
  obtain rfl := Except.ok.inj h
  exact Relation.combines_ofTable (by rw [hname, hrows]) (run.holds_allTaken.rows hvalid hschema hrows)

theorem combines_joinTables {schemas others : List TableSchema} {joins : List Join}
    (hothers : List.Forall₂ (fun join schema => Name.isValid join.table = true ∧
      Engine.readSchema run.last.disk database join.table = .ok schema) joins others)
    {relation joined : Relation} (hrelation : Relation.Combines run.last.disk database schemas relation)
    (h : Engine.joinTables who database run.last relation joins = .ok joined) :
    Relation.Combines run.last.disk database (schemas ++ others) joined ∧
      (joins ≠ [] → joined.header = (schemas ++ others).flatMap Relation.qualifiedNames) := by
  induction hothers generalizing schemas relation with
  | nil =>
    obtain rfl := Except.ok.inj h
    rw [List.append_nil]
    exact ⟨hrelation, fun hno => absurd rfl hno⟩
  | @cons clause schema rest others hschema hrest ih =>
    obtain ⟨right, hright, h⟩ := Action.of_bind_eq_ok h
    obtain ⟨first, hfirst, h⟩ := Action.of_bind_eq_ok h
    obtain ⟨hcombines, hheader⟩ :=
      hrelation.join (run.combines_tableRelation hschema.1 hschema.2 hright) hfirst
    obtain ⟨hall, hnames⟩ := ih hcombines h
    rw [List.append_assoc, List.singleton_append] at hall hnames
    refine ⟨hall, fun _ => ?_⟩
    cases hrest with
    | nil => rw [← Except.ok.inj h, hheader]
    | cons => exact hnames (by simp)

theorem combines_joinedTables {query : Query} {schemas : List TableSchema} (hjoins : query.joins ≠ [])
    (htables : List.Forall₂ (fun name schema => Name.isValid name = true ∧
      Engine.readSchema run.last.disk database name = .ok schema) query.tables schemas)
    {joined : Relation} (h : Engine.joinedTables who database query run.last = .ok joined) :
    joined.header = schemas.flatMap Relation.qualifiedNames ∧
      Relation.Combines run.last.disk database schemas joined := by
  obtain ⟨first, hfirst, hrest⟩ := Action.of_bind_eq_ok h
  rw [Query.tables, List.forall₂_cons_left_iff] at htables
  obtain ⟨schema, others, hschema, hothers, rfl⟩ := htables
  rw [List.forall₂_map_left_iff] at hothers
  obtain ⟨hall, hheader⟩ := run.combines_joinTables hothers
    (run.combines_tableRelation hschema.1 hschema.2 hfirst) hrest
  exact ⟨hheader hjoins, hall⟩

/-- In every run, a query for everything in joined tables, each of them joined once, answers the joined
rows that fulfil the conditions, and each is put together from the fields of one row of each table, or
nulls. -/
theorem selectAll_joined {query : Query} {schemas : List TableSchema} (hquery : query.ShowsAll)
    (hjoins : query.joins ≠ []) (hdatabase : who.requireDatabase = .ok database)
    (hvalid : ∀ name ∈ query.tables, Name.isValid name = true) (hdistinct : query.tables.Nodup)
    (hschemas : List.Forall₂ (fun name schema =>
      Engine.readSchema run.last.disk database name = .ok schema) query.tables schemas) :
    (Engine.executeAs who (.select query) run.last).1
        = (Engine.joinedTables who database query run.last).map (fun joined =>
            .ofRows joined.header (joined.select query.conditions).rows) ∧
      ∀ joined, Engine.joinedTables who database query run.last = .ok joined →
        joined.header = schemas.flatMap Relation.qualifiedNames ∧
          Relation.Combines run.last.disk database schemas joined := by
  have htables := (List.forall₂_and_left _ _).2 ⟨hvalid, hschemas⟩
  have hcombines := fun joined => @combines_joinedTables run who database query schemas hjoins htables joined
  refine ⟨?_, hcombines⟩
  have hthere : ∀ name ∈ query.tables, Engine.hasSchema run.last.disk database name = true :=
    ((List.forall₂_and_left _ _).1
      (hschemas.imp fun _ _ h => ⟨Engine.hasSchema_of_readSchema h, h⟩)).1
  rw [Engine.executeAs_joined hdatabase hjoins hthere]
  cases hjoined : Engine.joinedTables who database query run.last with
  | error failure => rfl
  | ok joined =>
    obtain ⟨hheader, hall⟩ := hcombines joined hjoined
    have hnamed : List.Forall₂ (fun name schema => schema.name = name ∧ schema.IsSound)
        query.tables schemas := htables.imp fun name schema h => by
      obtain ⟨-, hsound, hname⟩ := run.isSound_last.knownSchema h.1
        (run.isSound_last.knownSchema_of_readSchema h.1 h.2)
      exact ⟨hname, hsound⟩
    exact hall.answer hheader hnamed hvalid hdistinct hquery

/-- Employees and their wages: one without a wage, and a wage of nobody. -/
def staff : Run :=
  .script "asep" "kantor" ["CREATE TABLE pegawai id:INT, nama:STRING",
    "CREATE TABLE gaji pid:INT, jumlah:INT", "INSERT pegawai 1|ani", "INSERT pegawai 2|budi",
    "INSERT gaji 2|500", "INSERT gaji 3|700", "INSERT gaji 4|"]

/-- The schema of the employees. -/
def staffSchema : TableSchema where
  database := "kantor"
  name := "pegawai"
  columns := [⟨"id", .int, false, false, false, none⟩, ⟨"nama", .string, false, false, false, none⟩]
  permissions := .standard

/-- The schema of the wages. -/
def wageSchema : TableSchema where
  database := "kantor"
  name := "gaji"
  columns := [⟨"pid", .int, false, false, false, none⟩, ⟨"jumlah", .int, false, false, false, none⟩]
  permissions := .standard

/-- All employees and all wages but those of 700. -/
def staffQuery : Query :=
  { Query.all "pegawai" with
    joins := [⟨.full, "gaji", "pegawai.id", "gaji.pid"⟩]
    conditions := [⟨"jumlah", .notEqual, "700", some .or⟩, ⟨"nama", .equal, "ani", none⟩] }

/-- Employees and wages joined. -/
def joinedStaff : Relation where
  name := "pegawai"
  attributes := [⟨"pegawai.id", "pegawai.id", .int⟩, ⟨"pegawai.nama", "pegawai.nama", .string⟩,
    ⟨"gaji.pid", "gaji.pid", .int⟩, ⟨"gaji.jumlah", "gaji.jumlah", .int⟩]
  rows := [["1", "ani", "NULL", "NULL"], ["2", "budi", "2", "500"], ["NULL", "NULL", "3", "700"],
    ["NULL", "NULL", "4", ""]]

theorem joinedTables_staff :
    staff.last.knownSchema "kantor" "pegawai" = .ok staffSchema ∧
      staff.last.knownSchema "kantor" "gaji" = .ok wageSchema ∧
      Engine.joinedTables author "kantor" staffQuery staff.last = .ok joinedStaff := by
  decide +kernel

theorem selectAll_joined_staff :
    Engine.joinedTables author "kantor" staffQuery staff.last = .ok joinedStaff ∧
      (Engine.executeAs author (.select staffQuery) staff.last).1
        = .ok (.ofRows ["pegawai.id", "pegawai.nama", "gaji.pid", "gaji.jumlah"]
            [["1", "ani", "NULL", "NULL"], ["2", "budi", "2", "500"]]) ∧
      Relation.Combines staff.last.disk "kantor" [staffSchema, wageSchema] joinedStaff := by
  obtain ⟨hpegawai, hgaji, hjoined⟩ := joinedTables_staff
  have hstaff := staff.isSound_last.readSchema (by decide) hpegawai
  have hwages := staff.isSound_last.readSchema (by decide) hgaji
  have hrows : (joinedStaff.select staffQuery.conditions).rows
      = [["1", "ani", "NULL", "NULL"], ["2", "budi", "2", "500"]] := by
    decide +kernel
  have hall := @selectAll_joined staff author "kantor" staffQuery [staffSchema, wageSchema]
    ⟨rfl, rfl, rfl, rfl, by decide, by decide⟩ (by decide) rfl (by decide) (by decide)
    (.cons hstaff (.cons hwages .nil))
  refine ⟨hjoined, ?_, (hall.2 joinedStaff hjoined).2⟩
  rw [hall.1, hjoined]
  exact congrArg (fun rows => Except.ok (Outcome.ofRows joinedStaff.header rows)) hrows

/-- Employees and whom they answer to. -/
def bosses : Run :=
  .script "asep" "kantor" ["CREATE TABLE t id:INT, boss:INT", "INSERT t 1|", "INSERT t 2|1"]

/-- Everyone with those who answer to them. -/
def bossQuery : Query :=
  { Query.all "t" with joins := [⟨.left, "t", "t.id", "t.boss"⟩] }

/-- A table joined with itself shows the fields of the left row twice. -/
example :
    (Engine.joinedTables author "kantor" bossQuery bosses.last).map Relation.rows
        = .ok [["1", "", "2", "1"], ["2", "1", "NULL", "NULL"]] ∧
      (Engine.executeAs author (.select bossQuery) bosses.last).1
        = .ok (.ofRows ["t.id", "t.boss", "t.id", "t.boss"]
            [["1", "", "1", ""], ["2", "1", "2", "1"]]) := by
  decide +kernel

end Run

end FlatFileDb
