import FlatFileDb.Proofs.Action
import FlatFileDb.Proofs.Json
import FlatFileDb.Schema.Definition
import FlatFileDb.Schema.Name
import FlatFileDb.Schema.Stored

/-!
# Sound schemas

What holds of every schema that a table definition gives: its columns have names of their own, a
primary key is unique, and a length fits into 64 bits. The last is what the stored form relies on: a
sound schema is read back from its file as it was written.
-/

namespace FlatFileDb

namespace DataType

/-- Whether the arguments of a type fit into what is stored of them. -/
def isStorable : DataType → Bool
  | char length => length < 2 ^ 64
  | _ => true

theorem withoutArguments_eq_ok {name : String} {arguments : List String} {type type' : DataType}
    (h : withoutArguments name arguments type = .ok type') : type' = type := by
  unfold withoutArguments at h
  split at h
  · exact (Except.ok.inj h).symm
  · exact absurd h (by simp)

theorem charOf_isStorable {arguments : List String} {type : DataType}
    (h : charOf arguments = .ok type) : isStorable type = true := by
  unfold charOf at h
  split at h
  · split at h
    · rename_i n hread
      have hlimit : n < 2 ^ 64 := by
        unfold Number.readNatural? at hread
        have := Option.eq_some_of_filter_eq_some hread
        have hfilter := (Option.filter_eq_some_iff.1 hread).2
        simpa using hfilter
      rw [← Except.ok.inj h]
      simpa [isStorable] using hlimit
    · exact absurd h (by simp)
  · exact absurd h (by simp)

theorem ofParts_isStorable {name : String} {arguments : List String} {type : DataType}
    (h : ofParts name arguments = .ok type) : isStorable type = true := by
  have plain {other : DataType} (hother : isStorable other = true)
      (hwithout : withoutArguments name arguments other = .ok type) : isStorable type = true := by
    rw [withoutArguments_eq_ok hwithout]
    exact hother
  unfold ofParts at h
  simp only at h
  split_ifs at h
  · exact plain rfl h
  · exact plain rfl h
  · exact plain rfl h
  · exact plain rfl h
  · exact plain rfl h
  · exact plain rfl h
  · exact charOf_isStorable h
  · unfold enumOf at h
    simp only at h
    split_ifs at h
    rw [← Except.ok.inj h]
    rfl

end DataType

/-- A column as a definition gives it. -/
structure Column.IsSound (column : Column) : Prop where
  storable : column.type.isStorable = true
  key : column.primaryKey = true → column.unique = true

theorem Column.IsSound.constrain {column : Column} (h : column.IsSound) (constraint : Constraint) :
    (column.constrain constraint).IsSound := by
  cases constraint with
  | primaryKey => exact ⟨h.storable, fun _ => rfl⟩
  | unique => exact ⟨h.storable, fun _ => rfl⟩
  | notNull => exact ⟨h.storable, h.key⟩
  | references target => exact ⟨h.storable, h.key⟩

namespace Definition

theorem column_isSound {item : String} {column : Column} (h : Definition.column item = .ok column) :
    column.IsSound := by
  unfold Definition.column at h
  split at h
  · exact absurd h (by simp)
  · rename_i name typeName arguments constraints _
    obtain ⟨type, htype, hcolumn⟩ := Action.of_bind_eq_ok h
    have hplain : (Column.plain name type).IsSound :=
      ⟨DataType.ofParts_isStorable htype, fun hkey => absurd hkey (by simp [Column.plain])⟩
    have hfold (constraints : List Constraint) {start : Column} (hstart : start.IsSound) :
        (constraints.foldl Column.constrain start).IsSound := by
      induction constraints generalizing start with
      | nil => exact hstart
      | cons constraint rest ih => exact ih (hstart.constrain constraint)
    rw [← Except.ok.inj hcolumn]
    exact hfold constraints hplain

theorem columnsAfter_isSound {done columns : List Column} {items : List (List Char)}
    (h : columnsAfter done items = .ok columns) (hsound : ∀ column ∈ done, column.IsSound)
    (hdistinct : (done.map Column.name).Nodup) :
    (∀ column ∈ columns, column.IsSound) ∧ (columns.map Column.name).Nodup := by
  induction items generalizing done with
  | nil =>
    rw [← Except.ok.inj h]
    exact ⟨hsound, hdistinct⟩
  | cons item rest ih =>
    rw [columnsAfter] at h
    obtain ⟨column, hitem, hnext⟩ := Action.of_bind_eq_ok h
    by_cases hold : (done.any fun other => other.name == column.name) = true
    · simp only [hold, if_true] at hnext
      exact absurd hnext (by simp [bind, Except.bind])
    · simp only [if_neg hold] at hnext
      refine ih hnext ?_ ?_
      · intro other hother
        rw [List.mem_append, List.mem_singleton] at hother
        rcases hother with hother | rfl
        · exact hsound other hother
        · exact column_isSound hitem
      · rw [List.map_append, List.nodup_append]
        refine ⟨hdistinct, by simp, ?_⟩
        intro name hname other hother
        rw [List.map_singleton, List.mem_singleton] at hother
        rintro rfl
        obtain ⟨before, hbefore, hsame⟩ := List.mem_map.1 hname
        refine hold (List.any_eq_true.2 ⟨before, hbefore, ?_⟩)
        simp [hsame, hother]

/-- Each column comes from an item. -/
theorem exists_of_mem_columnsAfter {done columns : List Column} {items : List (List Char)}
    (h : columnsAfter done items = .ok columns) {column : Column} (hcolumn : column ∈ columns) :
    column ∈ done ∨ ∃ item, Definition.column item = .ok column := by
  induction items generalizing done with
  | nil =>
    rw [← Except.ok.inj h] at hcolumn
    exact .inl hcolumn
  | cons item rest ih =>
    rw [columnsAfter] at h
    obtain ⟨first, hitem, hnext⟩ := Action.of_bind_eq_ok h
    by_cases hold : (done.any fun other => other.name == first.name) = true
    · simp only [hold, if_true] at hnext
      exact absurd hnext (by simp [bind, Except.bind])
    · simp only [if_neg hold] at hnext
      rcases ih hnext with hdone | hlater
      · rw [List.mem_append, List.mem_singleton] at hdone
        rcases hdone with hdone | rfl
        · exact .inl hdone
        · exact .inr ⟨_, hitem⟩
      · exact .inr hlater

/-- A primary key may not be missing. -/
theorem notNull_of_primaryKey {text : String} {columns : List Column}
    (h : Definition.columns text = .ok columns) {column : Column} (hcolumn : column ∈ columns)
    (hkey : column.primaryKey = true) : column.notNull = true := by
  unfold Definition.columns at h
  split at h
  · exact absurd h (by simp)
  rcases exists_of_mem_columnsAfter h hcolumn with hno | ⟨item, hitem⟩
  · exact absurd hno (by simp)
  unfold Definition.column at hitem
  split at hitem
  · exact absurd hitem (by simp)
  rename_i name typeName arguments constraints _
  obtain ⟨type, -, hitem⟩ := Action.of_bind_eq_ok hitem
  have hfold (constraints : List Constraint) {start : Column}
      (hstart : start.primaryKey = true → start.notNull = true) :
      (constraints.foldl Column.constrain start).primaryKey = true →
        (constraints.foldl Column.constrain start).notNull = true := by
    induction constraints generalizing start with
    | nil => exact hstart
    | cons constraint rest ih =>
      refine ih ?_
      cases constraint with
      | primaryKey | notNull => exact fun _ => rfl
      | unique | references => exact hstart
  obtain rfl := Except.ok.inj hitem
  exact @hfold constraints (Column.plain name type) (fun hno => absurd hno (by simp [Column.plain])) hkey

theorem columns_isSound {text : String} {columns : List Column}
    (h : Definition.columns text = .ok columns) :
    (∀ column ∈ columns, column.IsSound) ∧ (columns.map Column.name).Nodup := by
  unfold Definition.columns at h
  split at h
  · exact absurd h (by simp)
  · exact columnsAfter_isSound h (by simp) (by simp)

end Definition

/-- A schema as a table definition gives it. -/
structure TableSchema.IsSound (schema : TableSchema) : Prop where
  columns : ∀ column ∈ schema.columns, column.IsSound
  distinct : (schema.columns.map Column.name).Nodup
  valid : ∀ column ∈ schema.columns, Name.isValid column.name = true

theorem TableSchema.column?_eq_some {schema : TableSchema} {name : String} {column : Column}
    (h : schema.column? name = some column) : column ∈ schema.columns ∧ column.name = name := by
  unfold column? at h
  exact ⟨List.mem_of_find?_eq_some h, by simpa using List.find?_some h⟩

/-! ### The stored form -/

namespace Json

theorem list?_map {α : Type} {make : α → Json} {read : Json → Option α} {list : List α}
    (h : ∀ a ∈ list, read (make a) = some a) : (array (list.map make)).list? read = some list := by
  rw [list?]
  induction list with
  | nil => rfl
  | cons a list ih =>
    have hrest := ih fun b hb => h b (by simp [hb])
    rw [List.map_cons, List.mapM_cons, h a (by simp), hrest]
    rfl

theorem record?_object {names : List String} {members : List (String × Json)}
    (h : members.map Prod.fst = names) (hnodup : names.Nodup) :
    record? names (object members) = some members := by
  have hknown : (members.filter fun member => names.contains member.1) = members := by
    rw [List.filter_eq_self]
    intro member hmember
    rw [List.contains_iff_mem, ← h]
    exact List.mem_map_of_mem hmember
  rw [record?]
  simp only [hknown, h]
  exact if_pos hnodup

end Json

theorem DataType.ofJson?_toJson {type : DataType} (h : type.isStorable = true) :
    DataType.ofJson? type.toJson = some type := by
  cases type with
  | char length =>
    have hlength : length < 2 ^ 64 := by simpa [isStorable] using h
    have hnatural : (Json.natural length).natural? = some length := if_pos hlength
    simp [toJson, ofJson?, hnatural]
  | enum variants =>
    have hlist : (Json.array (variants.map Json.string)).list? Json.string? = some variants :=
      Json.list?_map fun s _ => rfl
    simp [toJson, ofJson?, hlist]
  | _ => decide

theorem Column.ofJson?_toJson {column : Column} (h : column.type.isStorable = true) :
    Column.ofJson? column.toJson = some column := by
  obtain ⟨name, type, primaryKey, unique, notNull, reference⟩ := column
  have htype := DataType.ofJson?_toJson h
  rw [ofJson?, toJson, Json.record?_object (by rfl) (by decide)]
  cases reference with
  | none =>
    simp only [Option.bind_eq_bind, Option.bind_some]
    change (DataType.ofJson? type.toJson).bind _ = _
    rw [htype]
    rfl
  | some target =>
    simp only [Option.bind_eq_bind, Option.bind_some]
    change (DataType.ofJson? type.toJson).bind _ = _
    rw [htype]
    rfl

theorem Permissions.ofJson?_toJson (permissions : Permissions) :
    Permissions.ofJson? permissions.toJson = some permissions := by
  obtain ⟨read, write⟩ := permissions
  have hroles (roles : List Role) :
      (Json.array (roles.map fun role => .string role.name)).list? roleOfJson? = some roles :=
    Json.list?_map fun role _ => Role.ofName?_name role
  rw [ofJson?, toJson, Json.record?_object (by rfl) (by decide)]
  change ((Json.array (read.map fun role => .string role.name)).list? roleOfJson?).bind _ = _
  rw [hroles]
  change ((Json.array (write.map fun role => .string role.name)).list? roleOfJson?).bind _ = _
  rw [hroles]
  rfl

namespace TableSchema

theorem ofJson?_toJson {schema : TableSchema} (h : schema.IsSound) :
    TableSchema.ofJson? schema.toJson = some schema := by
  obtain ⟨database, name, columns, permissions⟩ := schema
  have hcolumns : (Json.array (columns.map Column.toJson)).list? Column.ofJson? = some columns :=
    Json.list?_map fun column hcolumn => Column.ofJson?_toJson (h.columns column hcolumn).storable
  rw [ofJson?, toJson, Json.record?_object (by rfl) (by decide)]
  change ((Json.array (columns.map Column.toJson)).list? Column.ofJson?).bind _ = _
  rw [hcolumns]
  change (Permissions.ofJson? permissions.toJson).bind _ = _
  rw [Permissions.ofJson?_toJson]
  rfl

theorem isWhole_toJson (schema : TableSchema) : schema.toJson.isWhole = true := by
  have htype (type : DataType) : type.toJson.isWhole = true := by
    cases type <;> simp [DataType.toJson, Json.isWhole, Json.membersAreWhole]
  have hcolumn (column : Column) : column.toJson.isWhole = true := by
    obtain ⟨name, type, primaryKey, unique, notNull, reference⟩ := column
    cases reference <;>
      simp [Column.toJson, Reference.toJson, Json.isWhole, Json.membersAreWhole, htype]
  simp [toJson, Permissions.toJson, Json.isWhole, Json.membersAreWhole, hcolumn]

/-- A sound schema is read back from its file. -/
theorem ofText_indented {schema : TableSchema} (h : schema.IsSound) :
    (Json.ofText? (schema.toJson.indented 0)).bind TableSchema.ofJson? = some schema := by
  rw [Json.ofText?_indented schema.isWhole_toJson, Option.bind_some, ofJson?_toJson h]

end TableSchema

end FlatFileDb
