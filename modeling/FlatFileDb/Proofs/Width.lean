import FlatFileDb.Proofs.View

/-!
# Rows as wide as their header

The definitions of queries read an empty text where a row has no field at the position asked for. Here
each of them has a checked counterpart, which fails with an error of its own there, and also where the
header has no column at the position, and where a source, a join or the rows selected have a row that is
not as wide as the header. Whatever this error is, a query comes to the same with the checks and without
them: none of them ever fails. The width is carried from the sources through the joins, and from the
answer of a view's query into the query that uses it.
-/

namespace FlatFileDb

namespace Action

variable {σ α β : Type}

theorem filterM_of_forall {test : α → Except Error Bool} {kept : α → Bool} {list : List α}
    (h : ∀ a ∈ list, test a = .ok (kept a)) : list.filterM test = .ok (list.filter kept) := by
  have hfrom : ∀ found, list.filterAuxM test found = .ok ((list.filter kept).reverse ++ found) := by
    induction list with
    | nil => exact fun _ => rfl
    | cons a rest ih =>
      intro found
      rw [List.filterAuxM, h a (by simp), List.filter_cons]
      refine (ih (fun b hb => h b (List.mem_cons_of_mem a hb)) _).trans ?_
      cases kept a <;> simp
  rw [List.filterM, hfrom []]
  exact congrArg Except.ok (by simp)

theorem mapM_congr {f g : α → Except Error β} {list : List α} (h : ∀ a ∈ list, f a = g a) :
    list.mapM f = list.mapM g := by
  induction list with
  | nil => rfl
  | cons a rest ih =>
    rw [List.mapM_cons, List.mapM_cons, h a (by simp),
      ih fun b hb => h b (List.mem_cons_of_mem a hb)]

/-- Whatever a step results in has a property. -/
def Yields (P : α → Prop) (step : Action σ α) : Prop :=
  ∀ s a, (step s).1 = .ok a → P a

namespace Yields

variable {P : α → Prop}

theorem pure {a : α} (h : P a) : Yields P (pure a : Action σ α) :=
  fun _ _ ha => Except.ok.inj ha ▸ h

theorem throw (e : Error) : Yields P (throw e : Action σ α) :=
  fun _ _ h => absurd h (by simp)

theorem bind {Q : β → Prop} {step : Action σ β} {next : β → Action σ α} (h : Yields Q step)
    (hnext : ∀ b, Q b → Yields P (next b)) : Yields P (step >>= next) := by
  intro s a hresult
  rw [bind_apply] at hresult
  rcases hstep : step s with ⟨failure | b, after⟩
  · rw [hstep] at hresult
    exact absurd hresult (by simp)
  · rw [hstep] at hresult
    exact hnext b (h s b (by rw [hstep])) after a hresult

theorem andThen {step : Action σ β} {next : β → Action σ α} (hnext : ∀ b, Yields P (next b)) :
    Yields P (step >>= next) :=
  bind (fun _ _ _ => trivial : Yields (fun _ => True) step) fun b _ => hnext b

theorem ite {p : Prop} [Decidable p] {yes no : Action σ α} (hyes : Yields P yes)
    (hno : Yields P no) : Yields P (if p then yes else no) := by
  by_cases h : p
  · rw [if_pos h]
    exact hyes
  · rw [if_neg h]
    exact hno

/-- What comes behind a step matters only for the results that the step has. -/
theorem bind_congr {step : Action σ α} (h : Yields P step) {next next' : α → Action σ β}
    (hnext : ∀ a, P a → next a = next' a) : step >>= next = step >>= next' := by
  funext s
  rw [bind_apply, bind_apply]
  rcases hstep : step s with ⟨failure | a, after⟩
  · rfl
  · dsimp only
    rw [hnext a (h s a (by rw [hstep]))]

end Yields

end Action

namespace Condition

theorem evaluateFrom_of_forall {test : Condition → Except Error Bool} {holds : Condition → Bool}
    (conditions : List Condition) (h : ∀ condition ∈ conditions, test condition = .ok (holds condition))
    (outcome : Bool) (connector : Option Connector) :
    evaluateFrom test outcome connector conditions
      = .ok (Id.run (evaluateFrom (fun condition => pure (holds condition)) outcome connector
          conditions)) := by
  induction conditions generalizing outcome connector with
  | nil => rfl
  | cons condition rest ih =>
    rw [evaluateFrom, h condition List.mem_cons_self]
    exact ih (fun other hother => h other (List.mem_cons_of_mem condition hother)) _ _

/-- A chain comes to a result where each of its tests does. -/
theorem evaluate_of_forall {test : Condition → Except Error Bool} {holds : Condition → Bool}
    (conditions : List Condition)
    (h : ∀ condition ∈ conditions, test condition = .ok (holds condition)) :
    evaluate test conditions
      = .ok (Id.run (evaluate (fun condition => pure (holds condition)) conditions)) := by
  cases conditions with
  | nil => rfl
  | cons condition rest =>
    rw [evaluate, h condition List.mem_cons_self]
    exact evaluateFrom_of_forall rest (fun other hother => h other (List.mem_cons_of_mem condition hother)) _ _

end Condition

namespace Relation

variable (outside : Error) {relation left right : Relation} {row : List String} {index : Nat}

/-! ### Checked reading -/

/-- The field of a row at a position, which the row must have. -/
def fieldChecked (row : List String) (index : Nat) : Except Error String :=
  match row[index]? with
  | some field => .ok field
  | none => .error outside

/-- Refuses rows that are not of the given width. -/
def widthChecked (width : Nat) (rows : List (List String)) : Except Error Unit :=
  if ∀ row ∈ rows, row.length = width then .ok () else .error outside

/-- Hands on a relation whose rows are as wide as its header. -/
def checked (relation : Relation) : Except Error Relation := do
  widthChecked outside relation.attributes.length relation.rows
  return relation

/-- Whether every row is as wide as the header. -/
def IsWide (relation : Relation) : Prop :=
  ∀ row ∈ relation.rows, row.length = relation.attributes.length

theorem fieldChecked_eq (h : index < row.length) :
    fieldChecked outside row index = .ok (fieldAt row index) := by
  rw [fieldChecked, fieldAt, List.getElem?_eq_getElem h]
  rfl

/-- A row without the field is refused. -/
example : fieldChecked outside ["1", "a"] 2 = .error outside := rfl

theorem IsWide.checked (h : relation.IsWide) : checked outside relation = .ok relation := by
  have hwidth : widthChecked outside relation.attributes.length relation.rows = .ok () := if_pos h
  rw [Relation.checked, hwidth]
  rfl

/-- A name means a column that the header has. -/
theorem resolve?_lt {name : String} (h : relation.resolve? name = some index) :
    index < relation.attributes.length := by
  have hfound {test : Attribute → Bool} (h : relation.attributes.findIdx? test = some index) :
      index < relation.attributes.length := (List.findIdx?_eq_some_iff_getElem.1 h).1
  simp only [resolve?, Option.orElse_eq_orElse, Option.orElse_eq_or, Option.or_eq_some_iff] at h
  rcases h with hname | ⟨-, hqualified | ⟨-, hend⟩⟩
  · exact hfound hname
  · exact hfound hqualified
  · split at hend
    · exact absurd hend (by simp)
    · exact hfound hend

theorem require_lt {name : String} (h : relation.require name = .ok index) :
    index < relation.attributes.length := by
  unfold require at h
  split at h
  · rename_i found hfound
    rw [← Except.ok.inj h]
    exact resolve?_lt hfound
  · exact absurd h (by simp)

/-! ### Sources -/

theorem isWide_ofTable (schema : TableSchema) (rows : List String) :
    (ofTable schema rows).IsWide := by
  intro row hrow
  obtain ⟨text, -, rfl⟩ := List.mem_map.1 hrow
  rw [Row.length_resize, ofTable, List.length_map]

theorem isWide_ofView (name : String) (outcome : Outcome) : (ofView name outcome).IsWide := by
  intro row hrow
  obtain ⟨shown, -, rfl⟩ := List.mem_map.1 hrow
  rw [Row.length_resize, ofView, List.length_map]

/-! ### Selection -/

/-- Whether a row fulfils a condition, its field and the type of the column read with a check. -/
def fulfilsChecked (relation : Relation) (row : List String) (condition : Condition) :
    Except Error Bool :=
  match relation.resolve? condition.field with
  | none => .ok false
  | some index =>
    match relation.attributes[index]? with
    | none => .error outside
    | some column => do
      let field ← fieldChecked outside row index
      return Condition.compareTyped column.type field condition.operator condition.value

/-- The rows that fulfil a chain of conditions, all of them as wide as the header. -/
def selectChecked (relation : Relation) (conditions : List Condition) : Except Error Relation := do
  let rows ← relation.rows.filterM fun row =>
    Condition.evaluate (relation.fulfilsChecked outside row) conditions
  checked outside { relation with rows }

theorem fulfilsChecked_eq (h : row.length = relation.attributes.length) (condition : Condition) :
    relation.fulfilsChecked outside row condition = .ok (relation.fulfils row condition) := by
  unfold fulfilsChecked fulfils
  cases hfound : relation.resolve? condition.field with
  | none => rfl
  | some index =>
    have hindex := resolve?_lt hfound
    dsimp only
    rw [List.getElem?_eq_getElem hindex]
    dsimp only
    rw [fieldChecked_eq outside (h ▸ hindex)]
    rfl

theorem IsWide.select (h : relation.IsWide) (conditions : List Condition) :
    (relation.select conditions).IsWide :=
  fun row hrow => h row (List.mem_filter.1 hrow).1

theorem IsWide.selectChecked (h : relation.IsWide) (conditions : List Condition) :
    relation.selectChecked outside conditions = .ok (relation.select conditions) := by
  have hrows := Action.filterM_of_forall fun row hrow =>
    Condition.evaluate_of_forall conditions fun condition _ => fulfilsChecked_eq outside (h row hrow) condition
  rw [Relation.selectChecked, hrows]
  exact IsWide.checked outside (h.select conditions)

/-! ### Joins -/

/-- Whether two rows match in the given columns. -/
def matchChecked (leftColumn rightColumn : Nat) (l r : List String) : Except Error Bool := do
  return keysMatch (← fieldChecked outside l leftColumn) (← fieldChecked outside r rightColumn)

/-- The rows of a join on the given columns; every row of one side is compared with every row of the
other. -/
def joinRowsChecked (kind : JoinKind) (left right : Relation) (leftColumn rightColumn : Nat) :
    Except Error (List (List String)) := do
  let fromLeft ← left.rows.mapM fun l => do
    let partners ← right.rows.filterM (matchChecked outside leftColumn rightColumn l)
    return if partners.isEmpty && keepsLeft kind then [l ++ nullRow right.attributes.length]
      else partners.map (l ++ ·)
  let unmatched ← right.rows.filterM fun r => do
    let partners ← left.rows.filterM (matchChecked outside leftColumn rightColumn · r)
    return partners.isEmpty
  return if keepsRight kind then
      fromLeft.flatten ++ unmatched.map (nullRow left.attributes.length ++ ·)
    else fromLeft.flatten

/-- The join of two relations, all its rows as wide as its header. -/
def joinChecked (left right : Relation) (clause : Join) : Except Error Relation := do
  let (leftColumn, rightColumn) ← joinColumns left right clause
  let rows ← joinRowsChecked outside clause.kind left right leftColumn rightColumn
  checked outside {
    name := left.name
    attributes := (left.attributes ++ right.attributes).map fun a => { a with name := a.qualified }
    rows }

theorem joinColumns_lt {clause : Join} {columns : Nat × Nat}
    (h : joinColumns left right clause = .ok columns) :
    columns.1 < left.attributes.length ∧ columns.2 < right.attributes.length := by
  unfold joinColumns at h
  split at h
  · rename_i l r hl hr
    rw [← Except.ok.inj h]
    exact ⟨resolve?_lt hl, resolve?_lt hr⟩
  · split at h
    · rename_i l r hl hr
      rw [← Except.ok.inj h]
      exact ⟨resolve?_lt hl, resolve?_lt hr⟩
    · split at h <;> exact absurd h (by simp)

theorem joinRowsChecked_eq (hleft : left.IsWide) (hright : right.IsWide) (kind : JoinKind)
    {leftColumn rightColumn : Nat} (hl : leftColumn < left.attributes.length)
    (hr : rightColumn < right.attributes.length) :
    joinRowsChecked outside kind left right leftColumn rightColumn
      = .ok (joinRows kind left right leftColumn rightColumn) := by
  have hmatch : ∀ l ∈ left.rows, ∀ r ∈ right.rows, matchChecked outside leftColumn rightColumn l r
      = .ok (keysMatch (fieldAt l leftColumn) (fieldAt r rightColumn)) := by
    intro l hlrow r hrrow
    rw [matchChecked, fieldChecked_eq outside (hleft l hlrow ▸ hl),
      fieldChecked_eq outside (hright r hrrow ▸ hr)]
    rfl
  unfold joinRowsChecked
  rw [Action.mapM_of_forall fun l hlrow => by
    rw [Action.filterM_of_forall (hmatch l hlrow)]
    rfl]
  dsimp only [bind, Except.bind]
  rw [Action.filterM_of_forall fun r hrrow => by
    rw [Action.filterM_of_forall fun l hlrow => hmatch l hlrow r hrrow]
    rfl]
  have hempty : ∀ r, (left.rows.filter fun l => keysMatch (fieldAt l leftColumn)
      (fieldAt r rightColumn)).isEmpty
        = !left.rows.any fun l => keysMatch (fieldAt l leftColumn) (fieldAt r rightColumn) :=
    fun r => by rw [Bool.eq_iff_iff]; simp
  simp only [joinRows, hempty, List.flatMap_def]
  rfl

/-- A row of a join is put together from a row of each side, or from a row of one side and nulls. -/
theorem mem_joinRows {kind : JoinKind} {leftColumn rightColumn : Nat}
    (h : row ∈ joinRows kind left right leftColumn rightColumn) :
    ∃ l r, row = l ++ r ∧ (l ∈ left.rows ∧ r ∈ right.rows ∨
      l ∈ left.rows ∧ r = nullRow right.attributes.length ∨
      l = nullRow left.attributes.length ∧ r ∈ right.rows) := by
  have hfromLeft : ∀ l ∈ left.rows, ∀ partners : List (List String),
      (∀ r ∈ partners, r ∈ right.rows) →
        row ∈ (if partners.isEmpty && keepsLeft kind then [l ++ nullRow right.attributes.length]
          else partners.map (l ++ ·)) →
            ∃ l r, row = l ++ r ∧ (l ∈ left.rows ∧ r ∈ right.rows ∨
              l ∈ left.rows ∧ r = nullRow right.attributes.length ∨
              l = nullRow left.attributes.length ∧ r ∈ right.rows) := by
    intro l hl partners hpartners hrow
    split at hrow
    · exact ⟨l, _, List.mem_singleton.1 hrow, .inr (.inl ⟨hl, rfl⟩)⟩
    · obtain ⟨r, hr, rfl⟩ := List.mem_map.1 hrow
      exact ⟨l, r, rfl, .inl ⟨hl, hpartners r hr⟩⟩
  unfold joinRows at h
  dsimp only at h
  split at h
  · rcases List.mem_append.1 h with h | h
    · obtain ⟨l, hl, hrow⟩ := List.mem_flatMap.1 h
      exact hfromLeft l hl _ (fun r hr => (List.mem_filter.1 hr).1) hrow
    · obtain ⟨r, hr, rfl⟩ := List.mem_map.1 h
      exact ⟨_, r, rfl, .inr (.inr ⟨rfl, (List.mem_filter.1 hr).1⟩)⟩
  · obtain ⟨l, hl, hrow⟩ := List.mem_flatMap.1 h
    exact hfromLeft l hl _ (fun r hr => (List.mem_filter.1 hr).1) hrow

theorem isWide_join {clause : Join} (hleft : left.IsWide) (hright : right.IsWide)
    {joined : Relation} (h : left.join right clause = .ok joined) : joined.IsWide := by
  obtain ⟨⟨leftColumn, rightColumn⟩, -, h⟩ := Action.of_bind_eq_ok h
  obtain rfl := Except.ok.inj h
  intro row hrow
  rw [List.length_map, List.length_append]
  obtain ⟨l, r, rfl, hparts⟩ := mem_joinRows hrow
  rw [List.length_append]
  rcases hparts with ⟨hl, hr⟩ | ⟨hl, rfl⟩ | ⟨rfl, hr⟩
  · rw [hleft l hl, hright r hr]
  · rw [hleft l hl, nullRow, List.length_replicate]
  · rw [hright r hr, nullRow, List.length_replicate]

theorem joinChecked_eq (hleft : left.IsWide) (hright : right.IsWide) (clause : Join) :
    joinChecked outside left right clause = left.join right clause := by
  unfold joinChecked join
  cases hcolumns : joinColumns left right clause with
  | error failure => rfl
  | ok columns =>
    obtain ⟨hl, hr⟩ := joinColumns_lt hcolumns
    dsimp only [bind, Except.bind]
    rw [joinRowsChecked_eq outside hleft hright clause.kind hl hr]
    refine IsWide.checked outside (@isWide_join left right clause hleft hright _ ?_)
    rw [join, hcolumns]
    rfl

/-! ### Groups -/

/-- The rows by the value of a column, which is read with a check. -/
def groupsChecked (relation : Relation) (index : Nat) :
    Except Error (List (List (List String))) := do
  let named ← relation.rows.mapM fun row => do
    return (groupName (← fieldChecked outside row index), row)
  return (groupBy Prod.fst named).map fun group => group.2.map Prod.snd

/-- Whether a group fulfils one condition on groups. -/
def groupFulfilsChecked (relation : Relation) (group : List (List String)) (condition : Condition) :
    Except Error Bool := do
  match ← Aggregate.ofField? condition.field with
  | some aggregate =>
    let value ← aggregate.compute relation group
    return Condition.compareRendered value condition.operator condition.value
  | none =>
    match group with
    | [] => return false
    | first :: _ => relation.fulfilsChecked outside first condition

/-- What a group shows of one field. -/
def groupFieldChecked (relation : Relation) (group : List (List String)) :
    String × Option Aggregate → Except Error String
  | (_, some aggregate) => aggregate.compute relation group
  | (field, none) => do
    let index ← relation.require field
    match group with
    | [] => return Field.nullText
    | first :: _ => fieldChecked outside first index

/-- The row that a group shows, if it fulfils the conditions on groups. -/
def groupRowChecked (relation : Relation) (having : List Condition)
    (fields : List (String × Option Aggregate)) (group : List (List String)) :
    Except Error (Option (List String)) := do
  if ← Condition.evaluate (relation.groupFulfilsChecked outside group) having then
    return some (← fields.mapM (relation.groupFieldChecked outside group))
  else return none

theorem groupsChecked_eq (h : relation.IsWide) (hindex : index < relation.attributes.length) :
    relation.groupsChecked outside index = .ok (relation.groups index) := by
  unfold groupsChecked
  rw [Action.mapM_of_forall fun row hrow => by
    rw [fieldChecked_eq outside (h row hrow ▸ hindex)]
    rfl]
  refine congrArg Except.ok ?_
  rw [groups, groupBy_eq, groupBy_eq, List.map_map, List.map_map, List.map_map]
  refine List.map_congr_left fun name _ => ?_
  simp only [Function.comp_apply, List.filter_map, List.map_map]
  exact List.map_id _

/-- A group consists of rows of the relation. -/
theorem mem_of_mem_groups {group : List (List String)} (hgroup : group ∈ relation.groups index)
    (hrow : row ∈ group) : row ∈ relation.rows := by
  rw [groups, groupBy_eq, List.map_map] at hgroup
  obtain ⟨name, -, rfl⟩ := List.mem_map.1 hgroup
  exact (List.mem_filter.1 hrow).1

variable {group : List (List String)}

theorem groupFulfilsChecked_eq (h : ∀ row ∈ group, row.length = relation.attributes.length) :
    relation.groupFulfilsChecked outside group = relation.groupFulfils group := by
  funext condition
  unfold groupFulfilsChecked groupFulfils
  cases group with
  | nil => rfl
  | cons first rest =>
    have hfirst := fulfilsChecked_eq outside (h first (by simp)) condition
    simp only [hfirst]
    rfl

theorem groupFieldChecked_eq (h : ∀ row ∈ group, row.length = relation.attributes.length) :
    relation.groupFieldChecked outside group = relation.groupField group := by
  funext ⟨field, aggregate⟩
  cases aggregate with
  | some aggregate => rfl
  | none =>
    dsimp only [groupFieldChecked, groupField]
    cases hfound : relation.require field with
    | error failure => rfl
    | ok index =>
      cases group with
      | nil => rfl
      | cons first rest =>
        exact fieldChecked_eq outside (h first (by simp) ▸ require_lt hfound)

theorem groupRowChecked_eq (h : ∀ row ∈ group, row.length = relation.attributes.length)
    (having : List Condition) (fields : List (String × Option Aggregate)) :
    relation.groupRowChecked outside having fields group
      = relation.groupRow having fields group := by
  rw [groupRowChecked, groupRow, groupFulfilsChecked_eq outside h, groupFieldChecked_eq outside h]

/-! ### Projection -/

/-- The header and the rows that a query shows of the rows selected, every field read with a check. -/
def projectChecked (relation : Relation) (query : Query) :
    Except Error (List String × List (List String)) := do
  let names := if query.isWildcard then relation.header else query.fields
  let fields ← names.mapM readField
  match query.groupBy with
  | some column =>
    let index ← relation.require column
    let rows ← (← relation.groupsChecked outside index).mapM
      (relation.groupRowChecked outside query.having fields)
    return (names, rows.filterMap fun row => row)
  | none =>
    if fields.any fun field => field.2.isSome then
      let row ← relation.groupRowChecked outside query.having fields relation.rows
      return (names, row.toList)
    else if !query.having.isEmpty then throw .havingWithoutGroups
    else
      let indices ← names.mapM relation.require
      return (names, ← relation.rows.mapM fun row => indices.mapM (fieldChecked outside row))

theorem IsWide.projectChecked (h : relation.IsWide) (query : Query) :
    relation.projectChecked outside query = relation.project query := by
  unfold Relation.projectChecked project
  generalize (if query.isWildcard then relation.header else query.fields) = names
  dsimp only
  cases hfields : names.mapM readField with
  | error failure => rfl
  | ok fields =>
  dsimp only [bind, Except.bind]
  cases query.groupBy with
  | some column =>
    dsimp only
    cases hindex : relation.require column with
    | error failure => rfl
    | ok index =>
      dsimp only
      rw [groupsChecked_eq outside h (require_lt hindex)]
      have hrows : (relation.groups index).mapM (relation.groupRowChecked outside query.having fields)
          = (relation.groups index).mapM (relation.groupRow query.having fields) :=
        Action.mapM_congr fun group hgroup =>
          groupRowChecked_eq outside (fun row hrow => h row (mem_of_mem_groups hgroup hrow)) _ _
      dsimp only
      rw [hrows]
  | none =>
    dsimp only
    rw [groupRowChecked_eq outside h]
    split
    · rfl
    split
    · rfl
    cases hindices : names.mapM relation.require with
    | error failure => rfl
    | ok indices =>
      obtain ⟨position, rfl, hposition⟩ := Action.mapM_eq_ok hindices
      have hindex : ∀ index ∈ names.map position, index < relation.attributes.length := by
        intro index hindex
        obtain ⟨name, hname, rfl⟩ := List.mem_map.1 hindex
        exact require_lt (hposition name hname)
      have hrows : relation.rows.mapM (fun row =>
          (names.map position).mapM (fieldChecked outside row))
          = .ok (relation.rows.map fun row => (names.map position).map (fieldAt row)) :=
        Action.mapM_of_forall fun row hrow => Action.mapM_of_forall fun index hmem =>
          fieldChecked_eq outside (h row hrow ▸ hindex index hmem)
      dsimp only
      rw [hrows]

/-! ### Ordering and the answer -/

/-- The rows in the order asked for, the key of every row read with a check. -/
def orderChecked (table : String) (columns : List String) (rows : List (List String)) :
    Option OrderBy → Except Error (List (List String))
  | none => .ok rows
  | some key =>
    match shownColumn? columns key.column with
    | some index => do
      let keyed ← rows.mapM fun row => do
        return (Loose.ofText (← fieldChecked outside row index), row)
      return (keyed.mergeSort fun a b => !comesBefore key.descending b.1 a.1).map Prod.snd
    | none => .error (.unknownColumn key.column table)

/-- What a query answers, every field read with a check, the rows as wide as the header at each
stage. -/
def answerChecked (relation : Relation) (query : Query) : Except Error Outcome := do
  let selected ← relation.selectChecked outside query.conditions
  let (columns, rows) ← selected.projectChecked outside query
  widthChecked outside columns.length rows
  let rows ← orderChecked outside query.table columns rows query.orderBy
  return Outcome.ofRows columns (paginate query.limit query.offset rows)

theorem shownColumn?_lt {columns : List String} {name : String}
    (h : shownColumn? columns name = some index) : index < columns.length := by
  simp only [shownColumn?, Option.orElse_eq_orElse, Option.orElse_eq_or, Option.or_eq_some_iff] at h
  rcases h with h | ⟨-, h⟩ <;> exact (List.findIdx?_eq_some_iff_getElem.1 h).1

theorem orderChecked_eq {columns : List String} {rows : List (List String)}
    (h : ∀ row ∈ rows, row.length = columns.length) (table : String) (key : Option OrderBy) :
    orderChecked outside table columns rows key = order table columns rows key := by
  cases key with
  | none => rfl
  | some key =>
    dsimp only [orderChecked, order]
    cases hfound : shownColumn? columns key.column with
    | none => rfl
    | some index =>
      dsimp only
      rw [Action.mapM_of_forall fun row hrow => by
        rw [fieldChecked_eq outside (h row hrow ▸ shownColumn?_lt hfound)]
        rfl]
      rfl

/-- A row that stands under a header is as wide as it. -/
theorem length_of_isUnder {columns : List String} (h : Outcome.IsUnder columns row) :
    row.length = columns.length := by
  obtain ⟨value, rfl⟩ := h
  exact List.length_map _

theorem IsWide.answerChecked (h : relation.IsWide) (query : Query) :
    relation.answerChecked outside query = relation.answer query := by
  unfold Relation.answerChecked answer
  rw [h.selectChecked outside]
  dsimp only [bind, Except.bind]
  rw [(h.select _).projectChecked outside]
  cases hproject : (relation.select query.conditions).project query with
  | error failure => rfl
  | ok shown =>
    obtain ⟨columns, rows⟩ := shown
    have hrows : ∀ row ∈ rows, row.length = columns.length := fun row hrow =>
      length_of_isUnder ((project_eq_ok hproject).2 row hrow)
    have hwidth : widthChecked outside columns.length rows = .ok () := if_pos hrows
    dsimp only
    rw [hwidth, orderChecked_eq outside hrows]

end Relation

namespace Engine

variable (outside : Error) {executing : Executing} {who : Identity} {database : String}

/-- A way of running queries. -/
abbrev Asking := Identity → Query → Action Engine Outcome

/-! ### Checked queries -/

/-- A table as a relation, its rows as wide as the header. -/
def tableSourceChecked (who : Identity) (database name : String) (condition : Option Condition) :
    Action Engine Relation := do
  let relation ← tableSource who database name condition
  Action.ofExcept (relation.checked outside)

/-- The result of a view's query as a relation, its rows as wide as the header. -/
def viewSourceChecked (asking : Asking) (who : Identity) (database name : String) :
    Action Engine Relation := do
  Action.ofExcept (who.requireRole .user)
  let text ← readDisk (View.load · database name)
  match ← Action.ofExcept (Statement.parse text) with
  | .select query =>
    Action.ofExcept ((Relation.ofView name (← asking who query)).checked outside)
  | _ => throw (.viewWithoutQuery name)

/-- A table or a view as a relation. -/
def sourceChecked (asking : Asking) (who : Identity) (database name : String)
    (condition : Option Condition) : Action Engine Relation := do
  if ← look (hasSchema · database name) then
    tableSourceChecked outside who database name condition
  else if ← look (View.isPresent · database name) then
    viewSourceChecked outside asking who database name
  else throw (.unknownTable name)

/-- A relation joined with further sources, each join checked. -/
def joinSourcesChecked (asking : Asking) (who : Identity) (database : String) (relation : Relation) :
    List Join → Action Engine Relation
  | [] => pure relation
  | join :: rest => do
    let right ← sourceChecked outside asking who database join.table none
    let relation ← Action.ofExcept (relation.joinChecked outside right join)
    joinSourcesChecked asking who database relation rest

/-- Runs a query with all checks. -/
def selectChecked (asking : Asking) (who : Identity) (database : String) (query : Query) :
    Action Engine Outcome := do
  let first ← sourceChecked outside asking who database query.table (narrowing? query)
  let relation ← joinSourcesChecked outside asking who database first query.joins
  Action.ofExcept (relation.answerChecked outside query)

/-- Runs a query with a budget of nesting and all checks, also in the queries of views. -/
def askChecked : Nat → Asking
  | 0, _, _ => Action.read fun engine => .error (.nestingTooDeep engine.settings.nestingLimit)
  | budget + 1, who, query => do
    let database ← Action.ofExcept who.requireDatabase
    selectChecked outside (askChecked budget) who database query

/-! ### The checks never fail -/

theorem yields_tableSource (name : String) (condition : Option Condition) :
    Action.Yields Relation.IsWide (tableSource who database name condition) :=
  .andThen fun _ => .andThen fun _ => .andThen fun _ => .andThen fun _ =>
    .pure (Relation.isWide_ofTable _ _)

theorem yields_viewSource (name : String) :
    Action.Yields Relation.IsWide (viewSource executing who database name) := by
  refine .andThen fun _ => .andThen fun _ => .andThen fun command => ?_
  cases command with
  | select query => exact .andThen fun _ => .pure (Relation.isWide_ofView name _)
  | _ => exact .throw _

theorem yields_source (name : String) (condition : Option Condition) :
    Action.Yields Relation.IsWide (source executing who database name condition) :=
  .andThen fun _ => .ite (yields_tableSource name condition)
    (.andThen fun _ => .ite (yields_viewSource name) (.throw _))

theorem yields_join {left right : Relation} (hleft : left.IsWide) (hright : right.IsWide)
    (clause : Join) :
    Action.Yields Relation.IsWide (Action.ofExcept (left.join right clause) : Action Engine Relation) :=
  fun _ _ hjoin => Relation.isWide_join hleft hright hjoin

theorem yields_joinSources {relation : Relation} (hwide : relation.IsWide) (joins : List Join) :
    Action.Yields Relation.IsWide (joinSources executing who database relation joins) := by
  induction joins generalizing relation with
  | nil => exact .pure hwide
  | cons join rest ih =>
    exact (yields_source join.table none).bind fun right hright =>
      (yields_join hwide hright join).bind fun joined hjoined => ih hjoined

theorem tableSourceChecked_eq (name : String) (condition : Option Condition) :
    tableSourceChecked outside who database name condition
      = tableSource who database name condition := by
  conv => rhs; rw [← bind_pure (tableSource who database name condition)]
  refine (yields_tableSource name condition).bind_congr fun relation hwide => ?_
  rw [hwide.checked outside]
  rfl

section Asking

variable {asking : Asking} (hasking : ∀ who query, asking who query = executing who (.select query))
include hasking

theorem viewSourceChecked_eq (name : String) :
    viewSourceChecked outside asking who database name = viewSource executing who database name := by
  refine bind_congr fun _ => bind_congr fun _ => bind_congr fun command => ?_
  cases command with
  | select query =>
    dsimp only
    rw [hasking]
    refine bind_congr fun outcome => ?_
    rw [(Relation.isWide_ofView name outcome).checked outside]
    rfl
  | _ => rfl

theorem sourceChecked_eq (name : String) (condition : Option Condition) :
    sourceChecked outside asking who database name condition
      = source executing who database name condition := by
  rw [sourceChecked, source, tableSourceChecked_eq, viewSourceChecked_eq outside hasking]

theorem joinSourcesChecked_eq {relation : Relation} (hwide : relation.IsWide) (joins : List Join) :
    joinSourcesChecked outside asking who database relation joins
      = joinSources executing who database relation joins := by
  induction joins generalizing relation with
  | nil => rfl
  | cons join rest ih =>
    change sourceChecked outside asking who database join.table none >>= (fun right =>
        Action.ofExcept (relation.joinChecked outside right join) >>= fun joined =>
          joinSourcesChecked outside asking who database joined rest)
      = source executing who database join.table none >>= fun right =>
        Action.ofExcept (relation.join right join) >>= fun joined =>
          joinSources executing who database joined rest
    rw [sourceChecked_eq outside hasking]
    refine (yields_source join.table none).bind_congr fun right hright => ?_
    rw [Relation.joinChecked_eq outside hwide hright]
    exact (yields_join hwide hright join).bind_congr fun joined hjoined => ih hjoined

theorem selectChecked_eq (query : Query) :
    selectChecked outside asking who database query = select executing who database query := by
  unfold selectChecked select
  rw [sourceChecked_eq outside hasking]
  refine (yields_source query.table _).bind_congr fun first hfirst => ?_
  rw [joinSourcesChecked_eq outside hasking hfirst]
  refine (yields_joinSources hfirst query.joins).bind_congr fun relation hwide => ?_
  rw [hwide.answerChecked outside]

end Asking

theorem askChecked_eq (budget : Nat) (who : Identity) (query : Query) :
    askChecked outside budget who query = executeWithin budget who (.select query) := by
  induction budget generalizing who query with
  | zero => rfl
  | succ budget ih =>
    rw [askChecked, executeWithin, perform_select]
    simp only [selectChecked_eq outside ih]

/-- In every state a query comes to the same with and without checks, whatever error a failing check
would give, and every row that it answers is as wide as the header. -/
theorem select_inBounds (outside : Error) (budget : Nat) (who : Identity) (query : Query) :
    askChecked outside budget who query = executeWithin budget who (.select query) ∧
      ∀ e outcome, (executeWithin budget who (.select query) e).1 = .ok outcome →
        ∀ row ∈ outcome.rows, row.length = outcome.columns.length :=
  ⟨askChecked_eq outside budget who query, fun _ _ h _ hrow =>
    Relation.length_of_isUnder ((isAnswer_of_executeWithin h).rows _ hrow)⟩

end Engine

end FlatFileDb
