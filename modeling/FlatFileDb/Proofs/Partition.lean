import FlatFileDb.Proofs.Width
import Mathlib.Algebra.BigOperators.Group.List.Lemmas
import Mathlib.Data.List.Dedup

/-!
# Groups of rows

A grouping query splits the rows that it selected by the value of one column, a missing value counting as
one value more, and shows one row for each value, in the order in which the values first appear. No row is
lost or counted twice, so the sizes of the groups add up to the number of rows. Conditions on groups only
leave rows out: a group that fulfils them shows the row that it shows without them.
-/

namespace FlatFileDb

namespace Text

/-- Texts without repetitions stand in the order in which they first appear. -/
theorem pairwise_firstOccurrences (texts : List String) :
    (firstOccurrences texts).Pairwise fun s t => texts.idxOf s < texts.idxOf t := by
  induction texts with
  | nil => exact .nil
  | cons first rest ih =>
    have hlater {s : String} (hs : s ∈ (firstOccurrences rest).filter fun t => t != first) :
        (first :: rest).idxOf s = rest.idxOf s + 1 := by
      have hne : s ≠ first := by simpa using (List.mem_filter.1 hs).2
      exact List.idxOf_cons_ne rest hne.symm
    rw [firstOccurrences_cons, List.pairwise_cons]
    constructor
    · intro s hs
      rw [List.idxOf_cons_self, hlater hs]
      omega
    · refine (ih.filter _).imp_of_mem fun {s t} hs ht hst => ?_
      rw [hlater hs, hlater ht]
      omega

theorem perm_dedup_firstOccurrences (texts : List String) :
    (firstOccurrences texts).Perm texts.dedup := by
  rw [List.perm_ext_iff_of_nodup (nodup_firstOccurrences texts) (List.nodup_dedup texts)]
  simp

/-- The numbers of elements with each name add up to the number of all elements. -/
theorem sum_length_filter {α : Type} (name : α → String) (xs : List α) :
    ((firstOccurrences (xs.map name)).map fun s => (xs.filter fun x => name x == s).length).sum
      = xs.length := by
  have hcount : (fun s => (xs.filter fun x => name x == s).length)
      = fun s => (xs.map name).count s := by
    funext s
    rw [List.count, List.countP_map, List.countP_eq_length_filter]
    rfl
  rw [hcount, ((perm_dedup_firstOccurrences _).map _).sum_eq, List.sum_map_count_dedup_eq_length,
    List.length_map]

end Text

namespace Relation

variable {relation : Relation} {query : Query} {group : List (List String)} {having : List Condition}
  {field column : String} {index : Nat}

/-- Two values belong to one group if they are the same or both are missing. -/
theorem groupName_eq_iff (a b : String) :
    groupName a = groupName b ↔ a = b ∨ Field.isNull a = true ∧ Field.isNull b = true := by
  constructor
  · intro h
    unfold groupName at h
    split at h <;> split at h
    case isTrue.isTrue ha hb => exact .inr ⟨ha, hb⟩
    case isTrue.isFalse hb => exact absurd (h ▸ rfl) hb
    case isFalse.isTrue ha _ => exact absurd (h ▸ rfl) ha
    case isFalse.isFalse => exact .inl h
  · rintro (rfl | ⟨ha, hb⟩)
    · rfl
    · rw [groupName, groupName, if_pos ha, if_pos hb]

/-- The rows of one group. -/
def groupOf (relation : Relation) (index : Nat) (name : String) : List (List String) :=
  relation.rows.filter fun row => groupName (fieldAt row index) == name

/-- The names of the groups in the order in which they first appear. -/
def groupNames (relation : Relation) (index : Nat) : List String :=
  Text.firstOccurrences (relation.rows.map fun row => groupName (fieldAt row index))

theorem groups_eq (relation : Relation) (index : Nat) :
    relation.groups index = (relation.groupNames index).map (relation.groupOf index) := by
  rw [groups, groupBy_eq, List.map_map]
  rfl

/-- The fields that a query shows of a relation. -/
def shownFields (relation : Relation) (query : Query) : List String :=
  if query.isWildcard then relation.header else query.fields

/-! ### Fields and conditions that come to a value -/

/-- Whether an aggregate can be computed: it counts rows, or its argument means a column. -/
def CanCompute (relation : Relation) (aggregate : Aggregate) : Prop :=
  aggregate.argument = "*" ∨ ∃ index, relation.resolve? aggregate.argument = some index

/-- Whether a group can show a field: an aggregate that can be computed, or a column. -/
def CanShow (relation : Relation) (field : String) : Prop :=
  (∃ aggregate, Aggregate.ofField? field = .ok (some aggregate) ∧ relation.CanCompute aggregate) ∨
    Aggregate.ofField? field = .ok none ∧ ∃ index, relation.resolve? field = some index

/-- Whether a condition on groups can be tested: it is on an aggregate that can be computed, or on a
plain name. -/
def CanTest (relation : Relation) (condition : Condition) : Prop :=
  (∃ aggregate, Aggregate.ofField? condition.field = .ok (some aggregate) ∧
    relation.CanCompute aggregate) ∨ Aggregate.ofField? condition.field = .ok none

theorem require_of_resolve? (h : relation.resolve? field = some index) :
    relation.require field = .ok index := by
  rw [require, h]

theorem CanCompute.exists_value {aggregate : Aggregate} (h : relation.CanCompute aggregate)
    (group : List (List String)) : ∃ value, aggregate.compute relation group = .ok value := by
  unfold Aggregate.compute
  rcases h with hstar | ⟨index, hindex⟩
  · rw [if_pos (beq_iff_eq.2 hstar)]
    exact ⟨_, rfl⟩
  · split
    · exact ⟨_, rfl⟩
    · rw [require_of_resolve? hindex]
      exact ⟨_, rfl⟩

/-- The aggregate that a field spells, if it spells one. -/
def spelledIn (field : String) : Option Aggregate :=
  (Aggregate.ofField? field).toOption.getD none

/-- What a group shows of a field. -/
def shownIn (relation : Relation) (group : List (List String)) (field : String) : String :=
  (relation.groupField group (field, spelledIn field)).toOption.getD Field.nullText

theorem spelledIn_of_ofField? {spelled : Option Aggregate}
    (h : Aggregate.ofField? field = .ok spelled) : spelledIn field = spelled := by
  rw [spelledIn, h]
  rfl

theorem CanShow.readField (h : relation.CanShow field) :
    readField field = .ok (field, spelledIn field) := by
  have hspelled : ∃ spelled, Aggregate.ofField? field = .ok spelled := by
    rcases h with ⟨aggregate, hspelled, -⟩ | ⟨hspelled, -⟩
    · exact ⟨_, hspelled⟩
    · exact ⟨_, hspelled⟩
  obtain ⟨spelled, hspelled⟩ := hspelled
  rw [Relation.readField, hspelled, spelledIn_of_ofField? hspelled]
  rfl

theorem CanShow.groupField (h : relation.CanShow field) (group : List (List String)) :
    relation.groupField group (field, spelledIn field) = .ok (relation.shownIn group field) := by
  have hvalue : ∃ value, relation.groupField group (field, spelledIn field) = .ok value := by
    rcases h with ⟨aggregate, hspelled, hcompute⟩ | ⟨hspelled, index, hindex⟩
    · rw [spelledIn_of_ofField? hspelled]
      exact hcompute.exists_value group
    · rw [spelledIn_of_ofField? hspelled, Relation.groupField, require_of_resolve? hindex]
      exact ⟨_, rfl⟩
  obtain ⟨value, hvalue⟩ := hvalue
  rw [shownIn, hvalue]
  rfl

theorem shownIn_aggregate {aggregate : Aggregate} {value : String}
    (h : Aggregate.ofField? field = .ok (some aggregate))
    (hvalue : aggregate.compute relation group = .ok value) : relation.shownIn group field = value := by
  rw [shownIn, spelledIn_of_ofField? h, Relation.groupField, hvalue]
  rfl

/-- Counting rows counts those of the group. -/
theorem shownIn_count (h : Aggregate.ofField? field = .ok (some ⟨.count, "*"⟩)) :
    relation.shownIn group field = Aggregate.countText group.length :=
  shownIn_aggregate h (if_pos rfl)

/-- A plain column shows the first row of the group. -/
theorem shownIn_plain (h : Aggregate.ofField? field = .ok none)
    (hindex : relation.resolve? field = some index) {first : List String}
    (hfirst : group.head? = some first) : relation.shownIn group field = fieldAt first index := by
  rw [shownIn, spelledIn_of_ofField? h, Relation.groupField, require_of_resolve? hindex, hfirst]
  rfl

/-- Whether a group fulfils a condition: an aggregate is compared, a plain column in the first row. -/
def groupHolds (relation : Relation) (group : List (List String)) (condition : Condition) : Bool :=
  match spelledIn condition.field, group with
  | some aggregate, group =>
    Condition.compareRendered ((aggregate.compute relation group).toOption.getD Field.nullText)
      condition.operator condition.value
  | none, first :: _ => relation.fulfils first condition
  | none, [] => false

/-- Whether a group fulfils a chain of conditions. -/
def groupSatisfies (relation : Relation) (having : List Condition) (group : List (List String)) :
    Bool :=
  Id.run (Condition.evaluate (fun condition => pure (relation.groupHolds group condition)) having)

theorem CanTest.groupFulfils {condition : Condition} (h : relation.CanTest condition)
    (group : List (List String)) :
    relation.groupFulfils group condition = .ok (relation.groupHolds group condition) := by
  unfold Relation.groupFulfils groupHolds
  rcases h with ⟨aggregate, hspelled, hcompute⟩ | hspelled
  · obtain ⟨value, hvalue⟩ := hcompute.exists_value group
    rw [spelledIn_of_ofField? hspelled, hspelled]
    dsimp only [bind, Except.bind]
    rw [hvalue]
    rfl
  · rw [spelledIn_of_ofField? hspelled, hspelled]
    cases group <;> rfl

/-- Where all fields can be shown and all conditions be tested, a group shows its fields if it fulfils
the conditions, and nothing else. -/
theorem groupRow_eq {fields : List String} (hfields : ∀ field ∈ fields, relation.CanShow field)
    (hhaving : ∀ condition ∈ having, relation.CanTest condition) (group : List (List String)) :
    relation.groupRow having (fields.map fun field => (field, spelledIn field)) group
      = .ok (if relation.groupSatisfies having group then
          some (fields.map (relation.shownIn group)) else none) := by
  have hchain : Condition.evaluate (relation.groupFulfils group) having
      = .ok (relation.groupSatisfies having group) :=
    Condition.evaluate_of_forall having fun condition hcondition =>
      (hhaving condition hcondition).groupFulfils group
  have hshown : (fields.map fun field => (field, spelledIn field)).mapM (relation.groupField group)
      = .ok (fields.map (relation.shownIn group)) := by
    rw [List.mapM_map]
    exact Action.mapM_of_forall fun field hfield => (hfields field hfield).groupField group
  rw [groupRow, hchain]
  dsimp only [bind, Except.bind]
  rw [hshown]
  cases relation.groupSatisfies having group <;> rfl

/-- A grouping query shows one row for each group that fulfils the conditions. -/
theorem project_groups (hgroup : query.groupBy = some column)
    (hcolumn : relation.resolve? column = some index)
    (hfields : ∀ field ∈ relation.shownFields query, relation.CanShow field)
    (hhaving : ∀ condition ∈ query.having, relation.CanTest condition) :
    relation.project query = .ok (relation.shownFields query,
      ((relation.groupNames index).filter fun name =>
        relation.groupSatisfies query.having (relation.groupOf index name)).map fun name =>
          (relation.shownFields query).map (relation.shownIn (relation.groupOf index name))) := by
  have hread : (relation.shownFields query).mapM readField
      = .ok ((relation.shownFields query).map fun field => (field, spelledIn field)) :=
    Action.mapM_of_forall fun field hfield => (hfields field hfield).readField
  have hrows : (relation.groups index).mapM (relation.groupRow query.having
      ((relation.shownFields query).map fun field => (field, spelledIn field)))
      = .ok ((relation.groups index).map _) :=
    Action.mapM_of_forall fun group _ => groupRow_eq hfields hhaving group
  unfold project
  change ((relation.shownFields query).mapM readField >>= _) = _
  rw [hread, hgroup]
  dsimp only [bind, Except.bind]
  rw [require_of_resolve? hcolumn]
  dsimp only
  rw [hrows, groups_eq, List.map_map]
  refine congrArg (fun rows => Except.ok (relation.shownFields query, rows)) ?_
  rw [List.filterMap_map, ← List.filterMap_eq_map, List.filterMap_filter]
  rfl

/-! ### Rows shown by groups -/

/-- What the rows of a grouping query are: one for each value in a column, where missing values count as
the same, `shown` under the names in `fields`. -/
structure Partitions (relation : Relation) (index : Nat) (fields keys : List String)
    (shown : String → List String) : Prop where
  /-- Two rows have the same value if their fields are the same or both hold none. -/
  same_iff : ∀ row other, groupName (fieldAt row index) = groupName (fieldAt other index) ↔
    fieldAt row index = fieldAt other index ∨
      Field.isNull (fieldAt row index) = true ∧ Field.isNull (fieldAt other index) = true
  /-- There is a row for each value that some row has. -/
  mem_iff : ∀ key, key ∈ keys ↔ ∃ row ∈ relation.rows, groupName (fieldAt row index) = key
  /-- They stand in the order in which the values first appear. -/
  ordered : keys.Pairwise fun key other =>
    (relation.rows.map fun row => groupName (fieldAt row index)).idxOf key
      < (relation.rows.map fun row => groupName (fieldAt row index)).idxOf other
  /-- Each of them is as wide as the header. -/
  width : ∀ key ∈ keys, (shown key).length = fields.length
  /-- A count of rows shows how many have the value. -/
  count : ∀ key ∈ keys, ∀ (position : Nat) (field : String), fields[position]? = some field →
    Aggregate.ofField? field = .ok (some ⟨.count, "*"⟩) →
      (shown key)[position]? = some (Aggregate.countText (relation.groupOf index key).length)
  /-- These numbers add up to the number of rows. -/
  sum : (keys.map fun key => (relation.groupOf index key).length).sum = relation.rows.length
  /-- Any other aggregate is computed over the rows that have the value. -/
  aggregate : ∀ key ∈ keys, ∀ (position : Nat) (field : String) (aggregate : Aggregate) (value : String),
    fields[position]? = some field → Aggregate.ofField? field = .ok (some aggregate) →
      aggregate.compute relation (relation.groupOf index key) = .ok value →
      (shown key)[position]? = some value
  /-- A plain column shows the first row that has the value. -/
  plain : ∀ key ∈ keys, ∀ (position : Nat) (field : String) (column : Nat) (first : List String),
    fields[position]? = some field → Aggregate.ofField? field = .ok none →
      relation.resolve? field = some column →
      (relation.groupOf index key).head? = some first →
      (shown key)[position]? = some (fieldAt first column)

theorem partitions_groups (relation : Relation) (index : Nat) (fields : List String) :
    Partitions relation index fields (relation.groupNames index) fun key =>
      fields.map (relation.shownIn (relation.groupOf index key)) where
  same_iff := fun _ _ => groupName_eq_iff _ _
  mem_iff := by simp [groupNames]
  ordered := Text.pairwise_firstOccurrences _
  width := fun _ _ => List.length_map _
  count := by
    intro key _ position field hposition hcount
    rw [List.getElem?_map, hposition, Option.map_some, shownIn_count hcount]
  sum := Text.sum_length_filter _ relation.rows
  aggregate := by
    intro key _ position field aggregate value hposition hspelled hvalue
    rw [List.getElem?_map, hposition, Option.map_some, shownIn_aggregate hspelled hvalue]
  plain := by
    intro key _ position field column first hposition hspelled hcolumn hfirst
    rw [List.getElem?_map, hposition, Option.map_some, shownIn_plain hspelled hcolumn hfirst]

/-- Among the rows that a query selected, the groups show one row each, and under any chain of conditions
on groups those of these rows whose group fulfils the chain. -/
theorem project_partitions (hgroup : query.groupBy = some column)
    (hcolumn : relation.resolve? column = some index)
    (hfields : ∀ field ∈ relation.shownFields query, relation.CanShow field) :
    ∃ (keys : List String) (shown : String → List String),
      Partitions (relation.select query.conditions) index (relation.shownFields query) keys shown ∧
      (relation.select query.conditions).project { query with having := [] }
        = .ok (relation.shownFields query, keys.map shown) ∧
      ∀ having, (∀ condition ∈ having, relation.CanTest condition) →
        (relation.select query.conditions).project { query with having }
          = .ok (relation.shownFields query, (keys.filter fun key =>
              (relation.select query.conditions).groupSatisfies having
                ((relation.select query.conditions).groupOf index key)).map shown) := by
  have hproject : ∀ having, (∀ condition ∈ having, relation.CanTest condition) →
      (relation.select query.conditions).project { query with having }
        = .ok (relation.shownFields query,
            (((relation.select query.conditions).groupNames index).filter fun key =>
              (relation.select query.conditions).groupSatisfies having
                ((relation.select query.conditions).groupOf index key)).map fun key =>
                  (relation.shownFields query).map ((relation.select query.conditions).shownIn
                    ((relation.select query.conditions).groupOf index key))) :=
    fun having hhaving => @project_groups (relation.select query.conditions) { query with having }
      column index hgroup hcolumn hfields hhaving
  refine ⟨_, _, partitions_groups (relation.select query.conditions) index _, ?_, hproject⟩
  refine (hproject [] (by simp)).trans ?_
  have hall : ((relation.select query.conditions).groupNames index).filter (fun key =>
      (relation.select query.conditions).groupSatisfies []
        ((relation.select query.conditions).groupOf index key))
      = (relation.select query.conditions).groupNames index := List.filter_eq_self.2 fun _ _ => rfl
  rw [hall]

/-- Sales in regions, two of them in none and one of no amount. -/
def sales : Relation where
  name := "sales"
  attributes := [⟨"id", "sales.id", .int⟩, ⟨"region", "sales.region", .string⟩,
    ⟨"amount", "sales.amount", .float⟩]
  rows := [["1", "Garut", "10"], ["2", "", "5"], ["3", "Garut", "2.5"], ["4", "NULL", "7"],
    ["5", "Bandung", ""], ["6", "Cianjur", "1"]]

/-- How many sales each region had, but for the last one, and what they come to. -/
def salesQuery : Query :=
  { Query.all "sales" with
    fields := ["region", "id", "COUNT(*)", "SUM(amount)"]
    conditions := [⟨"id", .less, "6", none⟩]
    groupBy := some "region" }

/-- More than one sale, but not in Garut. -/
def salesChain : List Condition :=
  [⟨"COUNT(*)", .greater, "1", some .and⟩, ⟨"region", .notEqual, "Garut", none⟩]

theorem project_partitions_sales :
    (∀ field ∈ sales.shownFields salesQuery, sales.CanShow field) ∧
      (∀ condition ∈ salesChain, sales.CanTest condition) ∧
      ∃ (keys : List String) (shown : String → List String),
        Partitions (sales.select salesQuery.conditions) 1 salesQuery.fields keys shown ∧
        keys.map shown = [["Garut", "1", "2", "12.5"], ["", "2", "2", "12"], ["Bandung", "5", "1", "0"]] ∧
        (sales.select salesQuery.conditions).project { salesQuery with having := salesChain }
          = .ok (salesQuery.fields, (keys.filter fun key =>
              (sales.select salesQuery.conditions).groupSatisfies salesChain
                ((sales.select salesQuery.conditions).groupOf 1 key)).map shown) := by
  have hcount : Aggregate.ofField? "COUNT(*)" = .ok (some ⟨.count, "*"⟩) := by decide
  have hfields : ∀ field ∈ ["region", "id", "COUNT(*)", "SUM(amount)"], sales.CanShow field := by
    simp only [List.forall_mem_cons]
    refine ⟨.inr ⟨by decide, 1, by decide⟩, .inr ⟨by decide, 0, by decide⟩,
      .inl ⟨_, hcount, .inl rfl⟩, .inl ⟨⟨.sum, "amount"⟩, by decide, .inr ⟨2, by decide⟩⟩, by simp⟩
  have hchain : ∀ condition ∈ salesChain, sales.CanTest condition := by
    simp only [salesChain, List.forall_mem_cons]
    exact ⟨.inl ⟨_, hcount, .inl rfl⟩, .inr (by decide), by simp⟩
  obtain ⟨keys, shown, hpartitions, hall, hsome⟩ :=
    @project_partitions sales salesQuery "region" 1 rfl (by decide) hfields
  refine ⟨hfields, hchain, keys, shown, hpartitions, ?_, hsome salesChain hchain⟩
  have hrows : (sales.select salesQuery.conditions).project { salesQuery with having := [] }
      = .ok (salesQuery.fields,
          [["Garut", "1", "2", "12.5"], ["", "2", "2", "12"], ["Bandung", "5", "1", "0"]]) := by
    decide +kernel
  exact congrArg Prod.snd (Except.ok.inj (hall.symm.trans hrows))

end Relation

end FlatFileDb
