import FlatFileDb.Proofs.Width

/-!
# What names mean behind a join

A name is looked up in the header of a relation first, then among the qualified names, then, if it has no
point in it, among what the qualified names end in. A join puts the qualified names into its header, so
behind it only the last two steps are left, and they find what they found before. What the first step
found alone may be lost. Under a table and under a join it finds nothing that the other two do not find as
well. Under a view it does: a view may have a column `t.id`, which a join calls `v.t.id`. Then the name
`t.id` means nothing there, and `id` may mean this column where a later one was meant before.
-/

namespace FlatFileDb.Relation

variable {relation left right joined : Relation} {clause : Join} {name source : String} {index : Nat}

/-! ### Qualified names -/

/-- Whether every qualified name has a source in front. -/
def IsQualified (relation : Relation) : Prop :=
  ∀ a ∈ relation.attributes, ∃ source column, a.qualified = qualify source column

/-- Whether all columns come from one source, with their names as they stand in the header. -/
def IsSource (relation : Relation) (source : String) : Prop :=
  ∀ a ∈ relation.attributes, a.qualified = qualify source a.name

/-- A relation that a query can come to: a table, a view, or a join of such relations. -/
inductive IsBuilt : Relation → Prop where
  | table (schema : TableSchema) (rows : List String)
      (hvalid : ∀ column ∈ schema.columns, Name.isValid column.name = true) :
      IsBuilt (ofTable schema rows)
  | view (name : String) (outcome : Outcome) : IsBuilt (ofView name outcome)
  | join {left right joined : Relation} {clause : Join} (hleft : IsBuilt left)
      (hright : IsBuilt right) (h : left.join right clause = .ok joined) : IsBuilt joined

theorem isSource_ofTable (schema : TableSchema) (rows : List String) :
    (ofTable schema rows).IsSource schema.name := by
  intro a ha
  obtain ⟨column, -, rfl⟩ := List.mem_map.1 ha
  rfl

theorem isSource_ofView (name : String) (outcome : Outcome) :
    (ofView name outcome).IsSource name := by
  intro a ha
  obtain ⟨column, -, rfl⟩ := List.mem_map.1 ha
  rfl

theorem attributes_join (h : left.join right clause = .ok joined) :
    joined.attributes
      = (left.attributes ++ right.attributes).map fun a => { a with name := a.qualified } := by
  obtain ⟨columns, -, h⟩ := Action.of_bind_eq_ok h
  obtain rfl := Except.ok.inj h
  rfl

theorem IsBuilt.isQualified (h : relation.IsBuilt) : relation.IsQualified := by
  induction h with
  | table schema rows => exact fun a ha => ⟨_, _, isSource_ofTable schema rows a ha⟩
  | view name outcome => exact fun a ha => ⟨_, _, isSource_ofView name outcome a ha⟩
  | join hleft hright h ihleft ihright =>
    intro a ha
    rw [attributes_join h] at ha
    obtain ⟨b, hb, rfl⟩ := List.mem_map.1 ha
    rcases List.mem_append.1 hb with hb | hb
    · exact ihleft b hb
    · exact ihright b hb

theorem ne_qualify (source column : String) : column ≠ qualify source column := by
  intro h
  have hlength := congrArg String.length h
  simp only [qualify, String.length_append] at hlength
  have hpoint : ".".length = 1 := rfl
  omega

theorem point_mem_qualify (source column : String) : '.' ∈ (qualify source column).toList := by
  simp [qualify]

/-- A qualified name ends in a name without a point if the column behind the source is this name or ends
in it. -/
theorem endsIn_qualify {column : String} (hname : '.' ∉ name.toList) :
    endsIn name (qualify source column) = true ↔ column = name ∨ endsIn name column = true := by
  have hcolumn : '.' :: column.toList <:+ (qualify source column).toList := by
    simp [qualify]
  unfold endsIn
  rw [List.isSuffixOf_iff_suffix, List.isSuffixOf_iff_suffix]
  constructor
  · intro hend
    rcases List.suffix_or_suffix_of_suffix hend hcolumn with h | h
    · rcases List.suffix_cons_iff.1 h with h | h
      · exact .inl (String.toList_inj.1 (List.cons.inj h).2.symm)
      · exact .inr h
    · rcases List.suffix_cons_iff.1 h with h | h
      · exact .inl (String.toList_inj.1 (List.cons.inj h).2)
      · exact absurd (h.subset List.mem_cons_self) hname
  · rintro (rfl | hend)
    · exact hcolumn
    · exact (hend.trans (List.suffix_cons _ _)).trans hcolumn

/-! ### Names behind a join -/

/-- The column that a name means if the header is left aside. -/
def resolveQualified? (relation : Relation) (name : String) : Option Nat :=
  (relation.attributes.findIdx? fun a => a.qualified == name)
    <|> (if name.toList.contains '.' then none
      else relation.attributes.findIdx? fun a => endsIn name a.qualified)

theorem resolve?_eq (relation : Relation) (name : String) :
    relation.resolve? name
      = ((relation.attributes.findIdx? fun a => a.name == name)
        <|> relation.resolveQualified? name) := rfl

theorem findIdx?_qualified_of_bare (h : relation.IsQualified) (hname : '.' ∉ name.toList) :
    (relation.attributes.findIdx? fun a => a.qualified == name) = none := by
  rw [List.findIdx?_eq_none_iff]
  intro a ha
  obtain ⟨source, column, hqualified⟩ := h a ha
  rw [beq_eq_false_iff_ne, hqualified]
  rintro rfl
  exact hname (point_mem_qualify source column)

/-- Behind a join a name is looked up in the left side and then in the right side, in both without the
header. -/
theorem resolve?_join (h : left.join right clause = .ok joined) (hleft : left.IsQualified)
    (hright : right.IsQualified) (name : String) :
    joined.resolve? name = (left.resolveQualified? name
      <|> (right.resolveQualified? name).map (· + left.attributes.length)) := by
  have hsame : joined.resolve? name
      = (((left.attributes ++ right.attributes).findIdx? fun a => a.qualified == name)
        <|> if name.toList.contains '.' then none
          else (left.attributes ++ right.attributes).findIdx? fun a => endsIn name a.qualified) := by
    unfold resolve?
    rw [attributes_join h, List.findIdx?_map, List.findIdx?_map, List.findIdx?_map]
    simp only [Function.comp_def, Option.orElse_eq_orElse, Option.orElse_eq_or, ← Option.or_assoc,
      Option.or_self]
  rw [hsame, List.findIdx?_append, List.findIdx?_append]
  unfold resolveQualified?
  by_cases hname : '.' ∈ name.toList
  · simp [hname]
  · rw [findIdx?_qualified_of_bare hleft hname, findIdx?_qualified_of_bare hright hname]
    simp [hname]

/-- A column of the left side is meant behind a join by the names that mean it without the header. -/
theorem resolve?_join_iff (h : left.join right clause = .ok joined) (hleft : left.IsQualified)
    (hright : right.IsQualified) (hindex : index < left.attributes.length) :
    joined.resolve? name = some index ↔ left.resolveQualified? name = some index := by
  rw [resolve?_join h hleft hright, Option.orElse_eq_orElse, Option.orElse_eq_or,
    Option.or_eq_some_iff]
  constructor
  · rintro (hfound | ⟨-, hfound⟩)
    · exact hfound
    · obtain ⟨found, -, hsame⟩ := Option.map_eq_some_iff.1 hfound
      omega
  · exact .inl

/-! ### Names that the header alone knows -/

/-- Whether a name stands in the header, but is read in another way behind the source of its column: it
has a point in it, or an earlier column ends in a point and the name. -/
def Hides (relation : Relation) (name : String) (index : Nat) : Prop :=
  relation.header[index]? = some name ∧
    ('.' ∈ name.toList ∨ ∃ other ∈ relation.header.take index, endsIn name other = true)

theorem IsSource.isQualified (h : relation.IsSource source) : relation.IsQualified :=
  fun a ha => ⟨source, a.name, h a ha⟩

/-- A name in the header means the same without the header unless it is hidden. -/
theorem IsSource.resolveQualified?_of_named (h : relation.IsSource source)
    (hfirst : (relation.attributes.findIdx? fun a => a.name == name) = some index) :
    relation.resolveQualified? name = some index ↔ ¬relation.Hides name index := by
  obtain ⟨hindex, hthere, hbefore⟩ := List.findIdx?_eq_some_iff_getElem.1 hfirst
  have hnamed : relation.attributes[index].name = name := eq_of_beq hthere
  have hheader : relation.header[index]? = some name := by
    rw [header, List.getElem?_map, List.getElem?_eq_getElem hindex, ← hnamed]
    rfl
  have hqualified (j : Nat) (hj : j < relation.attributes.length) :
      relation.attributes[j].qualified = qualify source relation.attributes[j].name :=
    h _ (List.getElem_mem hj)
  by_cases hname : '.' ∈ name.toList
  · refine iff_of_false (fun hfound => ?_) fun hno => hno ⟨hheader, .inl hname⟩
    rw [resolveQualified?, if_pos (List.contains_iff_mem.2 hname), Option.orElse_eq_orElse,
      Option.orElse_eq_or, Option.or_none] at hfound
    obtain ⟨_, hsame, _⟩ := List.findIdx?_eq_some_iff_getElem.1 hfound
    rw [hqualified index hindex, hnamed] at hsame
    exact ne_qualify source name (eq_of_beq hsame).symm
  · have hends : relation.resolveQualified? name
        = relation.attributes.findIdx? fun a => endsIn name a.qualified := by
      rw [resolveQualified?, findIdx?_qualified_of_bare h.isQualified hname, if_neg (by simpa using hname)]
      rfl
    rw [hends, List.findIdx?_eq_some_iff_getElem]
    constructor
    · rintro ⟨_, _, hnone⟩ ⟨-, hpoint | ⟨other, hother, hend⟩⟩
      · exact hname hpoint
      · obtain ⟨j, hj, rfl⟩ := List.mem_take_iff_getElem.1 hother
        apply hnone j (by omega)
        rw [hqualified, endsIn_qualify hname]
        right
        simpa [header] using hend
    · intro hshown
      refine ⟨hindex, ?_, fun j hj hend => ?_⟩
      · rw [hqualified, endsIn_qualify hname]
        exact .inl hnamed
      · rw [hqualified, endsIn_qualify hname] at hend
        rcases hend with hsame | hend
        · exact hbefore j hj (beq_iff_eq.2 hsame)
        · apply hshown
          refine ⟨hheader, .inr ⟨relation.attributes[j].name, ?_, hend⟩⟩
          refine List.mem_take_iff_getElem.2 ⟨j, ?_, ?_⟩
          · rw [header, List.length_map]
            omega
          · simp [header]

theorem IsSource.resolveQualified?_iff (h : relation.IsSource source)
    (hname : relation.resolve? name = some index) :
    relation.resolveQualified? name = some index ↔ ¬relation.Hides name index := by
  rw [resolve?_eq, Option.orElse_eq_orElse, Option.orElse_eq_or, Option.or_eq_some_iff] at hname
  rcases hname with hfirst | ⟨hnone, hfound⟩
  · exact h.resolveQualified?_of_named hfirst
  · refine iff_of_true hfound fun hhides => ?_
    rw [List.findIdx?_eq_none_iff] at hnone
    obtain ⟨a, ha, hsame⟩ := List.mem_map.1 (List.mem_of_getElem? hhides.1)
    exact absurd (hnone a ha) (by simp [hsame])

/-- A table has no column with a point in its name. -/
theorem not_hides_ofTable {schema : TableSchema} {rows : List String}
    (hvalid : ∀ column ∈ schema.columns, Name.isValid column.name = true) :
    ¬(ofTable schema rows).Hides name index := by
  have hplain : ∀ column ∈ (ofTable schema rows).header, '.' ∉ column.toList := by
    intro column hcolumn
    obtain ⟨a, ha, rfl⟩ := List.mem_map.1 hcolumn
    obtain ⟨defined, hdefined, rfl⟩ := List.mem_map.1 ha
    exact Name.not_mem (hvalid defined hdefined) (by decide)
  rintro ⟨hthere, hpoint | ⟨other, hother, hend⟩⟩
  · exact hplain name (List.mem_of_getElem? hthere) hpoint
  · apply hplain other (List.mem_of_mem_take hother)
    obtain ⟨front, hfront⟩ := List.isSuffixOf_iff_suffix.1 hend
    rw [← hfront]
    simp

/-- A join shows the qualified names, so its header knows nothing that they do not know. -/
theorem resolveQualified?_joined (h : left.join right clause = .ok joined) (name : String) :
    joined.resolveQualified? name = joined.resolve? name := by
  have hheader : (joined.attributes.findIdx? fun a => a.name == name)
      = joined.attributes.findIdx? fun a => a.qualified == name := by
    rw [attributes_join h, List.findIdx?_map, List.findIdx?_map]
    rfl
  rw [resolve?_eq, hheader]
  unfold resolveQualified?
  simp only [Option.orElse_eq_orElse, Option.orElse_eq_or, ← Option.or_assoc, Option.or_self]

/-- What a name keeps to behind a join: the column of the left side that it means, unless the left side
is a view alone, which has a column of this name, but calls it otherwise behind its own name. -/
theorem resolves_joined_iff (hbuilt : left.IsBuilt) (hright : right.IsQualified)
    (h : left.join right clause = .ok joined) (hname : left.resolve? name = some index) :
    joined.resolve? name = some index
      ↔ ∀ view outcome, left = ofView view outcome → ¬left.Hides name index := by
  rw [resolve?_join_iff h hbuilt.isQualified hright (resolve?_lt hname)]
  cases hbuilt with
  | table schema rows hvalid =>
    have hshown : ¬(ofTable schema rows).Hides name index := not_hides_ofTable hvalid
    rw [(isSource_ofTable schema rows).resolveQualified?_iff hname]
    exact iff_of_true hshown fun _ _ _ => hshown
  | view view outcome =>
    rw [(isSource_ofView view outcome).resolveQualified?_iff hname]
    exact ⟨fun hshown _ _ _ => hshown, fun hshown => hshown view outcome rfl⟩
  | join hleft hright' hjoin =>
    refine iff_of_true ((resolveQualified?_joined hjoin name).trans hname) ?_
    rintro view outcome rfl ⟨hthere, -⟩
    -- A join and a view call their columns differently, unless they have none.
    obtain ⟨a, ha, -⟩ := List.mem_map.1 (List.mem_of_getElem? hthere)
    have hview : a.qualified = qualify view a.name := isSource_ofView view outcome a ha
    rw [attributes_join hjoin] at ha
    obtain ⟨b, -, rfl⟩ := List.mem_map.1 ha
    exact ne_qualify view b.qualified hview

/-- A table of codes. -/
def codeSchema : TableSchema where
  database := "kantor"
  name := "u"
  columns := [⟨"kode", .int, false, false, false, none⟩]
  permissions := .standard

/-- The codes as a relation. -/
def codes : Relation :=
  ofTable codeSchema ["7"]

theorem isBuilt_codes : codes.IsBuilt :=
  .table codeSchema ["7"] (by decide)

/-- What a view shows that has two columns called `id` where they come from, and a sum. -/
def payroll : Outcome :=
  .ofRows ["u.id", "id", "SUM(gaji)", "nama"] [["7", "1", "500", "ani"]]

/-- The sum keeps its name behind a join, the second `id` does not: the name means the first one there. -/
theorem resolves_joined_iff_payroll :
    (ofView "v" payroll).IsBuilt ∧ codes.IsQualified ∧
      ∃ joined, (ofView "v" payroll).join codes ⟨.left, "u", "u.id", "kode"⟩ = .ok joined ∧
        (ofView "v" payroll).resolve? "SUM(gaji)" = some 2 ∧
        joined.resolve? "SUM(gaji)" = some 2 ∧
        (ofView "v" payroll).resolve? "id" = some 1 ∧ joined.resolve? "id" ≠ some 1 := by
  have hbuilt : (ofView "v" payroll).IsBuilt := .view "v" payroll
  have hcodes := isBuilt_codes.isQualified
  have hjoined : (ofView "v" payroll).join codes ⟨.left, "u", "u.id", "kode"⟩ = .ok _ := rfl
  have hsum : (ofView "v" payroll).resolve? "SUM(gaji)" = some 2 := by decide
  have hid : (ofView "v" payroll).resolve? "id" = some 1 := by decide
  refine ⟨hbuilt, hcodes, _, hjoined, hsum, ?_, hid, fun hkept => ?_⟩
  · refine (resolves_joined_iff hbuilt hcodes hjoined hsum).2 fun view outcome hview hhides => ?_
    rcases hhides.2 with hpoint | ⟨other, hother, hend⟩
    · exact absurd hpoint (by decide)
    · revert other
      decide
  · refine (resolves_joined_iff hbuilt hcodes hjoined hid).1 hkept "v" payroll rfl ⟨rfl, .inr ?_⟩
    exact ⟨"u.id", by decide, by decide⟩

/-- A column of a view that is called `t.id` cannot be called so behind a join. -/
theorem not_resolves_joined :
    ¬∀ (left right joined : Relation) (clause : Join) (name : String) (index : Nat),
      left.IsBuilt → right.IsBuilt → left.join right clause = .ok joined →
        left.resolve? name = some index → joined.resolve? name = some index := by
  intro hkeeps
  have hkept := hkeeps (ofView "v" (.ofRows ["t.id"] [["7"]])) codes _
    ⟨.inner, "u", "t.id", "u.kode"⟩ "t.id" 0 (.view _ _) isBuilt_codes rfl (by decide)
  exact absurd hkept (by decide)

end FlatFileDb.Relation
