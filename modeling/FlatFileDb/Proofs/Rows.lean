import FlatFileDb.Change
import FlatFileDb.Proofs.Action
import FlatFileDb.Table
import FlatFileDb.Text.Lines

/-!
# Rows in a file and fields in a row

A text that lists lines, none of them broken, gives back the lines that are not blank; a row put
together from fields without a bar gives back the fields. Every table file lists lines in this sense,
so the rows of a table may be thought of as a list.
-/

namespace FlatFileDb

namespace Text

/-- Whether a text holds no line break. -/
def IsLine (line : String) : Prop :=
  '\n' ∉ line.toList ∧ '\r' ∉ line.toList

instance (line : String) : Decidable (IsLine line) :=
  inferInstanceAs (Decidable (_ ∧ _))

theorem isLine_iff_any {line : String} :
    IsLine line ↔ ¬(line.toList.any fun c => c == '\n' || c == '\r') = true := by
  simp only [List.any_eq_true, Bool.or_eq_true, beq_iff_eq, not_exists, not_and, not_or]
  exact ⟨fun h c hc => ⟨fun hn => h.1 (hn ▸ hc), fun hr => h.2 (hr ▸ hc)⟩,
    fun h => ⟨fun hn => (h _ hn).1 rfl, fun hr => (h _ hr).2 rfl⟩⟩

/-- Whether a text that is written as a line is read as that line: it holds no line feed and does not
end in a carriage return. -/
def IsUnbroken (line : String) : Prop :=
  '\n' ∉ line.toList ∧ line.toList.getLast? ≠ some '\r'

instance (line : String) : Decidable (IsUnbroken line) :=
  inferInstanceAs (Decidable (_ ∧ _))

/-- Whether a line counts: it is not blank. -/
def isFilled (line : String) : Bool :=
  !line.toList.all isBlank

/-- A text that lists lines. -/
def Lists (text : String) (lines : List String) : Prop :=
  (∀ line ∈ lines, IsLine line) ∧ text = ofLines lines

theorem IsLine.isUnbroken {line : String} (h : IsLine line) : IsUnbroken line :=
  ⟨h.1, fun hlast => h.2 (List.mem_of_getLast? hlast)⟩

theorem dropReturn_of_isUnbroken {line : String} (h : IsUnbroken line) : dropReturn line = line := by
  rw [dropReturn, if_neg]
  rw [String.endsWith_char_eq_getLast?, beq_iff_eq]
  exact h.2

theorem isLine_append {first second : String} (hfirst : IsLine first) (hsecond : IsLine second) :
    IsLine (first ++ second) := by
  simp only [IsLine, String.toList_append, List.mem_append, not_or] at *
  exact ⟨⟨hfirst.1, hsecond.1⟩, hfirst.2, hsecond.2⟩

private theorem splitOn_ofLines {lines : List String} (h : ∀ line ∈ lines, IsUnbroken line) :
    ((ofLines lines).toList.splitOn '\n').map String.ofList = lines ++ [""] := by
  rw [toList_ofLines]
  induction lines with
  | nil => rfl
  | cons line rest ih =>
    rw [List.flatMap_cons, List.append_assoc, List.singleton_append,
      List.splitOn_append_cons_self_of_not_mem (h line (by simp)).1, List.map_cons,
      ih fun other hother => h other (by simp [hother])]
    simp

theorem terminated_append (first : List String) {second : List String} (h : second ≠ []) :
    terminated (first ++ second) = first.map dropReturn ++ terminated second := by
  induction first with
  | nil => rfl
  | cons line rest ih =>
    obtain ⟨next, more, hcase⟩ := List.exists_cons_of_ne_nil (List.append_ne_nil_of_right_ne_nil rest h)
    rw [hcase] at ih
    rw [List.cons_append, hcase, terminated, ih, List.map_cons, List.cons_append]
    exact List.cons_ne_nil _ _

/-- Unbroken lines are read as they were written. -/
theorem lines_ofLines {lines : List String} (h : ∀ line ∈ lines, IsUnbroken line) :
    Text.lines (ofLines lines) = lines := by
  have hkept : lines.map dropReturn = lines := by
    refine (List.map_congr_left fun line hline => ?_).trans (List.map_id lines)
    exact dropReturn_of_isUnbroken (h line hline)
  rw [Text.lines, splitOn_ofLines h, terminated_append _ (by simp), hkept, terminated,
    if_pos (by rfl), List.append_nil]

theorem filledLines_ofLines {lines : List String} (h : ∀ line ∈ lines, IsUnbroken line) :
    Text.filledLines (ofLines lines) = lines.filter isFilled := by
  rw [Text.filledLines, lines_ofLines h]
  rfl

/-- The lines of a text that lists them. -/
theorem Lists.lines {text : String} {lines : List String} (h : Lists text lines) :
    Text.lines text = lines := by
  rw [h.2, lines_ofLines fun line hline => (h.1 line hline).isUnbroken]

theorem Lists.filledLines {text : String} {lines : List String} (h : Lists text lines) :
    filledLines text = lines.filter isFilled := by
  rw [Text.filledLines, h.lines]
  rfl

theorem lists_ofLines {lines : List String} (h : ∀ line ∈ lines, IsLine line) :
    Lists (ofLines lines) lines :=
  ⟨h, rfl⟩

theorem lists_empty : Lists "" [] :=
  ⟨by simp, rfl⟩

theorem ofLines_append (first second : List String) :
    ofLines (first ++ second) = ofLines first ++ ofLines second := by
  simp [ofLines]

/-- A line written behind the others is one more line. -/
theorem Lists.append {text line : String} {lines : List String} (h : Lists text lines)
    (hline : IsLine line) : Lists (text ++ (line ++ "\n")) (lines ++ [line]) := by
  refine ⟨?_, ?_⟩
  · intro other hother
    rw [List.mem_append, List.mem_singleton] at hother
    rcases hother with hother | rfl
    · exact h.1 other hother
    · exact hline
  · rw [ofLines_append, ← h.2]
    simp [ofLines]

theorem Lists.isLine_of_mem {text line : String} {lines : List String} (h : Lists text lines)
    (hline : line ∈ Text.filledLines text) : IsLine line := by
  rw [h.filledLines, List.mem_filter] at hline
  exact h.1 line hline.1

theorem Lists.isFilled_of_mem {text line : String} {lines : List String} (h : Lists text lines)
    (hline : line ∈ Text.filledLines text) : isFilled line = true := by
  rw [h.filledLines, List.mem_filter] at hline
  exact hline.2

end Text

theorem mem_of_mem_splitOn {a c : Char} {s piece : List Char} (h : piece ∈ s.splitOn a)
    (hc : c ∈ piece) : c ∈ s ∧ c ≠ a := by
  induction s generalizing piece with
  | nil =>
    rw [List.splitOn_nil, List.mem_singleton] at h
    rw [h] at hc
    exact absurd hc (by simp)
  | cons d s ih =>
    rw [List.splitOn_cons_eq_if_modifyHead] at h
    split at h
    · rw [List.mem_cons] at h
      rcases h with rfl | h
      · exact absurd hc (by simp)
      · exact ⟨by simp [(ih h hc).1], (ih h hc).2⟩
    · rename_i hd
      obtain ⟨first, rest, hsplit⟩ := List.exists_cons_of_ne_nil (List.splitOn_ne_nil a s)
      rw [hsplit, List.modifyHead_cons, List.mem_cons] at h
      rcases h with rfl | h
      · rw [List.mem_cons] at hc
        rcases hc with rfl | hc
        · exact ⟨by simp, by simpa using hd⟩
        · have hfirst := ih (by rw [hsplit]; simp) hc
          exact ⟨by simp [hfirst.1], hfirst.2⟩
      · have hrest := ih (by rw [hsplit]; exact List.mem_cons_of_mem _ h) hc
        exact ⟨by simp [hrest.1], hrest.2⟩

namespace Row

theorem fields_ne_nil (row : String) : fields row ≠ [] := by
  simp [fields, List.splitOn_ne_nil]

theorem delimiter_not_mem {row field : String} (h : field ∈ fields row) :
    delimiter ∉ field.toList := by
  rw [fields, List.mem_map] at h
  obtain ⟨piece, hpiece, rfl⟩ := h
  rw [String.toList_ofList]
  exact fun hmem => (mem_of_mem_splitOn hpiece hmem).2 rfl

theorem isLine_of_mem_fields {row field : String} (hrow : Text.IsLine row)
    (h : field ∈ fields row) : Text.IsLine field := by
  rw [fields, List.mem_map] at h
  obtain ⟨piece, hpiece, rfl⟩ := h
  rw [Text.IsLine, String.toList_ofList]
  exact ⟨fun hmem => hrow.1 (mem_of_mem_splitOn hpiece hmem).1,
    fun hmem => hrow.2 (mem_of_mem_splitOn hpiece hmem).1⟩

/-- The value at a position of a row, which is empty where the row has no field. -/
def valueAt (row : String) (position : Nat) : String :=
  (fields row)[position]?.getD ""

/-- The text of a row holds nothing but its fields and the bars between them. -/
theorem toList_ofFields (fields : List String) :
    (ofFields fields).toList = [delimiter].intercalate (fields.map String.toList) := by
  rw [ofFields, String.toList_intercalate]
  simp

theorem fields_ofFields {list : List String} (hne : list ≠ [])
    (h : ∀ field ∈ list, delimiter ∉ field.toList) : fields (ofFields list) = list := by
  have hpieces : ∀ piece ∈ list.map String.toList, delimiter ∉ piece := by
    intro piece hpiece
    obtain ⟨field, hfield, rfl⟩ := List.mem_map.1 hpiece
    exact h field hfield
  rw [fields, toList_ofFields, List.splitOn_intercalate delimiter hpieces (by simp [hne]),
    List.map_map]
  simp

/-- A row without a delimiter is one field. -/
theorem fields_of_not_mem {row : String} (h : delimiter ∉ row.toList) : fields row = [row] := by
  have hrow : ofFields [row] = row := by simp [ofFields]
  rw [← hrow, fields_ofFields (by simp) (by simpa using h), hrow]

theorem ofFields_fields (row : String) : ofFields (fields row) = row := by
  rw [← String.toList_inj, toList_ofFields, fields, List.map_map]
  simp

theorem isLine_ofFields {list : List String} (h : ∀ field ∈ list, Text.IsLine field) :
    Text.IsLine (ofFields list) := by
  have hbar : Text.IsLine (String.singleton delimiter) := by
    rw [Text.IsLine, String.toList_singleton]
    decide
  induction list with
  | nil =>
    rw [ofFields, String.intercalate_nil]
    simp [Text.IsLine]
  | cons first rest ih =>
    have hfirst := h first (by simp)
    cases rest with
    | nil =>
      rw [ofFields, String.intercalate_singleton]
      exact hfirst
    | cons second rest =>
      have hrest := ih fun field hfield => h field (List.mem_cons_of_mem _ hfield)
      rw [ofFields, String.intercalate_cons_cons]
      exact Text.isLine_append (Text.isLine_append hfirst hbar) hrest

/-! ### Assignments -/

theorem resize_of_length {width : Nat} {list : List String} (h : list.length = width) :
    resize width list = list := by
  rw [resize, h, Nat.sub_self, List.replicate_zero, List.append_nil]
  exact List.take_of_length_le (Nat.le_of_eq h)

theorem getElem?_resize (width : Nat) (list : List String) (position : Nat) :
    (resize width list)[position]?
      = if position < width then some (list[position]?.getD "") else none := by
  rw [resize]
  by_cases hwidth : position < width
  · rw [if_pos hwidth]
    by_cases hlength : position < list.length
    · have htaken : position < (list.take width).length := by
        rw [List.length_take]
        omega
      rw [List.getElem?_append_left htaken, List.getElem?_take_of_lt hwidth,
        List.getElem?_eq_getElem hlength]
      rfl
    · have htaken : (list.take width).length ≤ position := by
        rw [List.length_take]
        omega
      rw [List.getElem?_append_right htaken, List.getElem?_replicate,
        List.getElem?_eq_none (by omega), if_pos]
      · rfl
      · simp only [List.length_take]
        omega
  · rw [if_neg hwidth, List.getElem?_eq_none]
    simp only [List.length_append, List.length_take, List.length_replicate]
    omega

theorem mem_resize {width : Nat} {list : List String} {field : String}
    (h : field ∈ resize width list) : field ∈ list ∨ field = "" := by
  rw [resize, List.mem_append, List.mem_replicate] at h
  rcases h with h | ⟨-, h⟩
  · exact .inl (List.mem_of_mem_take h)
  · exact .inr h

end Row

/-- The value that assignments give the column at a position, if they give it one. -/
def Assignment.valueAt? (assignments : List Assignment) (position : Nat) : Option String :=
  (assignments.reverse.find? fun a => a.position == position).map Assignment.value

namespace Assignment

theorem valueAt?_cons (a : Assignment) (rest : List Assignment) (position : Nat) :
    valueAt? (a :: rest) position
      = (valueAt? rest position).or (if a.position = position then some a.value else none) := by
  rw [valueAt?, List.reverse_cons, List.find?_append, valueAt?]
  cases rest.reverse.find? fun a => a.position == position with
  | some found => rfl
  | none =>
    by_cases h : a.position = position
    · simp [List.find?, h]
    · have hbeq : (a.position == position) = false := by simpa using h
      simp [List.find?, h, hbeq]

theorem exists_of_valueAt? {assignments : List Assignment} {position : Nat} {value : String}
    (h : valueAt? assignments position = some value) :
    ∃ a ∈ assignments, a.position = position ∧ a.value = value := by
  rw [valueAt?, Option.map_eq_some_iff] at h
  obtain ⟨a, hfind, hvalue⟩ := h
  refine ⟨a, List.mem_reverse.1 (List.mem_of_find?_eq_some hfind), ?_, hvalue⟩
  simpa using List.find?_some hfind

theorem getElem?_foldl_set (assignments : List Assignment) (fields : List String)
    (position : Nat) :
    (assignments.foldl (fun fields a => fields.set a.position a.value) fields)[position]?
      = fields[position]?.map fun old => (valueAt? assignments position).getD old := by
  induction assignments generalizing fields with
  | nil =>
    rw [List.foldl_nil]
    cases fields[position]? <;> rfl
  | cons a rest ih =>
    rw [List.foldl_cons, ih, valueAt?_cons, List.getElem?_set]
    by_cases h : a.position = position
    · subst h
      by_cases hlength : a.position < fields.length
      · rw [if_pos rfl, if_pos hlength, List.getElem?_eq_getElem hlength]
        cases valueAt? rest a.position <;> simp
      · rw [if_pos rfl, if_neg hlength, List.getElem?_eq_none (by omega)]
        rfl
    · rw [if_neg h, if_neg h, Option.or_none]

theorem mem_foldl_set {assignments : List Assignment} {fields : List String} {field : String}
    (h : field ∈ assignments.foldl (fun fields a => fields.set a.position a.value) fields) :
    field ∈ fields ∨ ∃ a ∈ assignments, field = a.value := by
  induction assignments generalizing fields with
  | nil => exact .inl h
  | cons a rest ih =>
    rw [List.foldl_cons] at h
    rcases ih h with h | ⟨b, hb, hvalue⟩
    · rcases List.mem_or_eq_of_mem_set h with h | h
      · exact .inl h
      · exact .inr ⟨a, by simp, h⟩
    · exact .inr ⟨b, by simp [hb], hvalue⟩

theorem length_foldl_set (assignments : List Assignment) (fields : List String) :
    (assignments.foldl (fun fields a => fields.set a.position a.value) fields).length
      = fields.length := by
  induction assignments generalizing fields with
  | nil => rfl
  | cons a rest ih => rw [List.foldl_cons, ih, List.length_set]

/-- An assignment whose value may stand in a row. -/
def IsClean (a : Assignment) : Prop :=
  Row.delimiter ∉ a.value.toList ∧ Text.IsLine a.value

end Assignment

/-- Columns and fields are paired by their positions. -/
theorem Row.forall_mem_zip {columns : List Column} {fields : List String} {p : Column × String → Prop} :
    (∀ entry ∈ columns.zip fields, p entry) ↔
      ∀ (position : Nat) (column : Column) (value : String),
        columns[position]? = some column → fields[position]? = some value → p (column, value) := by
  constructor
  · intro h position column value hcolumn hvalue
    exact h (column, value) (List.mem_of_getElem? (List.getElem?_zip_eq_some.2 ⟨hcolumn, hvalue⟩))
  · rintro h ⟨column, value⟩ hmem
    obtain ⟨position, hposition⟩ := List.mem_iff_getElem?.1 hmem
    obtain ⟨hcolumn, hvalue⟩ := List.getElem?_zip_eq_some.1 hposition
    exact h position column value hcolumn hvalue

/-- A field that passed its check has no bar and no line break in it. -/
theorem Column.clean_of_checkField {column : Column} {value : String}
    (h : column.checkField value = .ok ()) : Row.delimiter ∉ value.toList ∧ Text.IsLine value := by
  unfold checkField at h
  split at h
  · exact absurd h (by simp)
  rename_i hbar
  split at h
  · exact absurd h (by simp)
  rename_i hbreak
  exact ⟨by simpa using hbar, Text.isLine_iff_any.2 hbreak⟩

namespace TableSchema

variable {schema : TableSchema} {assignments : List Assignment}

/-- As many fields as columns, each checked against its column. -/
theorem checkFields_eq_ok {fields : List String} (h : schema.checkFields fields = .ok ()) :
    fields.length = schema.columns.length ∧
      ∀ (position : Nat) (column : Column) (value : String),
        schema.columns[position]? = some column → fields[position]? = some value →
          column.checkField value = .ok () := by
  unfold checkFields at h
  split at h
  · rename_i hlength
    exact ⟨hlength, Row.forall_mem_zip.1 (Action.forM_eq_ok h)⟩
  · exact absurd h (by simp)

/-- A row whose fields passed their checks is a line. -/
theorem isLine_of_checkFields {row : String} (h : schema.checkFields (Row.fields row) = .ok ()) :
    Text.IsLine row := by
  obtain ⟨hlength, hchecked⟩ := checkFields_eq_ok h
  rw [← Row.ofFields_fields row]
  refine Row.isLine_ofFields fun field hfield => ?_
  obtain ⟨position, hposition⟩ := List.mem_iff_getElem?.1 hfield
  have hin : position < schema.columns.length := by
    rw [← hlength]
    exact (List.getElem?_eq_some_iff.1 hposition).1
  exact (Column.clean_of_checkField
    (hchecked position _ field (List.getElem?_eq_getElem hin) hposition)).2

/-- The fields of a row after an update: what was assigned, and elsewhere what was there. -/
theorem fields_assign (hclean : ∀ a ∈ assignments, a.IsClean) (row : String)
    (hcolumns : 0 < schema.columns.length) :
    Row.fields (schema.assign assignments row)
      = assignments.foldl (fun fields a => fields.set a.position a.value)
          (Row.resize schema.columns.length (Row.fields row)) := by
  refine Row.fields_ofFields (fun hnil => ?_) fun field hfield => ?_
  · have hlength := Assignment.length_foldl_set assignments
      (Row.resize schema.columns.length (Row.fields row))
    rw [hnil, Row.length_resize] at hlength
    simp only [List.length_nil] at hlength
    omega
  · rcases Assignment.mem_foldl_set hfield with hfield | ⟨a, ha, rfl⟩
    · rcases Row.mem_resize hfield with hfield | rfl
      · exact Row.delimiter_not_mem hfield
      · simp
    · exact (hclean a ha).1

theorem length_fields_assign (hclean : ∀ a ∈ assignments, a.IsClean) (row : String)
    (hcolumns : 0 < schema.columns.length) :
    (Row.fields (schema.assign assignments row)).length = schema.columns.length := by
  rw [fields_assign hclean row hcolumns, Assignment.length_foldl_set, Row.length_resize]

theorem getElem?_fields_assign (hclean : ∀ a ∈ assignments, a.IsClean) (row : String)
    {position : Nat} (hposition : position < schema.columns.length) :
    (Row.fields (schema.assign assignments row))[position]?
      = some ((Assignment.valueAt? assignments position).getD
          ((Row.fields row)[position]?.getD "")) := by
  rw [fields_assign hclean row (by omega), Assignment.getElem?_foldl_set, Row.getElem?_resize,
    if_pos hposition]
  rfl

theorem isLine_assign (hclean : ∀ a ∈ assignments, a.IsClean) {row : String}
    (hrow : Text.IsLine row) : Text.IsLine (schema.assign assignments row) := by
  refine Row.isLine_ofFields fun field hfield => ?_
  rcases Assignment.mem_foldl_set hfield with hfield | ⟨a, ha, rfl⟩
  · rcases Row.mem_resize hfield with hfield | rfl
    · exact Row.isLine_of_mem_fields hrow hfield
    · simp [Text.IsLine]
  · exact (hclean a ha).2

/-- The value at a position of a row after an update. -/
theorem valueAt_assign (hclean : ∀ a ∈ assignments, a.IsClean) (row : String) {position : Nat}
    (hposition : position < schema.columns.length) :
    Row.valueAt (schema.assign assignments row) position
      = (Assignment.valueAt? assignments position).getD (Row.valueAt row position) := by
  rw [Row.valueAt, getElem?_fields_assign hclean row hposition]
  rfl

/-! ### Updates and deletions -/

/-- The rows that match are assigned to, in their places, after the values were found unique. -/
theorem update_eq (assignments : List Assignment) (conditions : List Condition) (rows : List String) :
    schema.update assignments conditions rows = (do
      assignments.forM (checkUnique (rows.filter (schema.matchesRow conditions))
        (rows.filter fun row => !schema.matchesRow conditions row))
      return (
        rows.map fun row =>
          if schema.matchesRow conditions row then schema.assign assignments row else row,
        (rows.filter (schema.matchesRow conditions)).map fun row =>
          (row, schema.assign assignments row))) := by
  unfold update
  simp only [List.partition_eq_filter_filter, List.filter_map, List.map_map, Function.comp_def,
    List.map_id']

theorem update_eq_ok {conditions : List Condition} {rows after : List String}
    {changed : List (String × String)}
    (h : schema.update assignments conditions rows = .ok (after, changed)) :
    after = rows.map (fun row =>
        if schema.matchesRow conditions row then schema.assign assignments row else row) ∧
      changed = (rows.filter (schema.matchesRow conditions)).map
        (fun row => (row, schema.assign assignments row)) ∧
      ∀ a ∈ assignments, checkUnique (rows.filter (schema.matchesRow conditions))
        (rows.filter fun row => !schema.matchesRow conditions row) a = .ok () := by
  rw [update_eq] at h
  obtain ⟨⟨⟩, hunique, h⟩ := Action.of_bind_eq_ok h
  obtain ⟨rfl, rfl⟩ := Prod.mk.inj (Except.ok.inj h)
  exact ⟨rfl, rfl, Action.forM_eq_ok hunique⟩

theorem delete_eq (conditions : List Condition) (rows : List String) :
    schema.delete conditions rows
      = (rows.filter fun row => !schema.matchesRow conditions row,
        rows.filter (schema.matchesRow conditions)) := by
  rw [delete, List.partition_eq_filter_filter]
  rfl

end TableSchema

namespace Table

/-- The change is made at the first row of the identifier and nowhere else. -/
theorem changeFirst?_eq_some {id : String} {f : String → List String} {rows after : List String}
    (h : changeFirst? id f rows = some after) :
    ∃ before row rest, rows = before ++ row :: rest ∧ Row.id row = id ∧
      (∀ other ∈ before, Row.id other ≠ id) ∧ after = before ++ f row ++ rest := by
  induction rows generalizing after with
  | nil => exact absurd h (by simp [changeFirst?])
  | cons row rest ih =>
    rw [changeFirst?] at h
    split at h
    · rename_i hid
      refine ⟨[], row, rest, rfl, by simpa using hid, by simp, ?_⟩
      rw [List.nil_append]
      exact (Option.some.inj h).symm
    · rename_i hid
      obtain ⟨after', hafter, rfl⟩ := Option.map_eq_some_iff.1 h
      obtain ⟨before, found, rest', rfl, hfound, hbefore, rfl⟩ := ih hafter
      refine ⟨row :: before, found, rest', rfl, hfound, ?_, by simp⟩
      intro other hother
      rw [List.mem_cons] at hother
      rcases hother with rfl | hother
      · simpa using hid
      · exact hbefore other hother

/-- There is nothing to change where no row has the identifier. -/
theorem changeFirst?_eq_none {id : String} {f : String → List String} {rows : List String} :
    changeFirst? id f rows = none ↔ ∀ row ∈ rows, Row.id row ≠ id := by
  induction rows with
  | nil => simp [changeFirst?]
  | cons row rest ih =>
    rw [changeFirst?]
    split
    · rename_i hid
      have hid' : Row.id row = id := eq_of_beq hid
      simp [hid']
    · rename_i hid
      rw [Option.map_eq_none_iff, ih, List.forall_mem_cons]
      exact ⟨fun h => ⟨by simpa using hid, h⟩, fun h => h.2⟩

/-- What holds of all rows and of the new ones holds of the rows after a change. -/
theorem forall_of_changeFirst? {P : String → Prop} {id : String} {f : String → List String}
    {rows after : List String} (h : changeFirst? id f rows = some after) (hrows : ∀ row ∈ rows, P row)
    (hf : ∀ row, ∀ line ∈ f row, P line) : ∀ row ∈ after, P row := by
  obtain ⟨before, found, rest, rfl, -, -, rfl⟩ := changeFirst?_eq_some h
  intro row hrow
  rw [List.mem_append, List.mem_append] at hrow
  rcases hrow with (hrow | hrow) | hrow
  · exact hrows row (by simp [hrow])
  · exact hf found row hrow
  · exact hrows row (by simp [hrow])

theorem changeFirst?_append {id : String} {f : String → List String} {before : List String}
    (hbefore : ∀ other ∈ before, Row.id other ≠ id) {row : String} (hrow : Row.id row = id)
    (rest : List String) :
    changeFirst? id f (before ++ row :: rest) = some (before ++ f row ++ rest) := by
  induction before with
  | nil => rw [List.nil_append, changeFirst?, if_pos (by simpa using hrow), List.nil_append]
  | cons first before ih =>
    rw [List.cons_append, changeFirst?, if_neg (by simpa using hbefore first (by simp)),
      ih fun other hother => hbefore other (by simp [hother])]
    simp

end Table

end FlatFileDb
