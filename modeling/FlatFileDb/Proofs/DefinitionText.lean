import FlatFileDb.Proofs.ColumnText
import Mathlib.Data.List.Forall2

/-!
# Definitions in print

A definition is cut at the commas outside of parentheses, and each item is trimmed and read on its own.
No printed column holds such a comma, and none starts or ends with a blank, so the items of a printed
definition are the columns that were printed.
-/

namespace FlatFileDb.Definition

variable {s : List Char}

/-! ### Cutting a definition -/

/-- Whether a character matters where a definition is cut. -/
def isCutting (c : Char) : Bool :=
  c == ',' || c == '(' || c == ')'

theorem isCutting_of_isNameChar {c : Char} (h : Text.isNameChar c = true) : isCutting c = false := by
  rw [← Bool.not_eq_true]
  intro hcuts
  simp only [isCutting, Bool.or_eq_true, beq_iff_eq] at hcuts
  rcases hcuts with (rfl | rfl) | rfl <;> exact absurd h (by decide)

theorem isCutting_of_isBlank {c : Char} (h : Text.isBlank c = true) : isCutting c = false := by
  rw [← Bool.not_eq_true]
  intro hcuts
  simp only [isCutting, Bool.or_eq_true, beq_iff_eq] at hcuts
  rcases hcuts with (rfl | rfl) | rfl <;> exact absurd h (by decide)

theorem isBlank_of_isGap {c : Char} (h : isGap c = true) : Text.isBlank c = true :=
  forall_isGap (P := fun c => Text.isBlank c = true) (by decide) c h

/-- Whether no cut falls into a text that stands outside of parentheses, nor one is moved by it. -/
def IsUncut (s : List Char) : Prop :=
  ∀ rest, cut 0 (s ++ rest) = (cut 0 rest).modifyHead (s ++ ·)

theorem cut_append {s : List Char} (hs : ∀ c ∈ s, isCutting c = false) (depth : Int)
    (rest : List Char) : cut depth (s ++ rest) = (cut depth rest).modifyHead (s ++ ·) := by
  induction s with
  | nil =>
    exact (congrFun List.modifyHead_id (cut depth rest)).symm
  | cons c s ih =>
    have hc := hs c List.mem_cons_self
    simp only [isCutting, Bool.or_eq_false_iff] at hc
    rw [List.cons_append, cut, hc.1.1, Bool.false_and, if_neg (by simp), depthAfter, hc.1.2, hc.2,
      if_neg (by simp), if_neg (by simp), ih fun d hd => hs d (List.mem_cons_of_mem c hd),
      List.modifyHead_modifyHead]
    rfl

theorem isUncut_of_forall (h : ∀ c ∈ s, isCutting c = false) : IsUncut s :=
  cut_append h 0

theorem IsUncut.append {t : List Char} (hs : IsUncut s) (ht : IsUncut t) : IsUncut (s ++ t) := by
  intro rest
  rw [List.append_assoc, hs, ht, List.modifyHead_modifyHead]
  refine congrArg (fun f => List.modifyHead f (cut 0 rest)) (funext fun piece => ?_)
  exact (List.append_assoc s t piece).symm

/-- No comma inside of parentheses cuts. -/
theorem isUncut_parenthesized (h : ∀ c ∈ s, c ≠ '(' ∧ c ≠ ')') : IsUncut ('(' :: (s ++ [')'])) := by
  have hinside (s rest : List Char) (h : ∀ c ∈ s, c ≠ '(' ∧ c ≠ ')') :
      cut 1 (s ++ rest) = (cut 1 rest).modifyHead (s ++ ·) := by
    induction s with
    | nil => exact (congrFun List.modifyHead_id (cut 1 rest)).symm
    | cons c s ih =>
      obtain ⟨hopen, hclose⟩ := h c List.mem_cons_self
      rw [List.cons_append, cut, if_neg (by simp), depthAfter, if_neg (by simpa using hopen),
        if_neg (by simpa using hclose), ih fun d hd => h d (List.mem_cons_of_mem c hd),
        List.modifyHead_modifyHead]
      rfl
  intro rest
  rw [List.cons_append, List.append_assoc, List.singleton_append, cut, if_neg (by simp)]
  change (cut 1 (s ++ ')' :: rest)).modifyHead _ = _
  rw [hinside s _ h, cut, if_neg (by simp)]
  change (((cut 0 rest).modifyHead _).modifyHead _).modifyHead _ = _
  rw [List.modifyHead_modifyHead, List.modifyHead_modifyHead]
  refine congrArg (fun f => List.modifyHead f (cut 0 rest)) (funext fun piece => ?_)
  simp

theorem cut_intercalate {pieces : List (List Char)} (hne : pieces ≠ [])
    (h : ∀ piece ∈ pieces, IsUncut piece) : cut 0 ([','].intercalate pieces) = pieces := by
  induction pieces with
  | nil => exact absurd rfl hne
  | cons piece pieces ih =>
    have hpiece := h piece List.mem_cons_self
    cases pieces with
    | nil =>
      have hall := hpiece []
      rw [List.append_nil] at hall
      rw [List.intercalate_singleton, hall, cut]
      simp
    | cons next rest =>
      have hmore := ih (by simp) fun other hother => h other (List.mem_cons_of_mem piece hother)
      rw [List.intercalate_cons_cons, List.append_assoc, hpiece, List.singleton_append, cut,
        if_pos (by simp), hmore]
      simp

/-- The items of a definition are what stands between its commas, trimmed. -/
theorem items_intercalate {items pieces : List (List Char)} (hne : items ≠ [])
    (h : List.Forall₂ Text.IsPadded items pieces) (huncut : ∀ item ∈ items, IsUncut item)
    (htrimmed : ∀ item ∈ items, item ≠ [] ∧ Text.trim item = item) :
    Definition.items ([','].intercalate pieces) = items := by
  have hpieces : pieces ≠ [] := by
    rintro rfl
    cases h
    exact hne rfl
  have hblank {gap : List Char} (hgap : ∀ c ∈ gap, Text.isBlank c = true) : IsUncut gap :=
    isUncut_of_forall fun c hc => isCutting_of_isBlank (hgap c hc)
  have hcut := cut_intercalate hpieces fun piece hmem => by
    obtain ⟨item, hitem, before, after, hbefore, hafter, rfl⟩ := exists_of_forall₂ h hmem
    exact (hblank hbefore).append ((huncut item hitem).append (hblank hafter))
  have hmap : pieces.map Text.trim = items := by
    clear hcut hpieces huncut hne
    induction h with
    | nil => rfl
    | @cons item piece items pieces hpadded hrest ih =>
      rw [List.map_cons, hpadded.trim, (htrimmed item List.mem_cons_self).2,
        ih fun other hother => htrimmed other (List.mem_cons_of_mem item hother)]
  have hlast : items.getLast? ≠ some [] := fun hlast =>
    (htrimmed [] (List.mem_of_getLast? hlast)).1 rfl
  rw [Definition.items, hcut, hmap]
  exact if_neg (by simpa using hlast)

/-! ### Items in print -/

/-- Whether the last character of a text is no blank. -/
def EndsFilled (s : List Char) : Prop :=
  ∃ front c, s = front ++ [c] ∧ Text.isBlank c = false

/-- Whether a text may stand at the end of an item: it is not cut, nor is its end trimmed. -/
structure IsPart (s : List Char) : Prop where
  uncut : IsUncut s
  filled : EndsFilled s

variable {t : List Char} {word : String} {words : List String} {column : Column}
  {constraint : Constraint} {constraints : List Constraint}

theorem IsUncut.append_part (hs : IsUncut s) (ht : IsPart t) : IsPart (s ++ t) := by
  obtain ⟨front, c, rfl, hc⟩ := ht.filled
  exact ⟨hs.append ht.uncut, s ++ front, c, (List.append_assoc s front [c]).symm, hc⟩

theorem isUncut_of_isGap (h : IsGap s) : IsUncut s :=
  isUncut_of_forall fun c hc => isCutting_of_isBlank (isBlank_of_isGap (h c hc))

theorem isPart_of_isNameChar (hne : s ≠ []) (h : ∀ c ∈ s, Text.isNameChar c = true) : IsPart s :=
  ⟨isUncut_of_forall fun c hc => isCutting_of_isNameChar (h c hc), s.dropLast, s.getLast hne,
    (List.dropLast_append_getLast hne).symm, Name.isBlank_eq_false (h _ (List.getLast_mem hne))⟩

theorem isPart_of_isValid {name : String} (h : Name.isValid name = true) : IsPart name.toList :=
  isPart_of_isNameChar (Name.toList_ne_nil h) fun _ hc => Name.isNameChar_of_mem h hc

theorem IsWord.isPart (h : IsWord word s) (hword : IsNameWord word) : IsPart s :=
  isPart_of_isNameChar (h.ne_nil hword.1) (h.isNameChar hword.2)

theorem isPart_parenthesized (h : ∀ c ∈ s, c ≠ '(' ∧ c ≠ ')') : IsPart ('(' :: (s ++ [')'])) :=
  ⟨isUncut_parenthesized h, '(' :: s, ')', rfl, by decide⟩

theorem isUncut_singleton {c : Char} (h : isCutting c = false) : IsUncut [c] :=
  isUncut_of_forall (List.forall_mem_singleton.2 h)

theorem isUncut_colon : IsUncut [':'] :=
  isUncut_singleton (by decide)

theorem isPart_written {target : Reference} (h : IsNamed target) : IsPart target.written := by
  have hdot : IsUncut ['.'] := isUncut_singleton (by decide)
  exact (isPart_of_isValid h.1).uncut.append_part (hdot.append_part (isPart_of_isValid h.2))

theorem PrintsWords.isPart (h : PrintsWords words s)
    (hwords : ∀ word ∈ words, IsNameWord word) : IsPart s := by
  induction h with
  | last h => exact h.isPart (hwords _ List.mem_cons_self)
  | more h hgap _ _ ih =>
    exact (h.isPart (hwords _ List.mem_cons_self)).uncut.append_part
      ((isUncut_of_isGap hgap).append_part
        (ih fun word hword => hwords word (List.mem_cons_of_mem _ hword)))

theorem PrintsConstraint.isPart (h : PrintsConstraint constraint s)
    (htarget : ∀ target, constraint = .references target → IsNamed target) : IsPart s := by
  cases h with
  | primaryKey hwords h => exact h.isPart (isNameWord_primaryKey _ hwords)
  | unique h => exact h.isPart (by decide)
  | notNull hwords h => exact h.isPart (isNameWord_notNull _ hwords)
  | references hwords h hgap =>
    exact (h.isPart (isNameWord_foreignKey _ hwords)).uncut.append_part
      ((isUncut_of_isGap hgap).append_part (isPart_written (htarget _ rfl)))
  | @parenthesized s target h =>
    have hnamed := htarget target rfl
    refine (h.isPart (by decide)).uncut.append_part (isPart_parenthesized fun c hc => ?_)
    rw [Reference.written, List.mem_append, List.mem_cons] at hc
    have hchar : c = '.' ∨ Text.isNameChar c = true := by
      rcases hc with hc | rfl | hc
      · exact .inr (Name.isNameChar_of_mem hnamed.1 hc)
      · exact .inl rfl
      · exact .inr (Name.isNameChar_of_mem hnamed.2 hc)
    constructor
    all_goals
      rintro rfl
      exact absurd hchar (by decide)

theorem PrintsConstraints.isPart_append (h : PrintsConstraints constraints s)
    (htargets : ∀ target, .references target ∈ constraints → IsNamed target) (ht : IsPart t) :
    IsPart (t ++ s) := by
  induction h generalizing t with
  | nothing => rwa [List.append_nil]
  | @more constraint constraints before after s rest hbefore hafter h hrest ih =>
    have hfirst : IsPart s :=
      h.isPart fun target htarget => htargets target (htarget ▸ List.mem_cons_self)
    have hparts := ih (fun target htarget => htargets target (List.mem_cons_of_mem _ htarget)) hfirst
    exact ht.uncut.append_part ((isUncut_of_isGap hbefore).append_part
      (isUncut_colon.append_part ((isUncut_of_isGap hafter).append_part hparts)))

theorem PrintsArguments.isPart_append {arguments : List String} (h : PrintsArguments arguments s)
    (hchars : ∀ argument ∈ arguments, '(' ∉ argument.toList ∧ ')' ∉ argument.toList)
    (ht : IsPart t) : IsPart (t ++ s) := by
  cases h with
  | nothing => rwa [List.append_nil]
  | @listed _ pieces hne h =>
    have hpiece : ∀ piece ∈ pieces, '(' ∉ piece ∧ ')' ∉ piece := by
      intro piece hmem
      obtain ⟨argument, hargument, hpadded⟩ := exists_of_forall₂ h hmem
      obtain ⟨hopen, hclose⟩ := hchars argument hargument
      exact ⟨hpadded.not_mem (by decide) hopen, hpadded.not_mem (by decide) hclose⟩
    refine ht.uncut.append_part (isPart_parenthesized fun c hc => ?_)
    rcases mem_intercalate hc with rfl | ⟨piece, hmem, hc⟩
    · decide
    · exact ⟨fun heq => (hpiece piece hmem).1 (heq ▸ hc), fun heq => (hpiece piece hmem).2 (heq ▸ hc)⟩

theorem PrintsColumn.isPart (h : PrintsColumn column s) (hcolumn : column.IsPrintable) :
    IsPart s := by
  obtain @⟨before, after, type, s, constraints, hbefore, hafter, htype, hconstraints, h⟩ := h
  obtain @⟨name, written, arguments, hname, hwritten, harguments⟩ := htype
  obtain ⟨-, hne, hchars⟩ := DataType.upper_of_mem_names hname
  have htype : IsPart (written ++ arguments) := by
    refine harguments.isPart_append (fun argument hmem => ?_) (hwritten.isPart ⟨hne, hchars⟩)
    obtain ⟨-, -, hchars⟩ := hcolumn.type.arguments argument hmem
    exact ⟨fun hc => (hchars _ hc).2.1 rfl, fun hc => (hchars _ hc).2.2 rfl⟩
  have htargets : ∀ target, .references target ∈ constraints → IsNamed target :=
    fun target hmem => hcolumn.reference target ((hconstraints.references target).1 hmem)
  exact (isPart_of_isValid hcolumn.name).uncut.append_part
    ((isUncut_of_isGap hbefore).append_part
      (isUncut_colon.append_part ((isUncut_of_isGap hafter).append_part (h.isPart_append htargets htype))))

/-- A printed column starts with its name and ends with a word or a parenthesis. -/
theorem PrintsColumn.trimmed (h : PrintsColumn column s) (hcolumn : column.IsPrintable) :
    s ≠ [] ∧ Text.trim s = s := by
  obtain ⟨front, last, hlast, hfilled⟩ := (h.isPart hcolumn).filled
  obtain ⟨first, rest, hfirst, hname⟩ :
      ∃ first rest, s = first :: rest ∧ Text.isNameChar first = true := by
    obtain @⟨before, after, type, s, constraints, hbefore, hafter, htype, hconstraints, h⟩ := h
    obtain ⟨c, name, hc⟩ := List.exists_cons_of_ne_nil (Name.toList_ne_nil hcolumn.name)
    exact ⟨c, _, by rw [hc]; rfl, Name.isNameChar_of_mem hcolumn.name (hc ▸ List.mem_cons_self)⟩
  refine ⟨hfirst ▸ List.cons_ne_nil first rest, ?_⟩
  rw [Text.trim, hfirst, Text.trimStart_of_head (Name.isBlank_eq_false hname), ← hfirst, hlast,
    Text.trimEnd_of_last hfilled]

/-! ### Reading a definition -/

/-- Printed columns are read one by one behind the ones already read. -/
theorem columnsAfter_of_prints (done : List Column) {columns : List Column} {items : List (List Char)}
    (h : List.Forall₂ PrintsColumn columns items) (hcolumns : ∀ column ∈ columns, column.IsPrintable)
    (hdistinct : ((done ++ columns).map Column.name).Nodup) :
    columnsAfter done items = .ok (done ++ columns) := by
  induction h generalizing done with
  | nil => rw [columnsAfter, List.append_nil]
  | @cons column item columns items hfirst hrest ih =>
    have hread := column_of_prints (hcolumns column List.mem_cons_self) hfirst
    have hnew : (done.any fun other => other.name == column.name) = false := by
      rw [List.any_eq_false]
      intro other hother hsame
      rw [List.map_append, List.nodup_append] at hdistinct
      exact hdistinct.2.2 other.name (List.mem_map_of_mem hother) column.name
        (List.mem_map_of_mem List.mem_cons_self) (beq_iff_eq.1 hsame)
    have hmore := ih (done ++ [column])
      (fun other hother => hcolumns other (List.mem_cons_of_mem column hother))
      (by rwa [List.append_assoc])
    rw [columnsAfter, hread]
    change (do
      if done.any fun other => other.name == column.name then
        throw (Error.duplicateColumn column.name)
      columnsAfter (done ++ [column]) items) = _
    rw [hnew]
    change columnsAfter (done ++ [column]) items = _
    rw [hmore, List.append_assoc]
    rfl

/-! ### Every column has a printed form -/

/-- The constraints of a column, one by one. -/
def constraintsOf (column : Column) : List Constraint :=
  (if column.primaryKey then [.primaryKey] else []) ++ (if column.unique then [.unique] else []) ++
    (if column.notNull then [.notNull] else []) ++ (column.reference.map Constraint.references).toList

theorem isConstrainedBy_constraintsOf
    (h : column.primaryKey = true → column.unique = true ∧ column.notNull = true) :
    column.IsConstrainedBy (constraintsOf column) := by
  obtain ⟨name, type, primaryKey, unique, notNull, reference⟩ := column
  constructor
  all_goals
    revert h
    cases primaryKey <;> cases unique <;> cases notNull <;> cases reference <;>
      simp [constraintsOf, eq_comm]

theorem exists_printsConstraint (constraint : Constraint) : ∃ s, PrintsConstraint constraint s := by
  cases constraint with
  | primaryKey => exact ⟨_, .primaryKey (by decide) (.last (isWord_self "PK"))⟩
  | unique => exact ⟨_, .unique (isWord_self "UNIQUE")⟩
  | notNull => exact ⟨_, .notNull (by decide) (.last (isWord_self "NOT_NULL"))⟩
  | references target => exact ⟨_, .parenthesized (isWord_self "FK")⟩

theorem exists_printsConstraints (constraints : List Constraint) :
    ∃ s, PrintsConstraints constraints s := by
  induction constraints with
  | nil => exact ⟨[], .nothing⟩
  | cons constraint constraints ih =>
    obtain ⟨s, hs⟩ := exists_printsConstraint constraint
    obtain ⟨rest, hrest⟩ := ih
    exact ⟨_, .more isGap_nil isGap_nil hs hrest⟩

theorem isPadded_self (s : List Char) : Text.IsPadded s s := by
  refine ⟨[], [], ?_, ?_, (List.append_nil s).symm⟩
  all_goals exact fun _ hc => absurd hc List.not_mem_nil

theorem forall₂_isPadded (items : List (List Char)) : List.Forall₂ Text.IsPadded items items :=
  List.forall₂_same.2 fun item _ => isPadded_self item

/-- The written form of a type is one that it may be printed in. -/
theorem printsType_render {type : DataType} (h : type.IsPrintable) :
    PrintsType type type.render.toList := by
  have hplain (type : DataType) {name : String} (hname : name ∈ type.names)
      (hnone : type.arguments = []) : PrintsType type name.toList := by
    have hprints := PrintsType.named hname (isWord_self name) (hnone ▸ PrintsArguments.nothing)
    rwa [List.append_nil] at hprints
  have hlisted (type : DataType) {name : String} (hname : name ∈ type.names)
      (hsome : type.arguments ≠ []) : PrintsType type (name.toList ++
        '(' :: ([','].intercalate (type.arguments.map String.toList) ++ [')'])) :=
    .named hname (isWord_self name)
      (.listed hsome (List.forall₂_map_right_iff.2 (List.forall₂_same.2 fun _ _ => isPadded_self _)))
  cases type with
  | char length =>
    have hprints := hlisted (.char length) List.mem_cons_self (List.cons_ne_nil _ _)
    rw [DataType.arguments, List.map_singleton, List.intercalate_singleton] at hprints
    rw [DataType.render, String.toList_append, String.toList_append, List.append_assoc]
    exact hprints
  | enum variants =>
    have hprints := hlisted (.enum variants) List.mem_cons_self h.1
    rw [DataType.arguments] at hprints
    rw [DataType.render, String.toList_append, String.toList_append, String.toList_intercalate,
      List.append_assoc]
    exact hprints
  | int | float | string | text | bool | date => exact hplain _ List.mem_cons_self rfl

theorem exists_printsColumn (h : column.IsPrintable) : ∃ s, PrintsColumn column s := by
  obtain ⟨s, hs⟩ := exists_printsConstraints (constraintsOf column)
  exact ⟨_, .item isGap_nil isGap_nil (printsType_render h.type)
    (isConstrainedBy_constraintsOf h.key) hs⟩

theorem exists_printsColumns {columns : List Column}
    (h : ∀ column ∈ columns, column.IsPrintable) : ∃ s, PrintsColumns columns s := by
  have hitems : ∃ items, List.Forall₂ PrintsColumn columns items := by
    induction columns with
    | nil => exact ⟨[], .nil⟩
    | cons column columns ih =>
      obtain ⟨item, hitem⟩ := exists_printsColumn (h column List.mem_cons_self)
      obtain ⟨items, hitems⟩ := ih fun other hother => h other (List.mem_cons_of_mem column hother)
      exact ⟨item :: items, .cons hitem hitems⟩
  obtain ⟨items, hitems⟩ := hitems
  exact ⟨_, .items hitems (forall₂_isPadded items)⟩

/-- Columns with distinct names have a printed form, and whatever the form they are printed in, the
definition is read as exactly these columns. -/
theorem columns_of_prints {columns : List Column} (hne : columns ≠ [])
    (hdistinct : (columns.map Column.name).Nodup)
    (hcolumns : ∀ column ∈ columns, column.IsPrintable) :
    (∃ s, PrintsColumns columns s) ∧
      ∀ s, PrintsColumns columns s → Definition.columns (String.ofList s) = .ok columns := by
  refine ⟨exists_printsColumns hcolumns, fun s h => ?_⟩
  obtain @⟨items, pieces, hitems, hpieces⟩ := h
  have hitem {item : List Char} (hmem : item ∈ items) : IsPart item ∧ item ≠ [] ∧
      Text.trim item = item := by
    obtain ⟨column, hcolumn, hprints⟩ := exists_of_forall₂ hitems hmem
    exact ⟨hprints.isPart (hcolumns column hcolumn), hprints.trimmed (hcolumns column hcolumn)⟩
  have hsome : items ≠ [] := by
    rintro rfl
    cases hitems
    exact hne rfl
  have hread := items_intercalate hsome hpieces (fun item hmem => (hitem hmem).1.uncut)
    fun item hmem => (hitem hmem).2
  obtain ⟨first, rest, rfl⟩ := List.exists_cons_of_ne_nil hsome
  rw [Definition.columns, String.toList_ofList, hread]
  exact columnsAfter_of_prints [] hitems hcolumns hdistinct

theorem columns_of_prints_staff :
    Definition.columns
        " id : integer: Primary  Key,status:Enum( active , on leave ):fk(states.name) :Not_Null "
      = .ok [⟨"id", .int, true, true, true, none⟩,
          ⟨"status", .enum ["active", "on leave"], false, false, true,
            some ⟨"states", "name"⟩⟩] := by
  have hgap {s : List Char} (h : s.all isGap = true) : IsGap s := List.all_eq_true.1 h
  have hpadded {s : List Char} (before after : List Char) (hbefore : before.all Text.isBlank = true)
      (hafter : after.all Text.isBlank = true) : Text.IsPadded s (before ++ (s ++ after)) :=
    ⟨before, after, List.all_eq_true.1 hbefore, List.all_eq_true.1 hafter, rfl⟩
  have hprimary : IsWord "PRIMARY" "Primary".toList := rfl
  have hkey : IsWord "KEY" "Key".toList := rfl
  have hnot : IsWord "NOT_NULL" "Not_Null".toList := rfl
  have hinteger : IsWord "INTEGER" "integer".toList := rfl
  have henum : IsWord "ENUM" "Enum".toList := rfl
  have hforeign : IsWord "FK" "fk".toList := rfl
  have hid : PrintsColumn ⟨"id", .int, true, true, true, none⟩
      "id : integer: Primary  Key".toList := by
    have hwords : PrintsWords ["PRIMARY", "KEY"] "Primary  Key".toList :=
      .more hprimary (hgap rfl : IsGap "  ".toList) (by decide) (.last hkey)
    have hconstraints : PrintsConstraints [.primaryKey] ": Primary  Key".toList :=
      .more isGap_nil (hgap rfl : IsGap " ".toList) (.primaryKey (by decide) hwords) .nothing
    have hconstrained : Column.IsConstrainedBy ⟨"id", .int, true, true, true, none⟩ [.primaryKey] := by
      constructor <;> simp
    have htype : PrintsType .int "integer".toList := .named (by decide) hinteger .nothing
    exact .item (hgap rfl : IsGap " ".toList) (hgap rfl : IsGap " ".toList) htype hconstrained
      hconstraints
  have hstatus : PrintsColumn ⟨"status", .enum ["active", "on leave"], false, false, true,
      some ⟨"states", "name"⟩⟩ "status:Enum( active , on leave ):fk(states.name) :Not_Null".toList := by
    have htype : PrintsType (.enum ["active", "on leave"]) "Enum( active , on leave )".toList :=
      .named (by decide) henum (.listed (by decide)
        (.cons (hpadded [' '] [' '] rfl rfl) (.cons (hpadded [' '] [' '] rfl rfl) .nil)))
    have hconstraints : PrintsConstraints [.references ⟨"states", "name"⟩, .notNull]
        ":fk(states.name) :Not_Null".toList :=
      .more isGap_nil isGap_nil (.parenthesized hforeign)
        (.more (hgap rfl : IsGap " ".toList) isGap_nil (.notNull (by decide) (.last hnot)) .nothing)
    have hconstrained : Column.IsConstrainedBy ⟨"status", .enum ["active", "on leave"], false, false,
        true, some ⟨"states", "name"⟩⟩ [.references ⟨"states", "name"⟩, .notNull] := by
      constructor <;> simp [eq_comm]
    exact .item isGap_nil isGap_nil htype hconstrained hconstraints
  have hnames : Name.isValid "id" = true ∧ Name.isValid "status" = true ∧
      Name.isValid "states" = true ∧ Name.isValid "name" = true := by
    decide
  have hvariants : ∀ variant ∈ ["active", "on leave"], DataType.IsVariant variant := by
    simp only [List.forall_mem_cons]
    exact ⟨⟨by decide, by decide, by decide⟩, ⟨by decide, by decide, by decide⟩, by simp⟩
  refine (columns_of_prints (by decide) (by decide) ?_).2
    " id : integer: Primary  Key,status:Enum( active , on leave ):fk(states.name) :Not_Null ".toList
    (.items (.cons hid (.cons hstatus .nil))
      (.cons (hpadded [' '] [] rfl rfl) (.cons (hpadded [] [' '] rfl rfl) .nil)))
  simp only [List.forall_mem_cons]
  refine ⟨⟨hnames.1, trivial, fun _ => ⟨rfl, rfl⟩, by simp⟩,
    ⟨hnames.2.1, ⟨by simp, hvariants⟩, by simp, ?_⟩, by simp⟩
  rintro target ⟨rfl⟩
  exact hnames.2.2

end FlatFileDb.Definition
