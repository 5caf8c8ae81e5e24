import FlatFileDb.Proofs.Form
import FlatFileDb.Proofs.Insertion

/-!
# Updates and deletions made at once

Outside of a transaction an update or a deletion that succeeds has read the rows of the table, written
those that it makes of them and told how many it matched; what follows patches indexes only. A row is read
back as it was written unless it is blank. In a table of one column an update can leave a row blank, and
then there is no row any more; nothing else is lost.
-/

namespace FlatFileDb

/-- A blank row has one field. -/
theorem Row.fields_of_blank {row : String} (h : Text.isFilled row = false) : fields row = [row] := by
  have hbar : delimiter ∉ row.toList := by
    intro hmem
    have hblank : ∀ c ∈ row.toList, Text.isBlank c = true := by simpa [Text.isFilled] using h
    exact absurd (hblank delimiter hmem) (by decide)
  have hone := @fields_ofFields [row] (by simp) (List.forall_mem_singleton.2 hbar)
  rwa [ofFields, String.intercalate_singleton] at hone

namespace TableSchema

/-- What an update makes of a row that it matches: a column to which a value is assigned holds it, and
the others hold what they held. -/
structure Assigns (schema : TableSchema) (assigned : Keyed String String) (row row' : String) : Prop where
  width : (Row.fields row').length = (Row.fields row).length
  fields : ∀ (position : Nat) (column : Column), schema.columns[position]? = some column →
    (Row.fields row')[position]? = (assigned.get? column.name).or (Row.fields row)[position]?

/-- What an update makes of a row. -/
structure Updates (schema : TableSchema) (assigned : Keyed String String) (conditions : List Condition)
    (row row' : String) : Prop where
  unmatched : schema.matchesRow conditions row = false → row' = row
  matched : schema.matchesRow conditions row = true → schema.Assigns assigned row row'

variable {schema : TableSchema} {assigned : Keyed String String} {conditions : List Condition}
  {row row' : String}

/-- A row that is left blank is the one field of a table of one column, to which the blank was
assigned. -/
theorem Updates.blank (h : schema.Updates assigned conditions row row') (htakes : schema.Takes row)
    (hfilled : Text.isFilled row = true) (hblank : Text.isFilled row' = false) :
    ∃ column, schema.columns = [column] ∧ assigned.get? column.name = some row' := by
  have hmatched : schema.matchesRow conditions row = true := by
    rw [← Bool.not_eq_false]
    intro hunmatched
    rw [h.unmatched hunmatched, hfilled] at hblank
    exact absurd hblank (by simp)
  have hassigns := h.matched hmatched
  have hfields := Row.fields_of_blank hblank
  have hwidth : (Row.fields row).length = 1 := by rw [← hassigns.width, hfields]; rfl
  obtain ⟨column, hcolumn⟩ := List.length_eq_one_iff.1 (htakes.width.symm.trans hwidth)
  refine ⟨column, hcolumn, ?_⟩
  have hfield := hassigns.fields 0 column (by rw [hcolumn]; rfl)
  rw [hfields] at hfield
  cases hgiven : assigned.get? column.name with
  | some value =>
    rw [hgiven] at hfield
    exact hfield.symm
  | none =>
    -- Nothing was assigned, so the row is what it was, and it was not blank.
    obtain ⟨field, hone⟩ := List.length_eq_one_iff.1 hwidth
    rw [hgiven, hone] at hfield
    obtain rfl : row' = field := Option.some.inj hfield
    have hsame : row' = row := by
      rw [← Row.ofFields_fields row, ← Row.ofFields_fields row', hfields, hone]
    rw [hsame, hfilled] at hblank
    exact absurd hblank (by simp)

end TableSchema

/-- What can be made of the rows of a table is made. -/
theorem Table.modify_of_rows {α : Type} {database table : String} {rows after : List String} {a : α}
    {disk : Disk} (hrows : Table.rows disk database table = .ok rows)
    (f : List String → Except Error (List String × α)) (hf : f rows = .ok (after, a)) :
    ∃ disk', modify database table f disk = (.ok a, disk') ∧
      Disk.writeFile (Path.table database table) (Text.ofLines after) disk = (.ok (), disk') := by
  obtain ⟨place, text, hlocate, rfl⟩ := locate_of_rows hrows
  refine ⟨_, ?_, Disk.writeFile_of_place (Disk.filePlace?_of_file hlocate) _⟩
  rw [modify_of_locate hlocate, hf]

namespace Engine

variable {who : Identity} {database table : String} {assigned : Keyed String String}
  {conditions : List Condition} {rows after : List String} {schema : TableSchema} {e e₁ e' : Engine}

/-! ### What is assigned to a column -/

/-- A name that is there once is found with what stands beside it. -/
theorem lookup_of_mem {pairs : List (String × String)} (hkeys : (pairs.map Prod.fst).Nodup)
    {pair : String × String} (h : pair ∈ pairs) : pairs.lookup pair.1 = some pair.2 := by
  induction pairs with
  | nil => exact absurd h List.not_mem_nil
  | cons first rest ih =>
    obtain ⟨hfresh, hkeys⟩ := List.nodup_cons.1 hkeys
    rcases List.mem_cons.1 h with rfl | h
    · rw [List.lookup_cons, beq_self_eq_true]
    · have hother : pair.1 ≠ first.1 := fun hsame => hfresh (hsame ▸ List.mem_map_of_mem h)
      rw [List.lookup_cons, beq_eq_false_iff_ne.2 hother]
      exact ih hkeys h

/-- A column gets the value that is assigned to its name. -/
theorem PassesAs.valueAt? {pairs : List (String × String)} {assignments : List Assignment}
    (h : PassesAs schema pairs assignments) (hkeys : (pairs.map Prod.fst).Nodup)
    (hsound : schema.IsSound) {position : Nat} {column : Column}
    (hcolumn : schema.columns[position]? = some column) :
    Assignment.valueAt? assignments position = pairs.lookup column.name := by
  have hindex := TableSchema.columnIndex?_of_getElem? hsound hcolumn
  induction h with
  | nil => rfl
  | @cons pair a rest more hpair hrest ih =>
    obtain ⟨hposition, hthere, hvalue, -⟩ := hpair
    obtain ⟨hfresh, hkeys⟩ := List.nodup_cons.1 hkeys
    rw [Assignment.valueAt?_cons, ih hkeys, List.lookup_cons]
    by_cases hsame : column.name = pair.1
    · have hnone : rest.lookup column.name = none := by
        rw [List.lookup_eq_none_iff]
        intro other hother
        rw [bne_iff_ne]
        exact fun hname => hfresh (List.mem_map.2 ⟨other, hother, hname.symm.trans hsame⟩)
      rw [← hsame, hindex, Option.some.injEq] at hposition
      rw [hnone, Option.none_or, if_pos hposition.symm, hsame, beq_self_eq_true, hvalue]
    · have hother : a.position ≠ position := by
        rintro rfl
        obtain ⟨hbound, hname, -⟩ := List.findIdx?_eq_some_iff_getElem.1 hposition
        rw [List.getElem?_eq_getElem hbound, Option.some.injEq] at hcolumn
        exact hsame (hcolumn ▸ beq_iff_eq.1 hname)
      rw [if_neg hother, Option.or_none, beq_eq_false_iff_ne.2 hsame]

/-- Every value that is assigned is that of its column afterwards. -/
theorem PassesAs.valueAt?_of_mem {pairs : List (String × String)} {assignments : List Assignment}
    (h : PassesAs schema pairs assignments) (hkeys : (pairs.map Prod.fst).Nodup)
    (hsound : schema.IsSound) {a : Assignment} (ha : a ∈ assignments) :
    Assignment.valueAt? assignments a.position = some a.value := by
  obtain ⟨pair, hpair, hindex, hthere, hvalue, -⟩ := h.exists_of_mem ha
  obtain ⟨hbound, hname, -⟩ := List.findIdx?_eq_some_iff_getElem.1 hindex
  obtain ⟨hbound', hcolumn⟩ := List.getElem?_eq_some_iff.1 hthere
  rw [hcolumn] at hname
  rw [h.valueAt? hkeys hsound hthere, eq_of_beq hname, hvalue]
  exact lookup_of_mem hkeys hpair

/-- What an update makes of rows, if it makes it. -/
theorem PassesAs.updates_map {assignments : List Assignment}
    (h : PassesAs schema assigned.entries assignments) (hkeys : assigned.keys.Nodup)
    (hsound : schema.IsSound) (hrows : AllTaken schema rows) (conditions : List Condition) :
    List.Forall₂ (schema.Updates assigned conditions) rows (rows.map fun row =>
      if schema.matchesRow conditions row then schema.assign assignments row else row) := by
  rw [List.forall₂_map_right_iff, List.forall₂_same]
  intro row hrow
  have htakes := hrows row hrow
  refine ⟨fun hunmatched => by simp [hunmatched], fun hmatched => ?_⟩
  rw [if_pos hmatched]
  refine ⟨(TableSchema.length_fields_assign h.isClean row htakes.columns_pos).trans htakes.width.symm,
    fun position column hcolumn => ?_⟩
  have hposition := (List.getElem?_eq_some_iff.1 hcolumn).1
  rw [TableSchema.getElem?_fields_assign h.isClean row hposition,
    h.valueAt? hkeys hsound hcolumn, List.getElem?_eq_getElem (by rwa [htakes.width])]
  change _ = (assigned.entries.lookup column.name).or _
  cases assigned.entries.lookup column.name <;> rfl

/-- Rows are updated each in its place. -/
theorem PassesAs.updates {assignments : List Assignment} {changed : List (String × String)}
    (h : PassesAs schema assigned.entries assignments) (hkeys : assigned.keys.Nodup)
    (hsound : schema.IsSound) (hrows : AllTaken schema rows)
    (hupdate : schema.update assignments conditions rows = .ok (after, changed)) :
    List.Forall₂ (schema.Updates assigned conditions) rows after := by
  obtain ⟨rfl, -, -⟩ := TableSchema.update_eq_ok hupdate
  exact h.updates_map hkeys hsound hrows conditions

/-- Values are assigned to columns of the table only. -/
theorem PassesAs.mem_fieldNames {assignments : List Assignment}
    (h : PassesAs schema assigned.entries assignments) :
    ∀ name ∈ assigned.keys, name ∈ schema.fieldNames := by
  intro name hname
  obtain ⟨pair, hpair, rfl⟩ := List.mem_map.1 hname
  obtain ⟨i, hi, rfl⟩ := List.getElem_of_mem hpair
  obtain ⟨hbound, hsame, -⟩ := List.findIdx?_eq_some_iff_getElem.1
    (h.get hi (by rw [← h.length_eq]; exact hi)).1
  exact List.mem_map.2 ⟨_, List.getElem_mem hbound, beq_iff_eq.1 hsame⟩

/-! ### Replacing the rows of a table -/

/-- The file of a table was written anew and besides at most indexes: what were `rows` before is `after`
now, but for blank ones. -/
structure Replaces (database table : String) (rows after : List String) (e e' : Engine) : Prop where
  fills : Fills Path.IsOfTables e e'
  before : Table.rows e.disk database table = .ok rows
  rows : Table.rows e'.disk database table = .ok (after.filter Text.isFilled)

theorem replaces_of_write {disk : Disk} (hquiet : Quiet e e₁)
    (hrows : Table.rows e.disk database table = .ok rows) (hlines : ∀ row ∈ after, Text.IsLine row)
    (hwrite : Disk.writeFile (Path.table database table) (Text.ofLines after) e.disk = (.ok (), disk))
    (upkeep : Upkeep) :
    Replaces database table rows after e (upkeep.step { e₁ with disk }).2 := by
  obtain ⟨place, text, hlocate, -⟩ := Table.locate_of_rows hrows
  have hplace := Disk.filePlace?_of_file hlocate
  obtain rfl : e.disk.put place (.file (Text.ofLines after)) = disk :=
    congrArg Prod.snd ((Disk.writeFile_of_place hplace _).symm.trans hwrite)
  let written : Engine := { e₁ with disk := e.disk.put place (.file (Text.ofLines after)) }
  have hgrows : Disk.Grows (fun _ => True) Path.IsOfTables e.disk written.disk :=
    (Disk.within_writeFile _ fun _ hlast =>
      .inl ((Path.endsIn_table database table).congr hlast)).after hwrite
  have hwritten : Fills Path.IsOfTables e written :=
    ⟨hgrows, hquiet.transactions, fun _ hjob => .inl (hquiet.latestJobs ▸ hjob)⟩
  refine ⟨IsTrans.trans _ _ _ hwritten ((upkeep.fills written).mono fun _ hindex => .inr (.inl hindex)),
    hrows, ?_⟩
  rw [Table.rows_alike (fun _ => Index.not_endsIn_table) (rewrites_of_upkeep upkeep written)]
  change Table.rows (e.disk.put place (.file (Text.ofLines after))) database table = _
  rw [Table.rows_of_locate (Disk.locate_put hplace _),
    Text.filledLines_ofLines fun row hrow => (hlines row hrow).isUnbroken]

/-- An update that is made at once. -/
theorem IsSound.update_cases (h : e.IsSound) (hfree : e.inTransaction who.user = false)
    {effect : Effect} (hupdate : update who database table assigned conditions e = (.ok effect, e')) :
    ∃ schema assignments rows after changed, e.knownSchema database table = .ok schema ∧
      PassesAs schema assigned.entries assignments ∧
      schema.update assignments conditions rows = .ok (after, changed) ∧
      effect.outcome = .ofMessage s!"{countText changed.length} row(s) updated in '{table}'" ∧
      Replaces database table rows after e e' := by
  unfold update at hupdate
  rcases (observes_writableSchema who database table).run_bind _ e with
    ⟨failure, e₁, hquiet, hrun⟩ | ⟨schema, e₁, hquiet, hschema, hrun⟩
  · exact absurd (congrArg Prod.fst (hrun.symm.trans hupdate)) (by simp)
  rw [hrun] at hupdate
  rcases (Observes.mapM fun pair => observes_checkAssignment schema database table pair).run_bind _ e₁
    with ⟨failure, e₂, hmore, hrun⟩ | ⟨assignments, e₂, hmore, hassigned, hrun⟩
  · exact absurd (congrArg Prod.fst (hrun.symm.trans hupdate)) (by simp)
  replace hquiet := IsTrans.trans _ _ _ hquiet hmore
  rw [hrun, isBuffering_bind, hquiet.inTransaction, hfree, if_neg (by simp)] at hupdate
  rcases onDisk_bind (Table.modify database table (schema.update assignments conditions)) _ e₂ with
    ⟨failure, disk, hmodify, hrun⟩ | ⟨changed, disk, hmodify, hrun⟩
  · exact absurd (congrArg Prod.fst (hrun.symm.trans hupdate)) (by simp)
  rw [hrun] at hupdate
  rw [hquiet.disk] at hmodify
  rcases modify_cases hmodify with ⟨⟨failure, hfailure⟩, -⟩ | ⟨rows, after, found, hrows, hchange,
    hresult, hwrite⟩
  · exact absurd hfailure (by simp)
  obtain rfl := Except.ok.inj hresult
  have hpasses := passesAs_of_mapM hassigned
  have hlines := (isLine_update hpasses hchange fun row hrow => (h.disk.row hrows row hrow).1).1
  have hknown := writableSchema_eq_ok hschema
  refine ⟨schema, assignments, rows, after, changed, hknown, hpasses, hchange, ?_⟩
  cases changed with
  | nil =>
    obtain ⟨heffect, rfl⟩ := Prod.mk.inj hupdate
    rw [← Except.ok.inj heffect]
    exact ⟨rfl, replaces_of_write hquiet hrows hlines hwrite .none⟩
  | cons first rest =>
    have hpatched := (Action.bind_of_ok (patchIndexes_ok schema _ _ _)).symm.trans hupdate
    obtain ⟨heffect, rfl⟩ := Prod.mk.inj hpatched
    rw [← Except.ok.inj heffect]
    exact ⟨rfl, replaces_of_write hquiet hrows hlines hwrite
      (.rows database schema ((first :: rest).map Prod.fst) ((first :: rest).map Prod.snd))⟩

/-- A deletion that may be made is made at once. -/
theorem IsSound.delete_of_writable (h : e.IsSound) (hfree : e.inTransaction who.user = false)
    (hschema : (writableSchema who database table e).1 = .ok schema)
    (hrows : Table.rows e.disk database table = .ok rows) :
    ∃ effect e', delete who database table conditions e = (.ok effect, e') ∧
      effect.outcome = .ofMessage
        s!"{countText (rows.filter (schema.matchesRow conditions)).length} row(s) deleted from '{table}'" ∧
      Replaces database table rows (rows.filter fun row => !schema.matchesRow conditions row) e e' := by
  have hquiet := (observes_writableSchema who database table).quiet e
  generalize hlooked : (writableSchema who database table e).2 = e₁ at hquiet
  obtain ⟨disk, hmodify, hwrite⟩ := Table.modify_of_rows hrows
    (fun rows => .ok (schema.delete conditions rows)) (congrArg _ (schema.delete_eq conditions rows))
  rw [← hquiet.disk] at hmodify
  have hdone : Engine.onDisk (Table.modify database table fun rows => .ok (schema.delete conditions rows))
      e₁ = (.ok (rows.filter (schema.matchesRow conditions)), { e₁ with disk }) := by
    rw [Engine.onDisk, Action.onPart_apply, hmodify]
  have hreplaces := replaces_of_write hquiet hrows (fun row hrow =>
    (h.disk.row hrows row (List.mem_filter.1 hrow).1).1) hwrite
  unfold delete
  rw [Action.bind_of_ok (Prod.ext hschema hlooked), isBuffering_bind, hquiet.inTransaction, hfree,
    if_neg (by simp), Action.bind_of_ok hdone]
  cases hremoved : rows.filter (schema.matchesRow conditions) with
  | nil => exact ⟨_, _, rfl, rfl, hreplaces .none⟩
  | cons first rest =>
    exact ⟨_, _, Action.bind_of_ok (patchIndexes_ok schema (first :: rest) [] _), rfl,
      hreplaces (.rows database schema (first :: rest) [])⟩

/-! ### Commands that are made at once -/

/-- A command in the selected database that succeeds succeeded there, and where no trigger is stored then
that is all. -/
theorem executeAs_eq_ok {command : Command} {outcome : Outcome} (hcommand : RunsSelected who command)
    (hdatabase : who.requireDatabase = .ok database)
    (h : executeAs who command e = (.ok outcome, e')) :
    ∃ executing effect after, effectIn executing who database command e = (.ok effect, after) ∧
      (after.disk.IsUntriggered → outcome = effect.outcome ∧ e' = after) := by
  change perform (executeWithin e.settings.nestingLimit) e.settings.nestingLimit who command e = _ at h
  rcases hresult : effect (executeWithin e.settings.nestingLimit) who command e with
    ⟨failure | effect, after⟩
  · unfold perform at h
    rw [Action.bind_of_error hresult] at h
    exact absurd (congrArg Prod.fst h) (by simp)
  rcases effect_refused_or hcommand (executeWithin e.settings.nestingLimit) e with
    ⟨failure, hrefused⟩ | ⟨selected, hselected, hin⟩
  · exact absurd (congrArg Prod.fst (hrefused.symm.trans hresult)) (by simp)
  obtain rfl : database = selected := Except.ok.inj (hdatabase.symm.trans hselected)
  refine ⟨_, effect, after, hin.symm.trans hresult, fun huntriggered => ?_⟩
  rw [perform_eq (by rw [hresult]; exact huntriggered), hresult] at h
  obtain ⟨houtcome, rfl⟩ := Prod.mk.inj h
  exact ⟨(Except.ok.inj houtcome).symm, rfl⟩

theorem effect_of_authorized {command : Command} (hcommand : RunsSelected who command)
    (hrole : authorize who command e.role = .ok ()) (hdatabase : who.requireDatabase = .ok database)
    (executing : Executing) :
    effect executing who command e = effectIn executing who database command e := by
  rw [hcommand, Action.read_bind, hrole]
  dsimp only
  rw [Action.ofExcept_bind, hdatabase]

/-- A command that may run comes to what it comes to in the selected database. -/
theorem executeAs_result {command : Command} (hcommand : RunsSelected who command)
    (hrole : authorize who command e.role = .ok ()) (hdatabase : who.requireDatabase = .ok database) :
    (executeAs who command e).1
      = (effectIn (executeWithin e.settings.nestingLimit) who database command e).1.map
          Effect.outcome := by
  rw [← effect_of_authorized hcommand hrole hdatabase]
  exact perform_result _ _ who command e

theorem executeAs_of_authorized {command : Command} (hcommand : RunsSelected who command)
    (hrole : authorize who command e.role = .ok ()) (hdatabase : who.requireDatabase = .ok database)
    {result : Except Error Effect}
    (h : ∀ executing, effectIn executing who database command e = (result, e'))
    (huntriggered : e'.disk.IsUntriggered) :
    executeAs who command e = (result.map Effect.outcome, e') := by
  have heffect' : effect (executeWithin e.settings.nestingLimit) who command e = (result, e') :=
    (effect_of_authorized hcommand hrole hdatabase _).trans (h _)
  change perform (executeWithin e.settings.nestingLimit) e.settings.nestingLimit who command e = _
  rw [perform_eq (by rw [heffect']; exact huntriggered), heffect']

theorem Replaces.isUntriggered (h : Replaces database table rows after e e')
    (huntriggered : e.disk.IsUntriggered) : e'.disk.IsUntriggered :=
  h.fills.isUntriggered (fun _ => id) huntriggered

/-- An update that succeeds was made at once. -/
theorem IsSound.executeAs_update (h : e.IsSound) (hdatabase : who.requireDatabase = .ok database)
    (huntriggered : e.disk.IsUntriggered) (hfree : e.inTransaction who.user = false)
    {outcome : Outcome}
    (hupdate : executeAs who (.update table assigned conditions) e = (.ok outcome, e')) :
    ∃ schema assignments rows after changed, e.knownSchema database table = .ok schema ∧
      PassesAs schema assigned.entries assignments ∧
      schema.update assignments conditions rows = .ok (after, changed) ∧
      outcome = .ofMessage s!"{countText changed.length} row(s) updated in '{table}'" ∧
      Replaces database table rows after e e' := by
  obtain ⟨executing, effect, e'', hdone, hthen⟩ := executeAs_eq_ok (fun _ => rfl) hdatabase hupdate
  obtain ⟨schema, assignments, rows, after, changed, hschema, hpasses, hchange, houtcome, hreplaces⟩ :=
    h.update_cases hfree hdone
  obtain ⟨rfl, rfl⟩ := hthen (hreplaces.isUntriggered huntriggered)
  exact ⟨schema, assignments, rows, after, changed, hschema, hpasses, hchange, houtcome, hreplaces⟩

/-- A deletion that succeeds was made at once. -/
theorem IsSound.executeAs_delete (h : e.IsSound) (hdatabase : who.requireDatabase = .ok database)
    (huntriggered : e.disk.IsUntriggered) (hfree : e.inTransaction who.user = false)
    (hrows : Table.rows e.disk database table = .ok rows) {outcome : Outcome}
    (hdelete : executeAs who (.delete table conditions) e = (.ok outcome, e')) :
    ∃ schema, e.knownSchema database table = .ok schema ∧
      outcome = .ofMessage
        s!"{countText (rows.filter (schema.matchesRow conditions)).length} row(s) deleted from '{table}'" ∧
      Replaces database table rows (rows.filter fun row => !schema.matchesRow conditions row) e e' := by
  obtain ⟨executing, effect, e'', hdone, hthen⟩ := executeAs_eq_ok (fun _ => rfl) hdatabase hdelete
  change delete who database table conditions e = _ at hdone
  obtain ⟨schema, hschema⟩ : ∃ schema, (writableSchema who database table e).1 = .ok schema := by
    unfold delete at hdone
    rcases (observes_writableSchema who database table).run_bind _ e with
      ⟨failure, e₁, -, hrun⟩ | ⟨schema, e₁, -, hschema, -⟩
    · exact absurd (congrArg Prod.fst (hrun.symm.trans hdone)) (by simp)
    · exact ⟨schema, hschema⟩
  obtain ⟨effect', e₂, hdone', houtcome, hreplaces⟩ :=
    @delete_of_writable who database table conditions rows schema e h hfree hschema hrows
  obtain ⟨hsame, rfl⟩ := Prod.mk.inj (hdone'.symm.trans hdone)
  obtain rfl := Except.ok.inj hsame
  obtain ⟨rfl, rfl⟩ := hthen (hreplaces.isUntriggered huntriggered)
  exact ⟨schema, writableSchema_eq_ok hschema, houtcome, hreplaces⟩

/-- On a master, whoever may write a table can delete rows of it. -/
theorem IsSound.exists_executeAs_delete (h : e.IsSound) (hdatabase : who.requireDatabase = .ok database)
    (huntriggered : e.disk.IsUntriggered) (hfree : e.inTransaction who.user = false)
    (hknown : e.knownSchema database table = .ok schema)
    (hrows : Table.rows e.disk database table = .ok rows)
    (hwrite : who.role ∈ schema.permissions.write) (hmaster : e.role = .master) :
    ∃ outcome e', executeAs who (.delete table conditions) e = (.ok outcome, e') := by
  have hschema := writableSchema_of_require hknown (TableSchema.require_eq_ok.2 hwrite)
  have hrole : authorize who (.delete table conditions) e.role = .ok () := by
    unfold authorize
    rw [hdatabase, hmaster]
    rfl
  obtain ⟨effect, e', hdone, -, hreplaces⟩ :=
    @delete_of_writable who database table conditions rows schema e h hfree hschema hrows
  exact ⟨effect.outcome, e', executeAs_of_authorized (fun _ => rfl) hrole hdatabase (fun _ => hdone)
    (hreplaces.isUntriggered huntriggered)⟩

end Engine

namespace Run

variable (run : Run) {who : Identity} {database table : String} {assigned : Keyed String String}
  {conditions : List Condition} {outcome : Outcome} {e' : Engine}

/-- In every run without triggers, an update that is made at once changes the rows that it matches, each
in its place, and of those the fields of the columns to which it assigns values. A row is lost only where
it is the one field of a table of one column and the value assigned to it is blank. -/
theorem rows_of_update (hdatabase : who.requireDatabase = .ok database)
    (htable : Name.isValid table = true) (hkeys : assigned.keys.Nodup)
    (huntriggered : run.last.disk.IsUntriggered) (hfree : run.last.inTransaction who.user = false)
    (hupdate : Engine.executeAs who (.update table assigned conditions) run.last = (.ok outcome, e')) :
    ∃ schema rows after, Engine.readSchema run.last.disk database table = .ok schema ∧
      Table.rows run.last.disk database table = .ok rows ∧
      (∀ name ∈ assigned.keys, name ∈ schema.fieldNames) ∧
      List.Forall₂ (schema.Updates assigned conditions) rows after ∧
      Table.rows e'.disk database table = .ok (after.filter Text.isFilled) ∧
      ∀ row ∈ after, Text.isFilled row = false →
        ∃ column, schema.columns = [column] ∧ assigned.get? column.name = some row := by
  have hsound := run.isSound_last
  obtain ⟨schema, assignments, rows, after, changed, hschema, hpasses, hchange, -, hreplaces⟩ :=
    hsound.executeAs_update hdatabase huntriggered hfree hupdate
  have hread := hsound.readSchema htable hschema
  have htaken := run.holds_allTaken.rows htable hread hreplaces.before
  have hupdates := hpasses.updates hkeys (hsound.knownSchema htable hschema).2.1 htaken hchange
  refine ⟨schema, rows, after, hread, hreplaces.before, hpasses.mem_fieldNames, hupdates,
    hreplaces.rows, fun row' hrow' hblank => ?_⟩
  obtain ⟨i, hi, rfl⟩ := List.getElem_of_mem hrow'
  have hbefore : i < rows.length := by rw [hupdates.length_eq]; exact hi
  have hmem := List.getElem_mem hbefore
  exact (hupdates.get hbefore hi).blank (htaken _ hmem)
    (hsound.disk.row hreplaces.before _ hmem).2 hblank

/-- Three rows in a table of two columns. -/
def threePupils : Run :=
  .script "asep" "kantor"
    ["CREATE TABLE siswa id:INT, nama:STRING", "INSERT siswa 1|ani", "INSERT siswa 2|budi",
      "INSERT siswa 3|citra"]

/-- The schema of the three rows. -/
def pupilSchema : TableSchema where
  database := "kantor"
  name := "siswa"
  columns := [.plain "id" .int, .plain "nama" .string]
  permissions := .standard

/-- Another name. -/
def otherName : Keyed String String := ⟨[("nama", "dewi")]⟩

/-- All but the first row. -/
def laterPupils : List Condition := [⟨"siswa.id", .greater, "1", none⟩]

theorem rows_of_update_threePupils :
    ∃ after, List.Forall₂ (pupilSchema.Updates otherName laterPupils)
        ["1|ani", "2|budi", "3|citra"] after ∧
      Table.rows threePupils.last.disk "kantor" "siswa" = .ok ["1|ani", "2|budi", "3|citra"] ∧
      Engine.executeAs author (.update "siswa" otherName laterPupils) threePupils.last
        = (.ok (.ofMessage "2 row(s) updated in 'siswa'"),
          (Engine.executeAs author (.update "siswa" otherName laterPupils) threePupils.last).2) ∧
      Table.rows (Engine.executeAs author (.update "siswa" otherName laterPupils)
        threePupils.last).2.disk "kantor" "siswa" = .ok after := by
  have hrun : threePupils.last.knownSchema "kantor" "siswa" = .ok pupilSchema ∧
      Table.rows threePupils.last.disk "kantor" "siswa" = .ok ["1|ani", "2|budi", "3|citra"] ∧
      (∀ entry ∈ threePupils.last.disk.entries.entries, "triggers" ∉ entry.1.2) ∧
      threePupils.last.inTransaction "asep" = false ∧
      (Engine.executeAs author (.update "siswa" otherName laterPupils) threePupils.last).1
        = .ok (.ofMessage "2 row(s) updated in 'siswa'") := by
    decide +kernel
  obtain ⟨hknown, hbefore, hentries, hfree, hdone⟩ := hrun
  have hupdate := Prod.fst_eq_iff.1 hdone
  obtain ⟨schema, rows, after, hschema, hrows, -, hupdates, hafter, hblank⟩ :=
    @rows_of_update threePupils author "kantor" "siswa" otherName laterPupils _ _ rfl (by decide)
      (by decide) (Disk.isUntriggered_of_entries hentries) hfree hupdate
  obtain rfl := Except.ok.inj
    (hschema.symm.trans (threePupils.isSound_last.readSchema (by decide) hknown))
  obtain rfl := Except.ok.inj (hrows.symm.trans hbefore)
  refine ⟨after, hupdates, hbefore, hupdate, ?_⟩
  -- The table has two columns, so no row is blank.
  rw [hafter, List.filter_eq_self.2 fun row hrow => ?_]
  rw [← Bool.not_eq_false]
  intro hlost
  obtain ⟨column, hcolumns, -⟩ := hblank row hrow hlost
  exact absurd (congrArg List.length hcolumns) (by simp [pupilSchema])

/-- In a table of one column, the row that an update leaves blank is lost. -/
example :
    let before : Run := .script "asep" "kantor" ["CREATE TABLE t id:STRING", "INSERT t a"]
    let after := Engine.executeAs author
      (.update "t" ⟨[("id", " ")]⟩ [⟨"id", .equal, "a", none⟩]) before.last
    Table.rows before.last.disk "kantor" "t" = .ok ["a"] ∧
      after.1 = .ok (.ofMessage "1 row(s) updated in 't'") ∧
      Table.rows after.2.disk "kantor" "t" = .ok [] := by
  decide +kernel

end Run

end FlatFileDb
