import FlatFileDb.Proofs.Patching
import Mathlib.Data.List.Nodup

/-!
# Indexes and the rows of their tables

The patches that are due after a change make the indexes of a table list its rows again: an index that
listed the rows as they were before lists them as they are afterwards, if no two rows of the table
share their identifier. Some patches may still wait. `Disk.Tracks` says that an index lists the rows
once they are made, and that they may as well be made again over an index that was built meanwhile.
-/

namespace FlatFileDb

/-! ### Patches for a change of rows -/

namespace Patch

variable {kind : IndexKind} {rows : List String}

/-- Patches lead from what indexes list of some rows to what they list of others. -/
def Accounts (kind : IndexKind) (patches : List Patch) (rows after : List String) : Prop :=
  ∀ position, effects kind position patches (IndexData.filed kind position rows)
    = IndexData.filed kind position after

theorem accounts_nil (kind : IndexKind) (rows : List String) : Accounts kind [] rows rows :=
  fun _ => rfl

theorem Accounts.append {patches others : List Patch} {between after : List String}
    (h : Accounts kind patches rows between) (h' : Accounts kind others between after) :
    Accounts kind (patches ++ others) rows after := by
  intro position
  rw [effects_append, h position, h' position]

/-- Blank rows are not read back; word indexes do not list them either. -/
theorem Accounts.filter {patches : List Patch} {after : List String}
    (h : Accounts kind patches rows after)
    (hfilled : ∀ row ∈ after, kind = .exact → Text.isFilled row = true) :
    Accounts kind patches rows (after.filter Text.isFilled) := by
  intro position
  rw [h position, IndexData.filed_filter fun row hrow hkind _ => hfilled row hrow hkind]

theorem accounts_insert (kind : IndexKind) (rows : List String) (row : String) :
    Accounts kind [.add row] rows (rows ++ [row]) := by
  intro position
  have hadd := @effects_add kind position (IndexData.filed kind position rows) [row]
  rw [IndexData.filed_append]
  exact hadd

/-- Some rows are exchanged for others. Only those taken out have their identifiers. -/
theorem accounts_exchange (kind : IndexKind) {removed added after : List String}
    (hids : (rows.map Row.id).Nodup) (hremoved : ∀ row ∈ removed, row ∈ rows)
    (hafter : ∀ row, row ∈ after ↔ (row ∈ rows ∧ row ∉ removed) ∨ row ∈ added) :
    Accounts kind (removed.map (fun row => .remove (Row.id row)) ++ added.map .add) rows after := by
  intro position
  have hids' : removed.map (fun row => Patch.remove (Row.id row))
      = (removed.map Row.id).map .remove := by rw [List.map_map]; rfl
  have hother {row : String} (hrow : row ∈ rows) : Row.id row ∉ removed.map Row.id ↔ row ∉ removed := by
    rw [not_iff_not]
    refine ⟨fun hid => ?_, List.mem_map_of_mem⟩
    obtain ⟨other, hother, hsame⟩ := List.mem_map.1 hid
    exact List.inj_on_of_nodup_map hids (hremoved other hother) hrow hsame ▸ hother
  rw [effects_append, hids', effects_remove, effects_add]
  ext pair
  simp only [Set.mem_union, Set.mem_ofPred_eq, IndexData.mem_filed]
  constructor
  · rintro (⟨⟨row, hrow, hpair⟩, hid⟩ | ⟨row, hrow, hpair⟩)
    · rw [IndexData.id_of_mem_filings hpair, hother hrow] at hid
      exact ⟨row, (hafter row).2 (.inl ⟨hrow, hid⟩), hpair⟩
    · exact ⟨row, (hafter row).2 (.inr hrow), hpair⟩
  · rintro ⟨row, hrow, hpair⟩
    rcases (hafter row).1 hrow with ⟨hold, hkept⟩ | hnew
    · refine .inl ⟨⟨row, hold, hpair⟩, ?_⟩
      rwa [IndexData.id_of_mem_filings hpair, hother hold]
    · exact .inr ⟨row, hnew, hpair⟩

/-- The rows that match become others. -/
theorem accounts_map (kind : IndexKind) (hids : (rows.map Row.id).Nodup) (isMatched : String → Bool)
    (f : String → String) :
    Accounts kind ((rows.filter isMatched).map (fun row => .remove (Row.id row))
        ++ ((rows.filter isMatched).map f).map .add)
      rows (rows.map fun row => if isMatched row then f row else row) := by
  refine accounts_exchange kind hids (fun row => List.mem_of_mem_filter) fun row => ?_
  simp only [List.mem_map, List.mem_filter, not_and]
  constructor
  · rintro ⟨before, hbefore, rfl⟩
    split
    · rename_i hmatched
      exact .inr ⟨before, ⟨hbefore, hmatched⟩, rfl⟩
    · rename_i hmatched
      exact .inl ⟨hbefore, fun _ => hmatched⟩
  · rintro (⟨hrow, hother⟩ | ⟨before, ⟨hbefore, hmatched⟩, rfl⟩)
    · exact ⟨row, hrow, if_neg (hother hrow)⟩
    · exact ⟨before, hbefore, if_pos hmatched⟩

/-- The rows that match are taken out. -/
theorem accounts_filter (kind : IndexKind) (hids : (rows.map Row.id).Nodup)
    (isMatched : String → Bool) :
    Accounts kind ((rows.filter isMatched).map (fun row => .remove (Row.id row)) ++ [].map .add)
      rows (rows.filter fun row => !isMatched row) := by
  refine accounts_exchange kind hids (fun row => List.mem_of_mem_filter) fun row => ?_
  simp only [List.mem_filter, Bool.not_eq_true', Bool.eq_false_iff]
  tauto

end Patch

/-- The first row of an identifier is exchanged for others. -/
theorem Patch.accounts_changeFirst (kind : IndexKind) {id : String} {image rows after : List String}
    (hids : (rows.map Row.id).Nodup)
    (h : Table.changeFirst? id (fun _ => image) rows = some after) :
    Patch.Accounts kind ([.remove id] ++ image.map .add) rows after := by
  obtain ⟨front, found, rest, rfl, hfound, -, rfl⟩ := Table.changeFirst?_eq_some h
  rw [← hfound]
  refine @Patch.accounts_exchange _ kind [found] image _ hids (by simp) fun row => ?_
  have hnodup := List.Nodup.of_map _ hids
  rw [List.nodup_middle, List.nodup_cons, List.mem_append] at hnodup
  simp only [List.mem_append, List.mem_cons, List.not_mem_nil, or_false]
  by_cases hrow : row = found
  · subst hrow
    tauto
  · tauto

/-- The patches for a change of a commit account for it. -/
theorem Log.Entry.accounts {entry : Log.Entry} {rows after : List String} (kind : IndexKind)
    (hids : (rows.map Row.id).Nodup) (h : entry.change? rows = some after) :
    Patch.Accounts kind entry.patches rows after := by
  unfold change? at h
  unfold patches
  cases hoperation : entry.operation with
  | insert =>
    rw [hoperation] at h
    rw [← Option.some.inj h]
    exact Patch.accounts_insert kind rows entry.row
  | update =>
    rw [hoperation] at h
    exact @Patch.accounts_changeFirst kind _ [entry.row] _ _ hids h
  | delete =>
    rw [hoperation] at h
    exact @Patch.accounts_changeFirst kind _ [] _ _ hids h

/-! ### Indexes that follow -/

namespace Disk

variable {disk disk' : Disk} {home : Path} {table column : String} {kind : IndexKind}
  {patches others : List Patch}

/-- Once some patches are made, the index of one kind on a column lists the rows of its table, if it is
there; and those patches may also be made over an index that lists the rows already. -/
structure Tracks (disk : Disk) (home : Path) (table column : String) (kind : IndexKind)
    (patches : List Patch) : Prop where
  listed : ∀ rows position listed, disk.rowsAt? home table = some rows →
    disk.positionAt? home table column = some position →
      disk.listedAt? (Path.indexPlace home table column kind) = some listed →
        Patch.effects kind position patches listed = IndexData.filed kind position rows
  again : ∀ rows, disk.rowsAt? home table = some rows → Patch.Accounts kind patches rows rows

/-- Without patches it is the index that lists the rows. -/
theorem tracks_of_none
    (h : disk.listedAt? (Path.indexPlace home table column kind) = none) :
    disk.Tracks home table column kind [] where
  listed _ _ _ _ _ hlisted := absurd (h.symm.trans hlisted) (by simp)
  again rows _ := Patch.accounts_nil kind rows

/-- Patches that account for a change of the rows wait behind the others. -/
theorem Tracks.change (h : disk.Tracks home table column kind patches) (hdisk : disk.HasIndexes)
    (hspares : SparesIndexes disk disk') (htable : Name.isValid table = true)
    (hcolumn : Name.isValid column = true)
    (hrows : ∀ after, disk'.rowsAt? home table = some after →
      ∃ rows, disk.rowsAt? home table = some rows ∧ Patch.Accounts kind others rows after) :
    disk'.Tracks home table column kind (patches ++ others) where
  listed after position listed hafter hposition hlisted := by
    obtain ⟨rows, hbefore, haccounts⟩ := hrows after hafter
    rw [listedAt?_congr (hspares.indexes _ (Path.isIndex_indexPlace home table column kind))]
      at hlisted
    obtain ⟨data, hfile, -⟩ := hdisk.exists_of_listedAt? htable hcolumn hlisted
    obtain ⟨position', hposition'⟩ := hfile.indexed
    obtain rfl := Option.some.inj ((hspares.positionAt? htable hposition').symm.trans hposition)
    rw [Patch.effects_append, h.listed rows position' listed hbefore hposition' hlisted,
      haccounts position']
  again after hafter position := by
    obtain ⟨rows, hbefore, haccounts⟩ := hrows after hafter
    rw [← haccounts position]
    exact Patch.effects_again (h.again rows hbefore position)

theorem Tracks.spares (h : disk.Tracks home table column kind patches) (hdisk : disk.HasIndexes)
    (hspares : SparesIndexes disk disk') (htable : Name.isValid table = true)
    (hcolumn : Name.isValid column = true)
    (hrows : disk'.rowsAt? home table = disk.rowsAt? home table) :
    disk'.Tracks home table column kind patches := by
  rw [← List.append_nil patches]
  exact h.change hdisk hspares htable hcolumn fun rows hafter =>
    ⟨rows, hrows ▸ hafter, Patch.accounts_nil kind rows⟩

/-- Patches that are made no longer wait; those behind them still do. -/
theorem Tracks.refiled {located : Path → String → List Patch}
    (h : disk.Tracks home table column kind (located home table ++ others))
    (hrefiles : Refiles (disk.patched located) disk disk') (htable : Name.isValid table = true)
    (hcolumn : Name.isValid column = true) : disk'.Tracks home table column kind others where
  listed rows position listed hrows hposition hlisted := by
    rw [rowsAt?_of_rewrites hrefiles.rewrites] at hrows
    rw [positionAt?_of_rewrites hrefiles.rewrites] at hposition
    rw [hrefiles.listed home table column kind htable hcolumn] at hlisted
    obtain ⟨before, hbefore, rfl⟩ := Option.map_eq_some_iff.1 hlisted
    rw [patched, hposition]
    dsimp only
    rw [← Patch.effects_append]
    exact h.listed rows position before hrows hposition hbefore
  again rows hrows position := by
    rw [rowsAt?_of_rewrites hrefiles.rewrites] at hrows
    have hall := h.again rows hrows position
    rw [Patch.effects_append] at hall
    -- What the last patches left behind they leave as it is.
    have htwice : Patch.effects kind position others (Patch.effects kind position others
          (Patch.effects kind position (located home table) (IndexData.filed kind position rows)))
        = Patch.effects kind position others
          (Patch.effects kind position (located home table) (IndexData.filed kind position rows)) :=
      @Patch.effects_again _ _ [] others _ rfl
    rwa [hall] at htwice

/-! ### What leaves indexes alone -/

theorem Spares.sparesIndexes {apart : Prop} (h : Spares apart disk disk') (hapart : apart) :
    SparesIndexes disk disk' where
  indexes place hplace := by
    rcases (h.grows.and (h.folders hapart)) place with hsame | ⟨⟨-, hfolder⟩, -⟩ | ⟨⟨hwritten, -⟩, -⟩
    · exact hsame
    · exact absurd hplace hfolder.2
    · exact absurd hplace hwritten.2.2
  schemas home name schema hname hschema := by
    rw [← hschema, schemaAt?, schemaAt?]
    exact congrArg (Option.bind · _) (fileAt?_congr fun text =>
      h.grows.unwritten fun hno => hno.1 home name hname rfl)

theorem Spares.rowsAt? {apart : Prop} (h : Spares apart disk disk') (home : Path) (table : String) :
    disk'.rowsAt? home table = disk.rowsAt? home table := by
  rw [Disk.rowsAt?, Disk.rowsAt?]
  exact congrArg (Option.map _) (fileAt?_congr fun text =>
    h.grows.unwritten fun hno => hno.2.1 (Path.endsIn_tablePlace home table))

theorem sparesIndexes_put_table (disk : Disk) (home : Path) (table text : String) :
    SparesIndexes disk (disk.put (Path.tablePlace home table) (.file text)) where
  indexes place hplace := by
    rw [at?_put, if_neg (by simpa using hplace.ne_tablePlace home table)]
  schemas home' name schema _ hschema := by
    rw [← hschema, schemaAt?, schemaAt?, fileAt?_put,
      if_neg (Path.schemaPlace_ne_tablePlace home' home name table)]

theorem sparesIndexes_put_schema {home : Path} {table : String}
    (hnone : disk.at? (Path.schemaPlace home table) = none) (text : String) :
    SparesIndexes disk (disk.put (Path.schemaPlace home table) (.file text)) where
  indexes place hplace := by
    rw [at?_put, if_neg (by simpa using hplace.ne_schemaPlace home table)]
  schemas home' name schema _ hschema := by
    have hother : Path.schemaPlace home' name ≠ Path.schemaPlace home table := by
      intro hsame
      rw [schemaAt?, fileAt?, hsame, hnone] at hschema
      exact absurd hschema (by simp)
    rw [← hschema, schemaAt?, schemaAt?, fileAt?_put, if_neg hother]

end Disk

/-! ### What jobs patch -/

/-- Databases and schemas that are found stay found. -/
structure Disk.StillFinds (disk disk' : Disk) : Prop where
  homes : ∀ database home, Database.LiesAt disk database home → Database.LiesAt disk' database home
  schemas : ∀ database name schema, Name.isValid name = true →
    Engine.readSchema disk database name = .ok schema →
      Engine.readSchema disk' database name = .ok schema

instance : IsPreorder Disk Disk.StillFinds where
  refl _ := ⟨fun _ _ h => h, fun _ _ _ _ h => h⟩
  trans _ _ _ h h' := ⟨fun database home hhome => h'.homes database home (h.homes database home hhome),
    fun database name schema hname hread =>
      h'.schemas database name schema hname (h.schemas database name schema hname hread)⟩

theorem Disk.Keeps.stillFinds {apart : Prop} {disk disk' : Disk} (h : Disk.Keeps apart disk disk') :
    Disk.StillFinds disk disk' :=
  ⟨fun _ _ hhome => hhome.grows h.grows, fun _ _ _ hname => Engine.readSchema_of_keeps hname h⟩

theorem Disk.stillFinds_put_table {disk : Disk} {home : Path} {table : String}
    (hplace : disk.at? (Path.tablePlace home table) ≠ some .directory) (text : String) :
    Disk.StillFinds disk (disk.put (Path.tablePlace home table) (.file text)) := by
  have hgrows : Disk.Grows (fun _ => False) (Path.EndsIn ".mg") disk
      (disk.put (Path.tablePlace home table) (.file text)) :=
    Disk.grows_put_file (Path.endsIn_tablePlace home table) hplace text
  refine ⟨fun _ _ hhome => hhome.grows hgrows, fun database name schema _ hread =>
    Engine.readSchema_of_textAt (fun found hfound => hgrows.textAt hfound fun place hlast hno => ?_) hread⟩
  exact ((Path.endsIn_below (Path.schemas database) name (by decide)).congr hlast).not (by decide) hno

namespace Job

/-- The patches that a job makes, table by table, where it finds its databases and schemas. -/
inductive Carries (disk : Disk) : Job → (Path → String → List Patch) → Prop where
  | rows {home : Path} {database : String} {schema : TableSchema} (removed added : List String)
    (hhome : Database.LiesAt disk database home) (hroom : Database.hasRoom database = true)
    (htable : Name.isValid schema.name = true)
    (hschema : Engine.readSchema disk database schema.name = .ok schema) :
    Carries disk (.patchRows database schema removed added)
      (Patch.of home schema.name
        (removed.map (fun row => .remove (Row.id row)) ++ added.map .add))
  | noEntries : Carries disk (.patchEntries []) fun _ _ => []
  | entries {home : Path} {entry : Log.Entry} {schema : TableSchema} {rest : List Log.Entry}
    {patches : Path → String → List Patch} (hhome : Database.LiesAt disk entry.database home)
    (hroom : Database.hasRoom entry.database = true) (htable : Name.isValid entry.table = true)
    (hschema : Engine.readSchema disk entry.database entry.table = .ok schema)
    (hrest : Carries disk (.patchEntries rest) patches) :
    Carries disk (.patchEntries (entry :: rest)) fun home' table' =>
      Patch.of home entry.table entry.patches home' table' ++ patches home' table'

variable {disk disk' : Disk} {job : Job} {patches : Path → String → List Patch}

theorem Carries.stillFinds (h : job.Carries disk patches) (hfinds : Disk.StillFinds disk disk') :
    job.Carries disk' patches := by
  induction h with
  | rows removed added hhome hroom htable hschema =>
    exact .rows removed added (hfinds.homes _ _ hhome) hroom htable
      (hfinds.schemas _ _ _ htable hschema)
  | noEntries => exact .noEntries
  | entries hhome hroom htable hschema hrest ih =>
    exact .entries (hfinds.homes _ _ hhome) hroom htable (hfinds.schemas _ _ _ htable hschema) ih

/-- Only tables with a schema are patched. -/
theorem Carries.schemaAt? (h : job.Carries disk patches) {home : Path} {table : String}
    (hpatches : patches home table ≠ []) : ∃ schema, disk.schemaAt? home table = some schema := by
  have hof {home' : Path} {table' : String} {patches : List Patch}
      (hne : Patch.of home' table' patches home table ≠ []) : home = home' ∧ table = table' := by
    by_contra hother
    exact hne (if_neg hother)
  induction h with
  | rows removed added hhome hroom htable hschema =>
    obtain ⟨rfl, rfl⟩ := hof hpatches
    exact ⟨_, Disk.schemaAt?_of_readSchema htable hhome hschema⟩
  | noEntries => exact absurd rfl hpatches
  | @entries home' entry _ _ patches hhome hroom htable hschema hrest ih =>
    by_cases hfirst : Patch.of home' entry.table entry.patches home table = []
    · refine ih fun hno => hpatches ?_
      dsimp only
      rw [hfirst, hno]
      rfl
    · obtain ⟨rfl, rfl⟩ := hof hfirst
      exact ⟨_, Disk.schemaAt?_of_readSchema htable hhome hschema⟩

/-- A job that finds what it needs succeeds. -/
theorem Carries.refiles (h : job.Carries disk patches) {e : Engine}
    (hfinds : Disk.StillFinds disk e.disk) (he : e.IsSound) (hindexes : e.disk.HasIndexes)
    (executing : Nat → Executing) :
    ∃ e', job.run executing e = (.ok (), e') ∧ Engine.Maintains e e' ∧
      Disk.Refiles (e.disk.patched patches) e.disk e'.disk := by
  induction h generalizing e with
  | rows removed added hhome hroom htable hschema =>
    have hhome' := hfinds.homes _ _ hhome
    obtain ⟨disk, hrun, hrefiles⟩ := refiles_patchTable hhome' hroom htable
      (Disk.schemaAt?_of_readSchema htable hhome' (hfinds.schemas _ _ _ htable hschema)) hindexes
      removed added
    exact ⟨{ e with disk }, hrun, (Engine.maintains_patchTable _ _ _ _).after hrun, hrefiles⟩
  | noEntries => exact ⟨e, rfl, refl e, Disk.refiles_none hindexes⟩
  | entries hhome hroom htable hschema hrest ih =>
    obtain ⟨e₁, hrun, hfirst⟩ := refiles_patchEntry he (hfinds.homes _ _ hhome) hroom htable
      (hfinds.schemas _ _ _ htable hschema) hindexes
    have hmaintains := (Engine.maintains_patchEntry _).after hrun
    have hkeeps : Disk.Keeps True e.disk e₁.disk := Disk.keeps_of_indexes hmaintains.disk.grows
    obtain ⟨e₂, hrun', hmaintains', hsecond⟩ := ih (IsTrans.trans _ _ _ hfinds hkeeps.stillFinds)
      (he.maintains hmaintains) hfirst.indexes
    exact ⟨e₂, (Action.forM_cons_of_ok hrun _).trans hrun',
      IsTrans.trans _ _ _ hmaintains hmaintains', hfirst.patch hsecond⟩

end Job

namespace Engine.Upkeep

/-- The patches that are due, table by table. -/
inductive Carries (disk : Disk) : Upkeep → (Path → String → List Patch) → Prop where
  | none : Carries disk .none fun _ _ => []
  | rows {database : String} {schema : TableSchema} {removed added : List String}
    {patches : Path → String → List Patch}
    (h : (Job.patchRows database schema removed added).Carries disk patches) :
    Carries disk (.rows database schema removed added) patches
  | applied {entries : List Log.Entry} {patches : Path → String → List Patch}
    (h : (Job.patchEntries entries).Carries disk patches) : Carries disk (.applied entries) patches

variable {upkeep : Upkeep} {e : Engine} {patches : Path → String → List Patch}

/-- Without a queue the patches are made at once. -/
theorem Carries.refiles (h : upkeep.Carries e.disk patches) (he : e.IsSound)
    (hindexes : e.disk.HasIndexes) (hinline : e.settings.background = false) :
    Disk.Refiles (e.disk.patched patches) e.disk (upkeep.step e).2.disk := by
  cases h with
  | none => exact Disk.refiles_none hindexes
  | rows h =>
    obtain ⟨e', hrun, -, hrefiles⟩ := h.refiles (refl e.disk) he hindexes executeWithin
    rw [step, patchIndexes, Trace.dispatch_inline hinline]
    exact (congrArg Prod.snd hrun) ▸ hrefiles
  | @applied entries _ h =>
    obtain ⟨e', hrun, -, hrefiles⟩ := h.refiles (refl e.disk) he hindexes executeWithin
    rw [step, patchCommitted]
    cases entries with
    | nil => exact (congrArg Prod.snd hrun) ▸ hrefiles
    | cons entry rest =>
      rw [if_neg (by simp), Trace.dispatch_inline hinline]
      exact (congrArg Prod.snd hrun) ▸ hrefiles

end Engine.Upkeep

/-! ### Changes of rows -/

namespace Disk

variable {disk : Disk} {home : Path} {table text : String} {rows after : List String}
  {patches : List Patch}

/-- No two rows of a table that has a schema share their identifier. -/
def HasDistinct (disk : Disk) (home : Path) (table : String) : Prop :=
  ∀ schema rows, disk.schemaAt? home table = some schema → disk.rowsAt? home table = some rows →
    (rows.map Row.id).Nodup

/-- The rows of one table are written; of other tables nothing changes. -/
theorem Tracks.put {home' : Path} {table' column : String} {kind : IndexKind} {others : List Patch}
    (h : disk.Tracks home' table' column kind others) (hdisk : disk.HasIndexes)
    (htable : Name.isValid table' = true) (hcolumn : Name.isValid column = true) (hrows : disk.rowsAt? home table = some rows)
    (hafter : Text.filledLines text = after)
    (haccounts : home' = home → table' = table → Patch.Accounts kind patches rows after) :
    (disk.put (Path.tablePlace home table) (.file text)).Tracks home' table' column kind
      (others ++ Patch.of home table patches home' table') := by
  have hspares := sparesIndexes_put_table disk home table text
  by_cases hsame : home' = home ∧ table' = table
  · obtain ⟨rfl, rfl⟩ := hsame
    rw [Patch.of_self]
    refine h.change hdisk hspares htable hcolumn fun found hfound => ?_
    rw [rowsAt?, fileAt?_put, if_pos rfl, Option.map_some, Option.some.injEq, hafter] at hfound
    exact ⟨rows, hrows, hfound ▸ haccounts rfl rfl⟩
  · rw [Patch.of, if_neg hsame, List.append_nil]
    refine h.spares hdisk hspares htable hcolumn ?_
    rw [rowsAt?, rowsAt?, fileAt?_put, if_neg fun hplaces => hsame (Path.tablePlace_inj hplaces)]

end Disk

namespace Log.Entry

variable {entry : Entry} {entries done : List Entry} {disk disk' : Disk}

/-- A change of a commit is tracked by its patches. -/
theorem tracks_perform (hdisk : disk.IsCatalogued) (hentry : entry.IsSound) {schema : TableSchema}
    (hschema : Engine.readSchema disk entry.database entry.table = .ok schema)
    (hindexes : disk.HasIndexes) (hperform : entry.perform disk = (.ok (), disk')) :
    ∃ home, Database.LiesAt disk entry.database home ∧ Disk.SparesIndexes disk disk' ∧
      ∀ home' table column kind patches, Name.isValid table = true → Name.isValid column = true →
        disk.HasDistinct home' table →
        (kind = .exact → ∀ row, .add row ∈ Patch.of home entry.table entry.patches home' table →
          Text.isFilled row = true) →
          disk.Tracks home' table column kind patches →
            disk'.Tracks home' table column kind
              (patches ++ Patch.of home entry.table entry.patches home' table) := by
  obtain ⟨home, text, text', after, hhome, hthere, hrows, hchange, htext', -, rfl⟩ :=
    perform_eq_ok hdisk hentry hperform
  refine ⟨home, hhome, Disk.sparesIndexes_put_table disk home entry.table text',
    fun home' table column kind patches htable hcolumn hids hfilled htracks => ?_⟩
  have hbefore := Disk.rowsAt?_of_rows hentry.table hhome hrows
  refine htracks.put hindexes htable hcolumn hbefore htext' fun hhomes htables => ?_
  subst hhomes htables
  have hschema' := Disk.schemaAt?_of_readSchema hentry.table hhome hschema
  refine (entry.accounts kind (hids schema _ hschema' hbefore) hchange).filter fun row hrow hkind => ?_
  have hold : ∀ row ∈ Text.filledLines text, Text.isFilled row = true :=
    fun row hrow => (hdisk.row hrows row hrow).2
  obtain ⟨hothers, ⟨-, rfl⟩ | ⟨hdelete, hperm⟩⟩ := change?_cases hchange
  · exact hold row (hothers.subset hrow)
  · rcases List.mem_append.1 (hperm.mem_iff.2 hrow) with hrow | hrow
    · exact hold row (hothers.subset hrow)
    · rw [List.mem_singleton.1 hrow]
      refine hfilled hkind entry.row ?_
      rw [Patch.of_self, Log.Entry.patches, if_neg hdelete]
      simp

/-- The changes of a commit are tracked by the patches for those that were made. -/
theorem tracks_performAll {failure : Option Error} (hdisk : disk.IsCatalogued)
    (hentries : ∀ entry ∈ entries, entry.IsSound ∧ Database.hasRoom entry.database = true ∧
      ∃ schema, Engine.readSchema disk entry.database entry.table = .ok schema)
    (hindexes : disk.HasIndexes) (h : performAll entries disk = ((done, failure), disk')) :
    Disk.SparesIndexes disk disk' ∧ ∃ patches, (Job.patchEntries done).Carries disk' patches ∧
      ∀ home table column kind others, Name.isValid table = true → Name.isValid column = true →
        (∀ a ∈ applications entries disk, a.disk.HasDistinct home table) →
          (kind = .exact → ∀ row, .add row ∈ patches home table → Text.isFilled row = true) →
            disk.Tracks home table column kind others →
              disk'.Tracks home table column kind (others ++ patches home table) := by
  induction entries generalizing disk done with
  | nil =>
    rw [performAll, Prod.mk.injEq, Prod.mk.injEq] at h
    obtain ⟨⟨rfl, -⟩, rfl⟩ := h
    refine ⟨refl disk, fun _ _ => [], .noEntries, fun _ _ _ _ others _ _ _ _ htracks => ?_⟩
    rw [List.append_nil]
    exact htracks
  | cons entry rest ih =>
    obtain ⟨⟨hentry, hroom, schema, hschema⟩, hrest⟩ := List.forall_mem_cons.1 hentries
    rw [performAll] at h
    cases hperform : entry.perform disk with
    | mk result after =>
    rw [hperform] at h
    cases result with
    | error error =>
      obtain rfl := perform_error hperform
      rw [Prod.mk.injEq, Prod.mk.injEq] at h
      obtain ⟨⟨rfl, -⟩, rfl⟩ := h
      refine ⟨refl after, fun _ _ => [], .noEntries, fun _ _ _ _ others _ _ _ _ htracks => ?_⟩
      rw [List.append_nil]
      exact htracks
    | ok _ =>
      cases hall : performAll rest after with
      | mk pair last =>
      obtain ⟨made, outcome⟩ := pair
      dsimp only at h
      rw [hall, Prod.mk.injEq, Prod.mk.injEq] at h
      obtain ⟨⟨rfl, rfl⟩, rfl⟩ := h
      have hkeeps : Disk.Keeps True disk after := (keeps_perform hentry).after hperform
      obtain ⟨home, hhome, hspares, htrack⟩ := tracks_perform hdisk hentry hschema hindexes hperform
      have hlater : ∀ other ∈ rest, other.IsSound ∧ Database.hasRoom other.database = true ∧
          ∃ schema, Engine.readSchema after other.database other.table = .ok schema := by
        intro other hother
        obtain ⟨hsound, hfits, found, hfound⟩ := hrest other hother
        exact ⟨hsound, hfits, found, Engine.readSchema_of_keeps hsound.table hkeeps hfound⟩
      obtain ⟨hspares', patches, hcarries, htrack'⟩ :=
        ih (hkeeps.isCatalogued hdisk) hlater (hspares.hasIndexes hindexes) hall
      have hkeeps' : Disk.Keeps True after last := by
        have hkept : Disk.Keeps True after (performAll rest after).2 :=
          keeps_performAll (fun other hother => (hlater other hother).1) after
        rwa [hall] at hkept
      have hfinds : Disk.StillFinds disk last :=
        (IsTrans.trans _ _ _ hkeeps hkeeps' : Disk.Keeps True disk last).stillFinds
      refine ⟨IsTrans.trans _ _ _ hspares hspares', _,
        .entries (hfinds.homes _ _ hhome) hroom hentry.table (hfinds.schemas _ _ _ hentry.table hschema)
          hcarries, fun home' table column kind others htable hcolumn hids hfilled htracks => ?_⟩
      rw [applications, hperform] at hids
      obtain ⟨hidsFirst, hidsRest⟩ := List.forall_mem_cons.1 hids
      rw [← List.append_assoc]
      refine htrack' home' table column kind _ htable hcolumn hidsRest
        (fun hkind row hrow => hfilled hkind row (List.mem_append_right _ hrow)) ?_
      exact htrack home' table column kind others htable hcolumn hidsFirst
        (fun hkind row hrow => hfilled hkind row (List.mem_append_left _ hrow)) htracks

end Log.Entry

/-! ### Definitions -/

namespace Disk

variable {disk : Disk} {home : Path} {table column : String} {kind : IndexKind}

/-- The disk with an index built of some rows. -/
def withIndex (disk : Disk) (home : Path) (table column : String) (kind : IndexKind) (position : Nat)
    (rows : List String) : Disk :=
  disk.put (Path.indexPlace home table column kind)
    (.file (IndexData.build kind position rows).toJson.compact)

variable {rows : List String} {position : Nat}

theorem rowsAt?_withIndex (home' : Path) (table' : String) :
    (disk.withIndex home table column kind position rows).rowsAt? home' table'
      = disk.rowsAt? home' table' := by
  have hplace := (Path.isIndex_indexPlace home table column kind).ne_tablePlace home' table'
  rw [rowsAt?, rowsAt?, withIndex, fileAt?_put, if_neg hplace.symm]

theorem isIndexFile_withIndex (htable : Name.isValid table = true)
    (hcolumn : Name.isValid column = true)
    (hfits : Path.fits (Index.fileName table column kind) = true)
    (hposition : disk.positionAt? home table column = some position) :
    (disk.withIndex home table column kind position rows).IsIndexFile home table column kind
      (IndexData.build kind position rows) where
  validTable := htable
  validColumn := hcolumn
  fits := hfits
  proper := IndexData.isProper_build kind position rows
  entry := by simp [withIndex]
  indexed := ⟨position, by
    rw [withIndex, positionAt?_put_index (Path.isIndex_indexPlace home table column kind), hposition]⟩

/-- A new index lists the rows that it was built of. -/
theorem tracks_withIndex
    (hfile : (disk.withIndex home table column kind position rows).IsIndexFile home table column kind
      (IndexData.build kind position rows))
    (hposition : disk.positionAt? home table column = some position)
    (hrows : disk.rowsAt? home table = some rows) :
    (disk.withIndex home table column kind position rows).Tracks home table column kind [] where
  listed found position' listed hfound hpositions hlisted := by
    rw [rowsAt?_withIndex] at hfound
    rw [withIndex, positionAt?_put_index (Path.isIndex_indexPlace home table column kind)]
      at hpositions
    obtain rfl := Option.some.inj (hposition.symm.trans hpositions)
    obtain rfl := Option.some.inj (hrows.symm.trans hfound)
    obtain rfl := Option.some.inj (hfile.listedAt?.symm.trans hlisted)
    rw [Patch.effects_nil, IndexData.listed_build]
  again rows _ := Patch.accounts_nil kind rows

/-- Patches that wait may be made over a new index as well. -/
theorem Tracks.withIndex {home' : Path} {table' column' : String} {kind' : IndexKind}
    {patches : List Patch} (h : disk.Tracks home' table' column' kind' patches)
    (hvalid : Name.isValid table' = true) (hcolumn : Name.isValid column' = true)
    (hfile : (disk.withIndex home table column kind position rows).IsIndexFile home table column kind
      (IndexData.build kind position rows))
    (hposition : disk.positionAt? home table column = some position)
    (hrows : disk.rowsAt? home table = some rows) :
    (disk.withIndex home table column kind position rows).Tracks home' table' column' kind'
      patches := by
  refine ⟨fun found position' listed hfound hpositions hlisted => ?_,
    fun found hfound => h.again found ((rowsAt?_withIndex home' table').symm.trans hfound)⟩
  by_cases hsame : Path.indexPlace home' table' column' kind' = Path.indexPlace home table column kind
  · obtain ⟨rfl, rfl, rfl, rfl⟩ :=
      Path.indexPlace_inj hvalid hfile.validTable hcolumn hfile.validColumn hsame
    have hnew := (tracks_withIndex hfile hposition hrows).listed found position' listed hfound
      hpositions hlisted
    rw [rowsAt?_withIndex] at hfound
    rw [Patch.effects_nil] at hnew
    rw [hnew]
    exact h.again found hfound position'
  · have hkept : (disk.withIndex home table column kind position rows).listedAt?
          (Path.indexPlace home' table' column' kind')
        = disk.listedAt? (Path.indexPlace home' table' column' kind') :=
      listedAt?_congr (by rw [Disk.withIndex, at?_put, if_neg (by simpa using hsame)])
    rw [rowsAt?_withIndex] at hfound
    rw [Disk.withIndex, positionAt?_put_index (Path.isIndex_indexPlace home table column kind)]
      at hpositions
    rw [hkept] at hlisted
    exact h.listed found position' listed hfound hpositions hlisted

end Disk

/-- An index is built in the directory of the database, or the building fails and changes nothing. -/
theorem Index.build_withIndex {database table column : String} (htable : Name.isValid table = true)
    (hcolumn : Name.isValid column = true) (position : Nat) (kind : IndexKind) (disk : Disk) :
    (∃ failure, build database table column position kind disk = (.error failure, disk)) ∨
      ∃ home rows keys, Database.LiesAt disk database home ∧ disk.rowsAt? home table = some rows ∧
        Path.fits (fileName table column kind) = true ∧
        build database table column position kind disk
          = (.ok keys, disk.withIndex home table column kind position rows) := by
  rcases build_cases database table column position kind disk with
    hfailed | ⟨rows, place, keys, hrows, hplace, hbuild⟩
  · exact .inl hfailed
  obtain ⟨home, -, hhome, -⟩ := Table.rows_eq_ok htable hrows
  obtain ⟨before, name, folder, hpath, -, -, -, -, hfits, -⟩ := Disk.filePlace?_eq_some hplace
  obtain rfl := filePlace_of_liesAt hhome htable hcolumn hplace
  rw [path_of_isValid database htable hcolumn] at hpath
  obtain ⟨-, hpart⟩ := List.append_inj' hpath rfl
  obtain rfl := (List.cons.inj hpart).1
  exact .inr ⟨home, rows, keys, hhome, Disk.rowsAt?_of_rows htable hhome hrows, hfits, hbuild⟩

namespace Engine

variable {e : Engine} {database table text : String} {made written : Disk}

/-- No index is on a new table. -/
theorem IsSound.tracks_createTable (h : e.IsSound) (hindexes : e.disk.HasIndexes)
    (htable : Name.isValid table = true)
    (hdatabase : Database.require e.disk database = .ok ())
    (hnew : hasSchema e.disk database table = false)
    (hmake : Disk.makeDirectories (Path.schemas database) e.disk = (.ok (), made))
    (hwrite : Disk.writeFile (Path.schema database table) text made = (.ok (), written)) :
    Disk.SparesIndexes e.disk (Table.init database table written).2 ∧
      ∀ home name column kind patches, Name.isValid name = true → Name.isValid column = true →
        (patches ≠ [] → ∃ schema, e.disk.schemaAt? home name = some schema) →
          e.disk.Tracks home name column kind patches →
            (Table.init database table written).2.Tracks home name column kind patches := by
  obtain ⟨home, hhome, -, hnone, -, rfl⟩ :=
    schemaPlace_of_write (h.disk.folder htable) htable hdatabase hnew hmake hwrite
  have hmade : Disk.Spares True e.disk made := spares_schemas hdatabase hmake
  have hput := Disk.sparesIndexes_put_schema hnone text
  have hhome' : Database.LiesAt (made.put (Path.schemaPlace home table) (.file text)) database home :=
    hhome.grows (Disk.grows_put_file trivial (by rw [hnone]; simp) text :
      Disk.Grows (fun _ => True) (fun _ => True) made _)
  have hspares : Disk.SparesIndexes e.disk (Table.init database table
      (made.put (Path.schemaPlace home table) (.file text))).2 := by
    refine IsTrans.trans _ _ _ (hmade.sparesIndexes trivial) (IsTrans.trans _ _ _ hput ?_)
    rcases init_cases hhome' htable with hinit | hinit <;> rw [hinit]
    · exact refl _
    · exact Disk.sparesIndexes_put_table _ home table ""
  refine ⟨hspares, fun home' name column kind patches hname hcolumn hpatches htracks => ?_⟩
  by_cases hsame : home' = home ∧ name = table
  · obtain ⟨rfl, rfl⟩ := hsame
    have hbefore : e.disk.schemaAt? home' name = none := by
      cases hschema : e.disk.schemaAt? home' name with
      | none => rfl
      | some schema =>
        have hthere := (hmade.sparesIndexes trivial).schemas home' name schema hname hschema
        rw [Disk.schemaAt?, Disk.fileAt?, hnone] at hthere
        exact absurd hthere (by simp)
    have hempty : patches = [] := by
      by_contra hno
      obtain ⟨schema, hschema⟩ := hpatches hno
      exact absurd (hbefore.symm.trans hschema) (by simp)
    rw [hempty]
    refine Disk.tracks_of_none ?_
    rw [Disk.listedAt?_congr (hspares.indexes _ (Path.isIndex_indexPlace home' name column kind))]
    cases hlisted : e.disk.listedAt? (Path.indexPlace home' name column kind) with
    | none => rfl
    | some listed =>
      obtain ⟨data, hfile, -⟩ := hindexes.exists_of_listedAt? hname hcolumn hlisted
      obtain ⟨position, hposition⟩ := hfile.indexed
      rw [Disk.positionAt?, hbefore] at hposition
      exact absurd hposition (by simp)
  · refine htracks.spares hindexes hspares hname hcolumn ?_
    rw [← hmade.rowsAt?]
    have hplaces : Path.tablePlace home' name ≠ Path.tablePlace home table :=
      fun hplaces => hsame (Path.tablePlace_inj hplaces)
    rcases init_cases hhome' htable with hinit | hinit <;> rw [hinit]
    · rw [Disk.rowsAt?, Disk.rowsAt?, Disk.fileAt?_put,
        if_neg (Path.schemaPlace_ne_tablePlace home home' table name).symm]
    · rw [Disk.rowsAt?, Disk.rowsAt?, Disk.fileAt?_put, if_neg hplaces, Disk.fileAt?_put,
        if_neg (Path.schemaPlace_ne_tablePlace home home' table name).symm]

end Engine

/-! ### Commands -/

/-- Whether no two rows in the file of a table share their identifier. -/
def Disk.isDistinct (disk : Disk) (home : Path) (table : String) : Bool :=
  (disk.rowsAt? home table).all fun rows => (rows.map Row.id).Nodup

theorem Disk.hasDistinct_of_isDistinct {disk : Disk} {home : Path} {table : String}
    (h : disk.isDistinct home table = true) : disk.HasDistinct home table := by
  intro schema rows _ hrows
  rw [isDistinct, hrows] at h
  simpa using h

/-- An execution finds the rows of a table with identifiers of their own, and so does every change
that it applies. -/
structure Execution.HasDistinct (x : Execution) (home : Path) (table : String) : Prop where
  before : x.before.disk.HasDistinct home table
  applied : ∀ a ∈ x.applications, a.disk.HasDistinct home table

/-- Whether the rows that an execution finds, and those that its changes find, are told apart. -/
def Execution.isDistinct (x : Execution) (home : Path) (table : String) : Bool :=
  x.before.disk.isDistinct home table && x.applications.all fun a => a.disk.isDistinct home table

theorem Execution.hasDistinct_of_isDistinct {x : Execution} {home : Path} {table : String}
    (h : x.isDistinct home table = true) : x.HasDistinct home table := by
  rw [isDistinct, Bool.and_eq_true, List.all_eq_true] at h
  exact ⟨Disk.hasDistinct_of_isDistinct h.1, fun a ha => Disk.hasDistinct_of_isDistinct (h.2 a ha)⟩

namespace Engine

variable {who : Identity} {command : Command} {e e' : Engine} {upkeep : Upkeep}

/-- The patches that are due track what an execution changed: they wait behind any others, in tables
whose identifiers tell rows apart, and in exact indexes unless they file a blank row. -/
def Upkeep.Follows (x : Execution) (upkeep : Upkeep) (disk : Disk) : Prop :=
  disk.HasIndexes ∧ ∃ patches, upkeep.Carries disk patches ∧
    ∀ home table column kind others, Name.isValid table = true → Name.isValid column = true →
      x.HasDistinct home table →
        (kind = .exact → ∀ row, .add row ∈ patches home table → Text.isFilled row = true) →
        (others ≠ [] → ∃ schema, x.before.disk.schemaAt? home table = some schema) →
          x.before.disk.Tracks home table column kind others →
            disk.Tracks home table column kind (others ++ patches home table)

theorem follows_spared {x : Execution} {disk : Disk} (hindexes : x.before.disk.HasIndexes)
    (hspares : Disk.SparesIndexes x.before.disk disk)
    (hrows : ∀ home table, disk.rowsAt? home table = x.before.disk.rowsAt? home table) :
    Upkeep.none.Follows x disk := by
  refine ⟨hspares.hasIndexes hindexes, _, .none, fun home table column kind others htable hcolumn _ _ _ htracks => ?_⟩
  rw [List.append_nil]
  exact htracks.spares hindexes hspares htable hcolumn (hrows home table)

/-- Where nothing was removed and nothing added, nothing is due. -/
theorem Upkeep.Follows.unless {x : Execution} {disk : Disk} {database : String}
    {schema : TableSchema} {removed added : List String} {nothing : Bool}
    (h : (Upkeep.rows database schema removed added).Follows x disk)
    (hnothing : nothing = true → removed = [] ∧ added = []) :
    Upkeep.Follows x (if nothing then .none else .rows database schema removed added) disk := by
  split
  · rename_i hnone
    obtain ⟨rfl, rfl⟩ := hnothing hnone
    obtain ⟨hindexes, patches, hcarries, htracks⟩ := h
    have hnone : patches = fun _ _ => [] := by
      cases hcarries with
      | rows hcarries =>
        cases hcarries with
        | rows =>
          funext home table
          unfold Patch.of
          split <;> rfl
    subst hnone
    exact ⟨hindexes, _, .none, htracks⟩
  · exact h

/-- The rows of a table are written, and the patches for those removed and those added are due. -/
theorem IsSound.follows_written (h : e.IsSound) (hindexes : e.disk.HasIndexes) {database text : String}
    {home : Path} {schema : TableSchema} {rows after removed added : List String}
    (htable : Name.isValid schema.name = true) (hroom : Database.hasRoom database = true)
    (hhome : Database.LiesAt e.disk database home)
    (hknown : e.knownSchema database schema.name = .ok schema)
    (hrows : Table.rows e.disk database schema.name = .ok rows)
    (htext : Text.filledLines text = after.filter Text.isFilled)
    (hafter : ∀ row ∈ after, row ∈ rows ∨ row ∈ added)
    (haccounts : ∀ kind, (rows.map Row.id).Nodup → Patch.Accounts kind
      (removed.map (fun row => .remove (Row.id row)) ++ added.map .add) rows after) :
    (Upkeep.rows database schema removed added).Follows ⟨who, command, e⟩
      (e.disk.put (Path.tablePlace home schema.name) (.file text)) := by
  have hspares := Disk.sparesIndexes_put_table e.disk home schema.name text
  have hbefore := Disk.rowsAt?_of_rows htable hhome hrows
  have hplace : e.disk.at? (Path.tablePlace home schema.name) ≠ some .directory := by
    obtain ⟨home', found, hhome', -, hthere, -⟩ := Table.rows_eq_ok htable hrows
    obtain rfl := hhome.unique hhome'
    rw [hthere]
    simp
  have hfinds := Disk.stillFinds_put_table hplace text
  refine ⟨hspares.hasIndexes hindexes, _, .rows (.rows removed added (hfinds.homes _ _ hhome) hroom
    htable (hfinds.schemas _ _ _ htable (h.knownSchema htable hknown).1)),
    fun home' table column kind others hvalid hcolumn hids hfilled _ htracks => ?_⟩
  refine htracks.put hindexes hvalid hcolumn hbefore htext fun hhomes htables => ?_
  subst hhomes htables
  have hschema := Disk.schemaAt?_of_readSchema htable hhome (h.knownSchema htable hknown).1
  refine (haccounts kind (hids.before schema _ hschema hbefore)).filter fun row hrow hkind => ?_
  rcases hafter row hrow with hold | hnew
  · exact (h.disk.row hrows row hold).2
  · refine hfilled hkind row ?_
    rw [Patch.of_self]
    exact List.mem_append_right _ (List.mem_map_of_mem hnew)

/-- A column of a known schema is at its position on the disk. -/
theorem IsSound.positionAt?_of_knownSchema (h : e.IsSound) {home : Path}
    {database table column : String} {schema : TableSchema} {position : Nat}
    (htable : Name.isValid table = true) (hhome : Database.LiesAt e.disk database home)
    (hknown : e.knownSchema database table = .ok schema)
    (hposition : schema.columnIndex? column = some position) :
    e.disk.positionAt? home table column = some position := by
  obtain ⟨hread, -⟩ := h.knownSchema htable hknown
  rw [Disk.positionAt?, Disk.schemaAt?_of_readSchema htable hhome hread]
  exact hposition

/-- The patches for the entries that a commit has applied are due. -/
theorem IsSound.follows_commit (h : e.IsSound) {transaction : Transaction} {logged disk : Disk}
    {done : List Log.Entry} {failure : Option Error} (hindexes : e.disk.HasIndexes)
    (hroom : ∀ entry ∈ transaction.latest, Database.hasRoom entry.database = true)
    (hrole : authorize who (.transaction .commit) e.role = .ok ())
    (hactive : e.transactions.get? who.user = some transaction)
    (hlog : e.log.write (Log.numbered e.log.next transaction.changes) e.disk = (.ok (), logged))
    (happly : Log.Entry.performAll (Log.numbered e.log.next transaction.changes) logged
      = ((done, failure), disk)) :
    (Upkeep.applied done).Follows ⟨who, .transaction .commit, e⟩ disk := by
  have hlogged : Disk.Spares True e.disk logged := h.spares_write hlog
  have hentries : ∀ entry ∈ Log.numbered e.log.next transaction.changes, entry.IsSound ∧
      Database.hasRoom entry.database = true ∧
        ∃ schema, Engine.readSchema logged entry.database entry.table = .ok schema := by
    intro entry hentry
    obtain ⟨before, hbefore, number, rfl⟩ := Log.mem_numbered hentry
    have hlatest := List.mem_reverse.1 hbefore
    obtain ⟨hsound, schema, hschema⟩ := h.waiting who.user transaction hactive before hlatest
    exact ⟨⟨hsound.table, hsound.row⟩, hroom before hlatest, schema,
      readSchema_of_keeps hsound.table hlogged.keeps hschema⟩
  have hindexes' := (hlogged.sparesIndexes trivial).hasIndexes hindexes
  obtain ⟨hspares, patches, hcarries, htracks⟩ :=
    Log.Entry.tracks_performAll (hlogged.keeps.isCatalogued h.disk) hentries hindexes' happly
  refine ⟨hspares.hasIndexes hindexes', patches, .applied hcarries, ?_⟩
  intro home table column kind others htable hcolumn hids hfilled _ hbefore
  have happlied := hids.applied
  rw [Execution.applications_of_commit hrole hactive hlog] at happlied
  exact htracks home table column kind others htable hcolumn happlied hfilled
    (hbefore.spares hindexes (hlogged.sparesIndexes trivial) htable hcolumn (hlogged.rowsAt? home table))

/-- The patches for the rows that an update has changed are due. -/
theorem IsSound.follows_update (h : e.IsSound) {database table : String} {schema : TableSchema}
    {assigned : Keyed String String} {assignments : List Assignment} {conditions : List Condition}
    {rows after : List String} {changed : List (String × String)} {disk : Disk}
    (hindexes : e.disk.HasIndexes) (htable : Name.isValid table = true)
    (hroom : Database.hasRoom database = true) (hschema : e.knownSchema database table = .ok schema)
    (hassigned : PassesAs schema assigned.entries assignments)
    (hrows : Table.rows e.disk database table = .ok rows)
    (hupdate : schema.update assignments conditions rows = .ok (after, changed))
    (hwrite : Disk.writeFile (Path.table database table) (Text.ofLines after) e.disk
      = (.ok (), disk)) :
    Upkeep.Follows ⟨who, command, e⟩ (if changed.isEmpty then .none
      else .rows database schema (changed.map Prod.fst) (changed.map Prod.snd)) disk := by
  obtain ⟨-, -, rfl⟩ := h.knownSchema htable hschema
  obtain ⟨home, hhome, rfl⟩ := write_of_rows htable hrows hwrite
  have hlines := (isLine_update hassigned hupdate fun row hrow => (h.disk.row hrows row hrow).1).1
  obtain ⟨rfl, rfl, -⟩ := TableSchema.update_eq_ok hupdate
  rw [List.map_map, List.map_map]
  refine (h.follows_written hindexes htable hroom hhome hschema hrows
    (Table.filledLines_ofLines hlines) (fun row hrow => ?_) fun kind hids => ?_).unless fun hnone => ?_
  · obtain ⟨before, hbefore, rfl⟩ := List.mem_map.1 hrow
    split
    · rename_i hmatched
      exact .inr (List.mem_map_of_mem (List.mem_filter.2 ⟨hbefore, hmatched⟩))
    · exact .inl hbefore
  · have hremoved : (rows.filter (schema.matchesRow conditions)).map
          (Prod.fst ∘ fun row => (row, schema.assign assignments row))
        = rows.filter (schema.matchesRow conditions) := List.map_id' _
    rw [hremoved]
    exact Patch.accounts_map kind hids (schema.matchesRow conditions) (schema.assign assignments)
  · rw [List.isEmpty_iff, List.map_eq_nil_iff] at hnone
    rw [hnone]
    exact ⟨rfl, rfl⟩

/-- What a command changes is tracked by the patches that are due. -/
theorem IsSound.follows_own (h : e.IsSound) (hnamed : command.isWellNamed = true)
    (hown : Own who command e e' upkeep) (hindexes : e.disk.HasIndexes)
    (hroom : ∀ database, who.requireDatabase = .ok database → Database.hasRoom database = true)
    (hwaiting : ∀ transaction, e.transactions.get? who.user = some transaction →
      ∀ entry ∈ transaction.latest, Database.hasRoom entry.database = true) :
    upkeep.Follows ⟨who, command, e⟩ e'.disk := by
  have hsame {disk : Disk} (hdisk : disk = e.disk) : Upkeep.none.Follows ⟨who, command, e⟩ disk := by
    refine follows_spared hindexes ?_ fun _ _ => by rw [hdisk]
    rw [hdisk]
    exact refl e.disk
  have hspared {disk : Disk} (hspares : Disk.Spares True e.disk disk) :
      Upkeep.none.Follows ⟨who, command, e⟩ disk :=
    follows_spared hindexes (hspares.sparesIndexes trivial) hspares.rowsAt?
  cases hown with
  | quiet hquiet | insertLater _ hquiet | updateLater _ hquiet | deleteLater _ hquiet =>
    exact hsame hquiet.disk
  | become | begin | rollback | commitNothing => exact hsame rfl
  | commit hrole hactive _ hlog happly =>
    exact h.follows_commit hindexes (hwaiting _ hactive) hrole hactive hlog happly
  | @insert database table row _ e₁ schema disk hdatabase hquiet hfree hschema hrow hwrite =>
    obtain ⟨-, -, rfl⟩ := h.knownSchema hnamed hschema
    -- The row is appended as a commit would append it.
    let entry := pendingEntry ⟨"", []⟩ who.user 0 .insert database schema.name (Row.id row) row none
    have hentry : entry.IsSound := ⟨hnamed, isLine_of_checkRow hrow⟩
    have hperform : entry.perform e.disk = (.ok (), disk) := hwrite
    obtain ⟨home, text, text', after, hhome, -, hrows, hchange, htext', -, rfl⟩ :=
      Log.Entry.perform_eq_ok h.disk hentry hperform
    obtain rfl := Option.some.inj hchange
    refine h.follows_written hindexes hnamed (hroom database hdatabase) hhome hschema hrows htext'
      (fun other hother => ?_) fun kind _ => Patch.accounts_insert kind _ row
    rw [List.mem_append] at hother
    exact hother
  | update hdatabase _ _ hschema hassigned hrows hupdate hwrite =>
    exact h.follows_update hindexes hnamed (hroom _ hdatabase) hschema hassigned hrows hupdate hwrite
  | @delete database table conditions _ e₁ schema rows disk hdatabase hquiet hfree hschema hrows
      hwrite =>
    obtain ⟨-, -, rfl⟩ := h.knownSchema hnamed hschema
    obtain ⟨home, hhome, rfl⟩ := write_of_rows hnamed hrows hwrite
    rw [TableSchema.delete_eq]
    have hlines : ∀ row ∈ rows.filter fun row => !schema.matchesRow conditions row, Text.IsLine row :=
      fun row hrow => (h.disk.row hrows row (List.mem_of_mem_filter hrow)).1
    exact (h.follows_written hindexes hnamed (hroom database hdatabase) hhome hschema hrows
      (Table.filledLines_ofLines hlines) (fun row hrow => .inl (List.mem_of_mem_filter hrow))
      fun kind hids => Patch.accounts_filter kind hids (schema.matchesRow conditions)).unless
        fun hnone => ⟨List.isEmpty_iff.1 hnone, rfl⟩
  | createNothing hdatabase =>
    exact hspared (Disk.spares_makeDirectories_below hdatabase (by decide))
  | createTable hrole hcolumns hnames hdatabase hnew hmake hwrite =>
    obtain ⟨hspares, htracks⟩ := h.tracks_createTable hindexes hnamed hdatabase hnew hmake hwrite
    refine ⟨hspares.hasIndexes hindexes, _, .none,
      fun home table column kind others hvalid hcolumn _ _ hothers hbefore => ?_⟩
    rw [List.append_nil]
    exact htracks home table column kind others hvalid hcolumn hothers hbefore
  | @createIndex database table column kind _ e₁ schema position hdatabase hquiet hschema hposition =>
    rw [Command.isWellNamed, Bool.and_eq_true] at hnamed
    rcases @Index.build_withIndex database table column hnamed.1 hnamed.2 position kind e.disk with
      ⟨failure, hbuild⟩ | ⟨home, rows, keys, hhome, hrows, hfits, hbuild⟩
    · exact hsame (by rw [hbuild])
    have hindexed := h.positionAt?_of_knownSchema hnamed.1 hhome hschema hposition
    have hfile := @Disk.isIndexFile_withIndex e.disk home table column kind rows position hnamed.1 hnamed.2 hfits hindexed
    rw [hbuild]
    refine ⟨hindexes.put hfile, _, .none,
      fun home' table' column' kind' others hvalid hcolumn _ _ _ htracks => ?_⟩
    rw [List.append_nil]
    exact htracks.withIndex hvalid hcolumn hfile hindexed hrows
  | createView => exact hspared (View.spares_save _ _ _ e.disk)
  | @createTrigger database definition _ e₁ created hdatabase hquiet =>
    rw [Command.isWellNamed, Bool.and_eq_true] at hnamed
    exact hspared (Trigger.spares_save database { definition, created } hnamed.1 hnamed.2 e.disk)

/-- Without a queue the patches are made at once, so that nothing has to wait. -/
theorem Upkeep.Follows.tracks {x : Execution} (h : upkeep.Follows x e.disk) (he : e.IsSound)
    (hinline : e.settings.background = false) :
    (upkeep.step e).2.disk.HasIndexes ∧ ∃ patches, upkeep.Carries e.disk patches ∧
      ∀ home table column kind, Name.isValid table = true → Name.isValid column = true →
        x.HasDistinct home table →
          (kind = .exact → ∀ row, .add row ∈ patches home table → Text.isFilled row = true) →
            x.before.disk.Tracks home table column kind [] →
              (upkeep.step e).2.disk.Tracks home table column kind [] := by
  obtain ⟨hindexes, patches, hcarries, htracks⟩ := h
  have hrefiles := hcarries.refiles he hindexes hinline
  refine ⟨hrefiles.indexes, patches, hcarries, fun home table column kind htable hcolumn hids hfilled hbefore => ?_⟩
  have hdue := htracks home table column kind [] htable hcolumn hids hfilled (fun hno => absurd rfl hno)
    hbefore
  exact Disk.Tracks.refiled (by rwa [List.append_nil]) hrefiles htable hcolumn

end Engine

end FlatFileDb
