import FlatFileDb.Proofs.RowList
import FlatFileDb.Proofs.Tracking
import Mathlib.Data.List.Infix

/-!
# Indexes that are up to date

The row store and the index files know nothing of each other: whoever changes a row of a table patches
the indexes of the table afterwards. Patched so after every change, an index lists what an index would
list that is built anew from the rows that are there, each identifier once under each key and no key
without any, as long as identifiers tell the rows apart; and no index of another table is touched. All
that takes is that every index of the table can be read and is on a column that has a name.

A blank row is added to the file but never read back, and yet an exact index on the first column files
it; it has no other column and no words.
-/

namespace FlatFileDb

/-! ### Indexes in order -/

namespace IndexData

/-- Whether an index is in order: every key stands once, with at least one identifier and none of them
twice. -/
structure IsTidy (data : IndexData) : Prop extends data.IsProper where
  once : ∀ key, (data.idsAt key).Nodup

variable {data : IndexData} {kind : IndexKind} {id field : String} {position : Nat}
  {rows : List String}

theorem IsTidy.file (h : data.IsTidy) (id key : String) : (file id data key).IsTidy where
  toIsProper := h.toIsProper.file id key
  once other := by
    have hkey := h.once key
    rw [idsAt] at hkey
    rw [idsAt, IndexData.file, Keyed.get?_alter]
    by_cases hsame : other = key
    · rw [if_pos (by simpa using hsame), Option.getD_some]
      dsimp only
      split
      · exact hkey
      · rename_i hnew
        refine List.Nodup.append hkey (List.nodup_singleton id) ?_
        simpa using hnew
    · rw [if_neg (by simpa using hsame)]
      exact h.once other

theorem IsTidy.addRow (h : data.IsTidy) (kind : IndexKind) (id field : String) :
    (data.addRow kind id field).IsTidy := by
  have hfold (keys : List String) {data : IndexData} (h : data.IsTidy) :
      (keys.foldl (IndexData.file id) data).IsTidy := by
    induction keys generalizing data with
    | nil => exact h
    | cons key rest ih => exact ih (h.file id key)
  exact hfold _ h

theorem IsTidy.removeId (h : data.IsTidy) (id : String) : (data.removeId id).IsTidy where
  toIsProper := h.toIsProper.removeId id
  once key := by
    rw [idsAt_removeId h.toIsProper]
    exact (h.once key).filter _

/-- A row is filed once under each of its keys. -/
theorem nodup_filings (kind : IndexKind) (position : Nat) (row : String) :
    ((filings kind position row).map Prod.fst).Nodup := by
  unfold filings
  split
  · exact List.nodup_nil
  · rename_i field _
    rw [List.map_map]
    change ((kind.keys field).map id).Nodup
    rw [List.map_id]
    cases kind with
    | exact => exact List.nodup_singleton field
    | words => exact Text.nodup_firstOccurrences _

theorem ids_filings_sublist (kind : IndexKind) (position : Nat) (row key : String) :
    (((filings kind position row).filter fun filed => filed.1 == key).map Prod.snd).Sublist
      [Row.id row] := by
  have hcount := List.nodup_iff_count_le_one.1 (nodup_filings kind position row) key
  rw [List.count, List.countP_map, List.countP_eq_length_filter] at hcount
  have hids : ∀ pair ∈ (filings kind position row).filter fun filed => filed.1 == key,
      pair.2 = Row.id row := fun pair hpair => id_of_mem_filings (List.mem_filter.1 hpair).1
  change ((filings kind position row).filter fun filed => filed.1 == key).length ≤ 1 at hcount
  generalize (filings kind position row).filter (fun filed => filed.1 == key) = found at hcount hids
  match found with
  | [] => exact List.nil_sublist _
  | [pair] => rw [List.map_singleton, hids pair (by simp)]
  | _ :: _ :: _ => simp at hcount

/-- Under one key, rows are filed in order, each at most once. -/
theorem ids_sublist (kind : IndexKind) (position : Nat) (rows : List String) (key : String) :
    (((rows.flatMap (filings kind position)).filter fun filed => filed.1 == key).map Prod.snd).Sublist
      (rows.map Row.id) := by
  induction rows with
  | nil => exact .slnil
  | cons row rest ih =>
    rw [List.flatMap_cons, List.filter_append, List.map_append, List.map_cons]
    exact (ids_filings_sublist kind position row key).append ih

/-- What is built of rows with identifiers of their own is in order. -/
theorem isTidy_build (kind : IndexKind) (position : Nat) (h : (rows.map Row.id).Nodup) :
    (build kind position rows).IsTidy where
  toIsProper := isProper_build kind position rows
  once key := by
    rw [idsAt, get?_build]
    split
    · exact (ids_sublist kind position rows key).nodup h
    · exact List.nodup_nil

end IndexData

/-! ### Patching all indexes of a table -/

/-- The places of the indexes of one kind on a table. -/
def Path.IsIndexOf (home : Path) (table : String) (kind : IndexKind) (place : Path) : Prop :=
  ∃ column, place = indexPlace home table column kind

namespace Index

/-- Whether something holds of every index of one kind that the directory shows of a table. Each of them
can be read. -/
def AllHold (disk : Disk) (database table : String) (kind : IndexKind)
    (holds : String → IndexData → Prop) : Prop :=
  ∀ column ∈ columns disk database table kind,
    ∃ data, load disk database table column kind = .ok data ∧ holds column data

/-- Whether a change, if there is one, leads from indexes of which one thing holds to proper ones of which
another holds. -/
def Turns (change : Option (IndexData → Option IndexData)) (holds held : IndexData → Prop) : Prop :=
  ∀ data, holds data →
    match change.bind fun change => change data with
    | some data' => data'.IsProper ∧ held data'
    | none => held data

variable {disk disk' : Disk} {home : Path} {database table column : String} {kind : IndexKind}
  {data data' : IndexData} {holds held : String → IndexData → Prop}
  {change : String → Option (IndexData → Option IndexData)}

theorem columns_of_rewrites {written : Path → Prop} (h : Disk.Rewrites written disk disk')
    (database table : String) (kind : IndexKind) :
    columns disk' database table kind = columns disk database table kind := by
  rw [columns, columns, h.namesIn]

/-- An index that is read lies at its place. -/
theorem locate_of_load (hhome : Database.LiesAt disk database home)
    (htable : Name.isValid table = true) (hcolumn : Name.isValid column = true)
    (h : load disk database table column kind = .ok data) :
    ∃ text, disk.locate (path database table column kind)
        = .ok (Path.indexPlace home table column kind, .file text) ∧
      (Json.ofText? text).bind IndexData.ofJson? = some data := by
  obtain ⟨place, text, hplace, hread⟩ := load_eq_ok h
  obtain rfl := filePlace_of_liesAt hhome htable hcolumn (Disk.filePlace?_of_file hplace)
  exact ⟨text, hplace, hread⟩

/-- An index stays as it is where only other files are written. -/
theorem load_of_rewrites {written : Path → Prop} (hhome : Database.LiesAt disk database home)
    (htable : Name.isValid table = true) (hcolumn : Name.isValid column = true)
    (h : Disk.Rewrites written disk disk')
    (hother : ¬written (Path.indexPlace home table column kind))
    (hload : load disk database table column kind = .ok data) :
    load disk' database table column kind = .ok data := by
  obtain ⟨text, hplace, hread⟩ := locate_of_load hhome htable hcolumn hload
  obtain ⟨text', hplace', hthere⟩ := h.grows.locate_file hplace
  obtain ⟨-, -, -, -, -, -, hentry, -⟩ := Disk.locate_file hplace
  rw [h.at?_eq hother, hentry] at hthere
  obtain rfl := DiskEntry.file.inj (Option.some.inj hthere)
  exact load_of_locate hplace' hread

theorem AllHold.rewrites {written : Path → Prop} (hhome : Database.LiesAt disk database home)
    (htable : Name.isValid table = true)
    (hcolumns : ∀ column ∈ columns disk database table kind, Name.isValid column = true)
    (hall : AllHold disk database table kind holds) (h : Disk.Rewrites written disk disk')
    (hother : ∀ column, ¬written (Path.indexPlace home table column kind)) :
    AllHold disk' database table kind holds := by
  intro column hcolumn
  rw [columns_of_rewrites h] at hcolumn
  obtain ⟨data, hload, hholds⟩ := hall column hcolumn
  exact ⟨data, load_of_rewrites hhome htable (hcolumns column hcolumn) h (hother column) hload, hholds⟩

section Patching

variable (hhome : Database.LiesAt disk database home) (htable : Name.isValid table = true)
  (hcolumns : ∀ column ∈ columns disk database table kind, Name.isValid column = true)
include hhome htable hcolumns

/-- Only the index of one column is written. -/
theorem AllHold.put {held : IndexData → Prop} (hall : AllHold disk database table kind holds)
    (hcolumn : Name.isValid column = true)
    (h : Disk.Rewrites (Eq (Path.indexPlace home table column kind)) disk disk')
    (hload : load disk' database table column kind = .ok data') (hheld : held data') :
    AllHold disk' database table kind fun other data =>
      if other = column then held data else holds other data := by
  intro other hother
  rw [columns_of_rewrites h] at hother
  by_cases hsame : other = column
  · subst hsame
    exact ⟨data', hload, by simpa using hheld⟩
  · obtain ⟨found, hfound, hkept⟩ := hall other hother
    have hvalid := hcolumns other hother
    refine ⟨found, load_of_rewrites hhome htable hvalid h (fun hno => hsame ?_) hfound,
      by simpa [hsame] using hkept⟩
    exact (Path.indexPlace_inj htable htable hcolumn hvalid hno).2.2.1.symm

/-- Where the index of a column is patched, something else holds of it, and of the others what held
before. -/
theorem allHold_patchColumn {held : IndexData → Prop} (hall : AllHold disk database table kind holds)
    (hcolumn : column ∈ columns disk database table kind)
    (hturns : Turns (change column) (holds column) held) :
    ∃ disk', patchColumn database table kind change column disk = (.ok (), disk') ∧
      Disk.Rewrites (Path.IsIndexOf home table kind) disk disk' ∧
      AllHold disk' database table kind fun other data =>
        if other = column then held data else holds other data := by
  have hvalid := hcolumns column hcolumn
  obtain ⟨data, hload, hholds⟩ := hall column hcolumn
  have hdata := hturns data hholds
  obtain ⟨text, hplace, hread⟩ := locate_of_load hhome htable hvalid hload
  obtain ⟨-, -, -, -, -, -, hentry, -⟩ := Disk.locate_file hplace
  refine ⟨_, patchColumn_of_locate hplace hread change, ?_⟩
  cases hnew : (change column).bind fun change => change data with
  | none =>
    rw [hnew] at hdata
    exact ⟨refl disk, hall.put hhome htable hcolumns hvalid (refl disk) hload hdata⟩
  | some data' =>
    rw [hnew] at hdata
    have hrewrites : Disk.Rewrites (Eq (Path.indexPlace home table column kind)) disk
        (disk.put (Path.indexPlace home table column kind) (.file data'.toJson.compact)) :=
      Disk.rewrites_put rfl hentry _
    have hload' := load_of_locate (Disk.locate_put (Disk.filePlace?_of_file hplace)
      data'.toJson.compact) (IndexData.ofText_compact hdata.1)
    exact ⟨hrewrites.mono fun place hplace => ⟨column, hplace.symm⟩,
      hall.put hhome htable hcolumns hvalid hrewrites hload' hdata.2⟩

/-- Some indexes are patched one after the other. The invariant of the loop: what holds in the end holds of
those that are done, and of the others still what held before. -/
theorem allHold_patchSome
    (hturns : ∀ column ∈ columns disk database table kind,
      Turns (change column) (holds column) (held column) ∧
        Turns (change column) (held column) (held column))
    {done items : List String} (hitems : ∀ column ∈ items, column ∈ columns disk database table kind)
    (hall : AllHold disk database table kind fun column data =>
      if column ∈ done then held column data else holds column data) :
    ∃ disk', items.forM (patchColumn database table kind change) disk = (.ok (), disk') ∧
      Disk.Rewrites (Path.IsIndexOf home table kind) disk disk' ∧
      AllHold disk' database table kind fun column data =>
        if column ∈ items ++ done then held column data else holds column data := by
  induction items generalizing done disk with
  | nil => exact ⟨disk, rfl, refl disk, hall⟩
  | cons first rest ih =>
    obtain ⟨hfirst, hrest⟩ := List.forall_mem_cons.1 hitems
    have hone : Turns (change first)
        (fun data => if first ∈ done then held first data else holds first data) (held first) := by
      split
      · exact (hturns first hfirst).2
      · exact (hturns first hfirst).1
    obtain ⟨next, hstep, hnext, hamid⟩ := allHold_patchColumn hhome htable hcolumns hall hfirst hone
    have hsame := columns_of_rewrites hnext database table kind
    have hamid' : AllHold next database table kind fun column data =>
        if column ∈ first :: done then held column data else holds column data := by
      intro column hcolumn
      obtain ⟨data, hload, hdata⟩ := hamid column hcolumn
      refine ⟨data, hload, ?_⟩
      by_cases hcase : column = first
      · subst hcase
        simpa using hdata
      · simpa [hcase] using hdata
    obtain ⟨disk', hrun, hlast, hend⟩ := ih (hhome.grows hnext.grows) (hsame ▸ hcolumns)
      (hsame ▸ hturns) (hsame ▸ hrest) hamid'
    refine ⟨disk', (Action.forM_cons_of_ok hstep rest).trans hrun, IsTrans.trans _ _ _ hnext hlast,
      fun column hcolumn => ?_⟩
    obtain ⟨data, hload, hdata⟩ := hend column hcolumn
    refine ⟨data, hload, ?_⟩
    simpa [or_comm, or_left_comm] using hdata

/-- All indexes of one kind are patched. -/
theorem allHold_patchAll
    (hturns : ∀ column ∈ columns disk database table kind,
      Turns (change column) (holds column) (held column) ∧
        Turns (change column) (held column) (held column))
    (hall : AllHold disk database table kind holds) :
    ∃ disk', (columns disk database table kind).forM (patchColumn database table kind change) disk
        = (.ok (), disk') ∧
      Disk.Rewrites (Path.IsIndexOf home table kind) disk disk' ∧
      AllHold disk' database table kind held := by
  obtain ⟨disk', hrun, hrewrites, hend⟩ :=
    @allHold_patchSome _ _ _ _ _ _ _ _ hhome htable hcolumns hturns [] _ (fun _ h => h)
      (by simpa using hall)
  refine ⟨disk', hrun, hrewrites, fun column hcolumn => ?_⟩
  obtain ⟨data, hload, hdata⟩ := hend column hcolumn
  rw [columns_of_rewrites hrewrites] at hcolumn
  exact ⟨data, hload, by simpa [hcolumn] using hdata⟩

end Patching

theorem not_isIndexOf {kind kind' : IndexKind} (htable : Name.isValid table = true) (hkind : kind' ≠ kind)
    (column : String) : ¬Path.IsIndexOf home table kind (Path.indexPlace home table column kind') := by
  rintro ⟨column', hplace⟩
  obtain ⟨-, -, hends⟩ := Path.table_of_indexPlace htable htable hplace
  have hlength : ('.' :: kind'.extension.toList).length = ('.' :: kind.extension.toList).length := by
    cases kind' <;> cases kind <;> rfl
  have hextension := (List.append_inj' hends hlength).2
  revert hkind hextension
  cases kind' <;> cases kind <;> decide

/-- The places of the indexes on a table. -/
def Places (home : Path) (table : String) (place : Path) : Prop :=
  ∃ kind, Path.IsIndexOf home table kind place

/-- All indexes of a table are patched, kind by kind, and nothing else is written. -/
theorem allHold_patch (hhome : Database.LiesAt disk database home)
    (htable : Name.isValid table = true)
    (hcolumns : ∀ kind, ∀ column ∈ columns disk database table kind, Name.isValid column = true)
    {change : IndexKind → String → Option (IndexData → Option IndexData)}
    {holds held : IndexKind → String → IndexData → Prop}
    (hturns : ∀ kind, ∀ column ∈ columns disk database table kind,
      Turns (change kind column) (holds kind column) (held kind column) ∧
        Turns (change kind column) (held kind column) (held kind column))
    (hall : ∀ kind, AllHold disk database table kind (holds kind)) :
    ∃ disk', patch database table change disk = (.ok (), disk') ∧
      Disk.Rewrites (Places home table) disk disk' ∧
      ∀ kind, AllHold disk' database table kind (held kind) := by
  obtain ⟨next, hfirst, hnext, hexact⟩ :=
    allHold_patchAll hhome htable (hcolumns .exact) (hturns .exact) (hall .exact)
  have hhome' := hhome.grows hnext.grows
  have hsame := columns_of_rewrites hnext database table .words
  obtain ⟨last, hsecond, hlast, hwords⟩ := allHold_patchAll hhome' htable
    (hsame ▸ hcolumns .words) (hsame ▸ hturns .words)
    ((hall .words).rewrites hhome htable (hcolumns .words) hnext (not_isIndexOf htable (by decide)))
  refine ⟨last, ?_, IsTrans.trans _ _ _ (hnext.mono fun _ h => ⟨.exact, h⟩)
    (hlast.mono fun _ h => ⟨.words, h⟩), fun kind => ?_⟩
  · let step : IndexKind → Action Disk Unit := fun kind => do
      (columns (← Action.get) database table kind).forM
        (patchColumn database table kind (change kind))
    have hexactStep : step .exact disk = (.ok (), next) := hfirst
    have hwordsStep : step .words next = (.ok (), last) := hsecond
    change kinds.forM step disk = _
    exact (Action.forM_cons_of_ok hexactStep [.words]).trans
      ((Action.forM_cons_of_ok hwordsStep []).trans rfl)
  · cases kind with
    | exact =>
      have hcolumns' := columns_of_rewrites hnext database table .exact
      exact hexact.rewrites hhome' htable (hcolumns' ▸ hcolumns .exact) hlast
        (not_isIndexOf htable (by decide))
    | words => exact hwords

end Index

/-! ### Indexes in order after a patch -/

namespace Patch

variable {names : List String} {column : String} {kind : IndexKind} {position : Nat}
  {pairs : Set (String × String)}

theorem isTidy_of_change {data data' : IndexData} (h : data.IsTidy) (patch : Patch)
    (hchange : ((patch.change names kind column).bind fun change => change data) = some data') :
    data'.IsTidy := by
  cases patch with
  | remove id =>
    rw [change, Option.bind_some] at hchange
    dsimp only at hchange
    split at hchange
    · cases hchange
    · obtain rfl := Option.some.inj hchange
      exact h.removeId id
  | add row =>
    rw [change, Option.bind_map] at hchange
    obtain ⟨field, -, hadded⟩ := Option.bind_eq_some_iff.1 hchange
    obtain rfl := Option.some.inj hadded
    exact h.addRow kind (Row.id row) field

/-- An index in order is in order after a patch. -/
theorem turns_change (hposition : names.findIdx? (fun name => name == column) = some position)
    (patch : Patch) (pairs : Set (String × String)) :
    Index.Turns (patch.change names kind column) (fun data => data.IsTidy ∧ data.listed = pairs)
      fun data => data.IsTidy ∧ data.listed = effect kind position pairs patch := by
  rintro data ⟨htidy, rfl⟩
  have hmade := @makes_change names column kind position hposition patch data htidy.toIsProper
  cases hnew : (patch.change names kind column).bind fun change => change data with
  | none =>
    rw [hnew] at hmade
    exact ⟨htidy, hmade.symm⟩
  | some data' =>
    rw [hnew] at hmade
    exact ⟨hmade.1, isTidy_of_change htidy patch hnew, hmade.2⟩

end Patch

/-! ### Indexes on named columns -/

namespace Index

/-- Whether every index of one kind on a table is in order, on a column that has a name, and lists the
pairs for the position of the column. -/
def AllList (disk : Disk) (database table : String) (names : List String) (kind : IndexKind)
    (pairs : Nat → Set (String × String)) : Prop :=
  AllHold disk database table kind fun column data =>
    ∃ position, names.findIdx? (fun name => name == column) = some position ∧
      data.IsTidy ∧ data.listed = pairs position

variable {disk disk' : Disk} {home : Path} {database table : String} {names : List String}
  {kind : IndexKind} {pairs : IndexKind → Nat → Set (String × String)}

theorem AllList.isValid {pairs : Nat → Set (String × String)}
    (h : AllList disk database table names kind pairs)
    (hnames : ∀ name ∈ names, Name.isValid name = true) :
    ∀ column ∈ columns disk database table kind, Name.isValid column = true := by
  intro column hcolumn
  obtain ⟨data, -, position, hposition, -⟩ := h column hcolumn
  obtain ⟨hlength, hname, -⟩ := List.findIdx?_eq_some_iff_getElem.1 hposition
  exact eq_of_beq hname ▸ hnames _ (List.getElem_mem hlength)

section Named

variable (hhome : Database.LiesAt disk database home) (htable : Name.isValid table = true)
  (hnames : ∀ name ∈ names, Name.isValid name = true)
  (hall : ∀ kind, AllList disk database table names kind (pairs kind))
include hhome htable hnames hall

/-- A patch is made in every index of the table. -/
theorem allList_perform (patch : Patch) :
    ∃ disk', patch.perform database table names disk = (.ok (), disk') ∧
      Disk.Rewrites (Places home table) disk disk' ∧
      ∀ kind, AllList disk' database table names kind fun position =>
        patch.effect kind position (pairs kind position) := by
  have hturns (kind : IndexKind) (column : String) (pairs : Nat → Set (String × String)) :
      Turns (patch.change names kind column)
        (fun data => ∃ position, names.findIdx? (fun name => name == column) = some position ∧
          data.IsTidy ∧ data.listed = pairs position)
        fun data => ∃ position, names.findIdx? (fun name => name == column) = some position ∧
          data.IsTidy ∧ data.listed = patch.effect kind position (pairs position) := by
    rintro data ⟨position, hposition, hdata⟩
    have hturned := @Patch.turns_change names column kind position hposition patch (pairs position) data hdata
    cases hnew : (patch.change names kind column).bind fun change => change data with
    | none =>
      rw [hnew] at hturned
      exact ⟨position, hposition, hturned⟩
    | some data' =>
      rw [hnew] at hturned
      exact ⟨hturned.1, position, hposition, hturned.2⟩
  rw [Patch.perform_eq]
  refine allHold_patch hhome htable (fun kind => (hall kind).isValid hnames)
    (fun kind column _ => ⟨hturns kind column (pairs kind), ?_⟩) hall
  have hagain := hturns kind column fun position => patch.effect kind position (pairs kind position)
  simpa only [Patch.effect_again] using hagain

/-- Patches are made one after the other. -/
theorem allList_performAll (patches : List Patch) :
    ∃ disk', patches.forM (Patch.perform database table names) disk = (.ok (), disk') ∧
      Disk.Rewrites (Places home table) disk disk' ∧
      ∀ kind, AllList disk' database table names kind fun position =>
        Patch.effects kind position patches (pairs kind position) := by
  induction patches generalizing disk pairs with
  | nil => exact ⟨disk, rfl, refl disk, hall⟩
  | cons patch rest ih =>
    obtain ⟨next, hstep, hnext, hone⟩ := allList_perform hhome htable hnames hall patch
    obtain ⟨last, hrun, hlast, hrest⟩ := ih (hhome.grows hnext.grows) hone
    exact ⟨last, (Action.forM_cons_of_ok hstep rest).trans hrun, IsTrans.trans _ _ _ hnext hlast, hrest⟩

end Named

end Index

/-! ### Changes of rows -/

namespace Table

/-- A change of one row. -/
inductive Change where
  | insert (row : String)
  | remove (id : String)
  | replace (id row : String)
  deriving DecidableEq, Repr

namespace Change

/-- What a change does to the rows. -/
def step : Change → Step
  | insert row => .append row
  | remove id => .removeRow id
  | replace id row => .replaceRow id row

/-- What is patched in the indexes after a change. -/
def patches : Change → List Patch
  | insert row => [.add row]
  | remove id => [.remove id]
  | replace id row => [.remove id, .add row]

/-- Changes a row of a table and then its indexes; a row that cannot be changed leaves them alone. -/
def perform (database table : String) (names : List String) (change : Change) : Action Disk Unit := do
  change.step.perform database table
  change.patches.forM (Patch.perform database table names)

/-- The disk after some changes, each of them made whatever came of those before it. -/
def after (database table : String) (names : List String) (changes : List Change) (disk : Disk) :
    Disk :=
  changes.foldl (fun disk change => (change.perform database table names disk).2) disk

variable {change : Change} {table : String} {rows changed : List String}

theorem step_ne_init (change : Change) : change.step ≠ .init := by
  cases change <;> simp [step]

/-- A row is added at the end, or the first row of an identifier gives way to those that are brought
along. -/
theorem next_cases (h : change.step.next table rows = .ok changed) :
    (∃ row, change = .insert row ∧ changed = rows ++ [row]) ∨
      ∃ id, change.patches = [.remove id] ++ change.step.brought.map .add ∧
        changeFirst? id (fun _ => change.step.brought) rows = some changed := by
  cases change with
  | insert row => exact .inl ⟨row, rfl, (Except.ok.inj h).symm⟩
  | remove id =>
    rw [step, Step.next_removeRow] at h
    split at h
    · rename_i after hchange
      exact .inr ⟨id, rfl, hchange.trans (congrArg some (Except.ok.inj h))⟩
    · cases h
  | replace id row =>
    rw [step, Step.next_replaceRow] at h
    split at h
    · rename_i after hchange
      exact .inr ⟨id, rfl, hchange.trans (congrArg some (Except.ok.inj h))⟩
    · cases h

/-- The patches for a change account for what it makes of the rows. -/
theorem accounts (kind : IndexKind) (hids : (rows.map Row.id).Nodup)
    (h : change.step.next table rows = .ok changed) :
    Patch.Accounts kind change.patches rows changed := by
  rcases next_cases h with ⟨row, rfl, rfl⟩ | ⟨id, hpatches, hchange⟩
  · exact Patch.accounts_insert kind rows row
  · rw [hpatches]
    exact Patch.accounts_changeFirst kind hids hchange

/-- The rows after a change were there before or are brought along. -/
theorem mem_of_next (h : change.step.next table rows = .ok changed) :
    ∀ row ∈ changed, row ∈ rows ∨ row ∈ change.step.brought := by
  rcases next_cases h with ⟨row, rfl, rfl⟩ | ⟨id, -, hchange⟩
  · exact fun row hrow => List.mem_append.1 hrow
  · exact forall_of_changeFirst? hchange (fun _ => .inl) fun _ _ => .inr

end Change

variable {disk : Disk} {database table : String} {rows : List String}

/-- Of all files a change of the rows writes the one of the table. -/
theorem Stores.rewrites (h : Stores disk database table (some rows)) {step : Step}
    (hstep : step ≠ .init) :
    Disk.Rewrites (Path.EndsIn ".mg") disk (step.perform database table disk).2 := by
  obtain ⟨place, lines, hlocate, -, -⟩ := h
  obtain ⟨-, -, -, -, -, -, hentry, -⟩ := Disk.locate_file hlocate
  have hput (text : String) := Disk.rewrites_put
    (Path.endsIn_of_locate hlocate (Path.endsIn_table database table)) hentry text
  have hchange (id : String) (f : String → List String) :
      Disk.Rewrites (Path.EndsIn ".mg") disk (changeRow database table id f disk).2 := by
    rw [changeRow_of_locate hlocate]
    split
    · exact hput _
    · exact refl disk
  cases step with
  | init => exact absurd rfl hstep
  | append row =>
    rw [Step.perform, append_of_locate hlocate]
    exact hput _
  | replaceAll rows =>
    rw [Step.perform, replaceAll, modify_of_locate hlocate]
    exact hput _
  | replaceRow id row => exact hchange id _
  | removeRow id => exact hchange id _

end Table

/-! ### Sequences of changes -/

namespace Index

/-- Whether every index of a table is in order, on a column that has a name, and lists what an index
built of the rows would list; the exact one on the first column need only do so if `filled` holds. -/
def AreUpToDate (disk : Disk) (database table : String) (names : List String) (filled : Prop)
    (rows : List String) : Prop :=
  ∀ kind, ∀ column ∈ columns disk database table kind, ∃ position data,
    names.findIdx? (fun name => name == column) = some position ∧
      load disk database table column kind = .ok data ∧ data.IsTidy ∧
      ((kind = .exact → position = 0 → filled) →
        data.listed = (IndexData.build kind position rows).listed)

/-- Indexes that were just built of rows with identifiers of their own are up to date. -/
theorem areUpToDate_of_built {disk : Disk} {database table : String} {names rows : List String}
    {filled : Prop} (hids : (rows.map Row.id).Nodup)
    (h : ∀ kind, ∀ column ∈ columns disk database table kind, ∃ position,
      names.findIdx? (fun name => name == column) = some position ∧
        load disk database table column kind = .ok (IndexData.build kind position rows)) :
    AreUpToDate disk database table names filled rows := by
  intro kind column hcolumn
  obtain ⟨position, hposition, hload⟩ := h kind column hcolumn
  exact ⟨position, _, hposition, hload, IndexData.isTidy_build kind position hids, fun _ => rfl⟩

end Index

namespace Table

open Index (AreUpToDate AllList Places)

/-- The rows of a table stand in its file, and its indexes are up to date. -/
structure IsIndexed (disk : Disk) (database table : String) (names : List String) (filled : Prop)
    (rows : List String) : Prop where
  stores : Stores disk database table (some rows)
  indexes : ∃ pairs : IndexKind → Nat → Set (String × String),
    (∀ kind, AllList disk database table names kind (pairs kind)) ∧
      ∀ kind position, (kind = .exact → position = 0 → filled) →
        pairs kind position = IndexData.filed kind position rows

variable {disk disk' : Disk} {home : Path} {database table : String} {names rows : List String}
  {filled : Prop} {change : Change} {changes : List Change}

/-- The files that a change writes: that of the table and those of its indexes. -/
def Written (home : Path) (table : String) (place : Path) : Prop :=
  Path.EndsIn ".mg" place ∨ Places home table place

theorem not_endsIn_of_places {place : Path} (h : Places home table place) : ¬Path.EndsIn ".mg" place := by
  obtain ⟨kind, column, rfl⟩ := h
  obtain ⟨kind', hkind⟩ := Path.isIndex_indexPlace home table column kind
  exact fun hno => (hno.not (by cases kind' <;> decide)) hkind

theorem Stores.isFilled (h : Stores disk database table (some rows)) :
    ∀ row ∈ rows, Text.isFilled row = true := by
  obtain ⟨place, lines, -, -, rfl⟩ := h
  exact fun row hrow => (List.mem_filter.1 hrow).2

/-- Where only indexes are written, the rows stay in the file. -/
theorem Stores.rewritten (h : Stores disk database table (some rows))
    (hrewrites : Disk.Rewrites (Places home table) disk disk') :
    Stores disk' database table (some rows) := by
  obtain ⟨place, lines, hlocate, hlines, rfl⟩ := h
  obtain ⟨text, hlocate', hthere⟩ := hrewrites.grows.locate_file hlocate
  obtain ⟨-, -, -, -, -, -, hentry, -⟩ := Disk.locate_file hlocate
  rw [hrewrites.at?_eq fun hno => not_endsIn_of_places hno
    (Path.endsIn_of_locate hlocate (Path.endsIn_table database table)), hentry] at hthere
  obtain rfl := DiskEntry.file.inj (Option.some.inj hthere)
  exact ⟨place, lines, hlocate', hlines, rfl⟩

section Changes

variable (hhome : Database.LiesAt disk database home) (htable : Name.isValid table = true)
  (hnames : ∀ name ∈ names, Name.isValid name = true)
include hhome htable hnames

/-- One change keeps the indexes up to date. -/
theorem IsIndexed.perform (h : IsIndexed disk database table names filled rows)
    (hlines : ∀ row ∈ change.step.brought, Text.IsUnbroken row)
    (hfilled : filled → ∀ row ∈ change.step.brought, Text.isFilled row = true)
    (hids : (rows.map Row.id).Nodup) :
    ∃ changed, IsIndexed (change.perform database table names disk).2 database table names filled
        changed ∧
      Disk.Rewrites (Written home table) disk (change.perform database table names disk).2 := by
  obtain ⟨hstores, pairs, hall, hpairs⟩ := h
  have hagrees := hstores.agrees hlines
  have hrewrites := hstores.rewrites change.step_ne_init
  rw [Step.onList_some _ change.step_ne_init] at hagrees
  cases hstep : change.step.perform database table disk with
  | mk result next =>
  rw [hstep] at hagrees hrewrites
  unfold Change.perform
  cases hnext : change.step.next table rows with
  | error failure =>
    rw [hnext] at hagrees
    obtain rfl : result = .error failure := hagrees.result
    obtain rfl := Step.perform_error hstep
    rw [Action.bind_of_error hstep]
    exact ⟨rows, ⟨hstores, pairs, hall, hpairs⟩, refl _⟩
  | ok changed =>
    rw [hnext] at hagrees
    obtain rfl : result = .ok () := hagrees.result
    have hkept (kind : IndexKind) : AllList next database table names kind (pairs kind) :=
      Index.AllHold.rewrites hhome htable ((hall kind).isValid hnames) (hall kind) hrewrites
        fun column => not_endsIn_of_places ⟨kind, column, rfl⟩
    obtain ⟨last, hrun, hlast, hlists⟩ :=
      Index.allList_performAll (hhome.grows hrewrites.grows) htable hnames hkept change.patches
    rw [Action.bind_of_ok hstep, hrun]
    refine ⟨changed.filter Text.isFilled, ⟨hagrees.stores.rewritten hlast, _, hlists,
      fun kind position hkind => ?_⟩, IsTrans.trans _ _ _ (hrewrites.mono fun _ => .inl)
        (hlast.mono fun _ => .inr)⟩
    rw [hpairs kind position hkind, Change.accounts kind hids hnext position, IndexData.filed_filter]
    intro row hrow hexact hfirst
    rcases Change.mem_of_next hnext row hrow with hold | hnew
    · exact hstores.isFilled row hold
    · exact hfilled (hkind hexact hfirst) row hnew

/-- Changes keep the indexes up to date as long as identifiers tell the rows apart. -/
theorem IsIndexed.after (h : IsIndexed disk database table names filled rows)
    (hlines : ∀ change ∈ changes, ∀ row ∈ change.step.brought, Text.IsUnbroken row)
    (hfilled : filled → ∀ change ∈ changes, ∀ row ∈ change.step.brought, Text.isFilled row = true)
    (hids : ∀ front, front <+: changes → ∀ found,
      Table.rows (Change.after database table names front disk) database table = .ok found →
        (found.map Row.id).Nodup) :
    ∃ found, IsIndexed (Change.after database table names changes disk) database table names filled
        found ∧
      Disk.Rewrites (Written home table) disk (Change.after database table names changes disk) := by
  induction changes generalizing disk rows with
  | nil => exact ⟨rows, h, refl disk⟩
  | cons change rest ih =>
    obtain ⟨hfirst, hrest⟩ := List.forall_mem_cons.1 hlines
    obtain ⟨changed, hchanged, hrewrites⟩ := h.perform hhome htable hnames hfirst
      (fun hall => (List.forall_mem_cons.1 (hfilled hall)).1) (hids [] List.nil_prefix rows h.stores.rows)
    obtain ⟨found, hfound, hlast⟩ := ih (hhome.grows hrewrites.grows) hchanged hrest
      (fun hall => (List.forall_mem_cons.1 (hfilled hall)).2)
      fun front hfront => hids (change :: front) ((List.prefix_cons_inj change).2 hfront)
    exact ⟨found, hfound, IsTrans.trans _ _ _ hrewrites hlast⟩

end Changes

theorem IsIndexed.areUpToDate (h : IsIndexed disk database table names filled rows) :
    AreUpToDate disk database table names filled rows := by
  obtain ⟨-, pairs, hall, hpairs⟩ := h
  intro kind column hcolumn
  obtain ⟨data, hload, position, hposition, htidy, hlisted⟩ := hall kind column hcolumn
  refine ⟨position, data, hposition, hload, htidy, fun hkind => ?_⟩
  rw [hlisted, hpairs kind position hkind, IndexData.listed_build]

theorem isIndexed_of_areUpToDate (hstores : Stores disk database table (some rows))
    (h : AreUpToDate disk database table names True rows) :
    IsIndexed disk database table names filled rows := by
  refine ⟨hstores, fun kind position => IndexData.filed kind position rows, fun kind column hcolumn => ?_,
    fun _ _ _ => rfl⟩
  obtain ⟨position, data, hposition, hload, htidy, hlisted⟩ := h kind column hcolumn
  exact ⟨data, hload, position, hposition, htidy,
    (hlisted fun _ _ => trivial).trans (IndexData.listed_build kind position rows)⟩

/-- Indexes that are patched after every change of a row stay as if they were built anew, whatever
sequence of insertions, removals and replacements is made, as long as identifiers tell the rows apart:
the same indexes are there, each in order, and lists what an index built of the rows would list; the
exact one on the first column does if no row that came was blank. The indexes of other tables are not
touched. -/
theorem areUpToDate_after (hhome : Database.LiesAt disk database home)
    (htable : Name.isValid table = true) (hnames : ∀ name ∈ names, Name.isValid name = true)
    (hstores : Stores disk database table (some rows))
    (hstart : AreUpToDate disk database table names True rows)
    (hlines : ∀ change ∈ changes, ∀ row ∈ change.step.brought, Text.IsUnbroken row)
    (hids : ∀ front, front <+: changes → ∀ found,
      Table.rows (Change.after database table names front disk) database table = .ok found →
        (found.map Row.id).Nodup) :
    let last := Change.after database table names changes disk
    (∃ found, Table.rows last database table = .ok found ∧
      AreUpToDate last database table names
        (∀ change ∈ changes, ∀ row ∈ change.step.brought, Text.isFilled row = true) found) ∧
    (∀ kind, Index.columns last database table kind = Index.columns disk database table kind) ∧
    ∀ home' table' column kind, Name.isValid table' = true → home' ≠ home ∨ table' ≠ table →
      last.at? (Path.indexPlace home' table' column kind)
        = disk.at? (Path.indexPlace home' table' column kind) := by
  obtain ⟨found, hfound, hrewrites⟩ :=
    (isIndexed_of_areUpToDate hstores hstart).after hhome htable hnames hlines (fun h => h) hids
  refine ⟨⟨found, hfound.stores.rows, hfound.areUpToDate⟩, Index.columns_of_rewrites hrewrites database table,
    fun home' table' column kind htable' hother => hrewrites.at?_eq ?_⟩
  rintro (hends | ⟨kind', column', hplace⟩)
  · exact not_endsIn_of_places ⟨kind, column, rfl⟩ hends
  · obtain ⟨rfl, rfl, -⟩ := Path.table_of_indexPlace htable' htable hplace
    exact hother.elim (absurd rfl) (absurd rfl)

/-! ### Tables with indexes -/

/-- A table of staff with some rows and indexes on both of its columns, and a second table with one. -/
def staff (rows : List String) : Disk :=
  ((do
    Database.create "kantor"
    ["t", "u"].forM (Table.init "kantor")
    rows.forM (Table.append "kantor" "t")
    Table.append "kantor" "u" "1|Asep"
    let _ ← Index.build "kantor" "t" "id" 0 .exact
    let _ ← Index.build "kantor" "t" "nama" 1 .exact
    let _ ← Index.build "kantor" "t" "nama" 1 .words
    let _ ← Index.build "kantor" "u" "nama" 1 .exact : Action Disk Unit) Disk.empty).2

theorem areUpToDate_staff {rows : List String} {filled : Prop} (hids : (rows.map Row.id).Nodup)
    (hexact : Index.columns (staff rows) "kantor" "t" .exact = ["id", "nama"])
    (hwords : Index.columns (staff rows) "kantor" "t" .words = ["nama"])
    (hloads : ∀ index ∈ [("id", 0, IndexKind.exact), ("nama", 1, .exact), ("nama", 1, .words)],
      Index.load (staff rows) "kantor" "t" index.1 index.2.2
        = .ok (IndexData.build index.2.2 index.2.1 rows)) :
    AreUpToDate (staff rows) "kantor" "t" ["id", "nama"] filled rows := by
  refine Index.areUpToDate_of_built hids fun kind column hcolumn => ?_
  simp only [List.forall_mem_cons] at hloads
  obtain ⟨hid, hname, hwordsOfName, -⟩ := hloads
  cases kind with
  | exact =>
    rw [hexact] at hcolumn
    simp only [List.mem_cons, List.not_mem_nil, or_false] at hcolumn
    rcases hcolumn with rfl | rfl
    · exact ⟨0, rfl, hid⟩
    · exact ⟨1, rfl, hname⟩
  | words =>
    rw [hwords] at hcolumn
    obtain rfl := List.mem_singleton.1 hcolumn
    exact ⟨1, rfl, hwordsOfName⟩

theorem areUpToDate_after_staff :
    let rows := ["1|Asep Kurnia"]
    let changes : List Change :=
      [.insert "2|Asep Jr", .replace "1" "3|Euis Kurnia", .remove "2", .remove "9"]
    let last := Change.after "kantor" "t" ["id", "nama"] changes (staff rows)
    Database.LiesAt (staff rows) "kantor" ["db_kantor"] ∧
      Stores (staff rows) "kantor" "t" (some rows) ∧
      AreUpToDate (staff rows) "kantor" "t" ["id", "nama"] True rows ∧
      (∃ found, Table.rows last "kantor" "t" = .ok found ∧
        AreUpToDate last "kantor" "t" ["id", "nama"]
          (∀ change ∈ changes, ∀ row ∈ change.step.brought, Text.isFilled row = true) found) ∧
      (∀ kind, Index.columns last "kantor" "t" kind = Index.columns (staff rows) "kantor" "t" kind) ∧
      ∀ home' table' column kind, Name.isValid table' = true → home' ≠ ["db_kantor"] ∨ table' ≠ "t" →
        last.at? (Path.indexPlace home' table' column kind)
          = (staff rows).at? (Path.indexPlace home' table' column kind) := by
  intro rows changes last
  have hhome : Database.LiesAt (staff rows) "kantor" ["db_kantor"] := by
    unfold Database.LiesAt
    decide +kernel
  have hstores : Stores (staff rows) "kantor" "t" (some rows) := by
    refine ⟨["db_kantor", "t.mg"], rows, ?_, ?_, ?_⟩ <;> decide +kernel
  have hstart : AreUpToDate (staff rows) "kantor" "t" ["id", "nama"] True rows :=
    areUpToDate_staff (by decide) (by decide +kernel) (by decide +kernel) (by decide +kernel)
  have hids : ∀ front ∈ changes.inits, ∀ found ∈
      (Table.rows (Change.after "kantor" "t" ["id", "nama"] front (staff rows)) "kantor" "t").toOption,
      (found.map Row.id).Nodup := by
    decide +kernel
  refine ⟨hhome, hstores, hstart, areUpToDate_after hhome (by decide) (by decide) hstores hstart
    (by decide) fun front hfront found hfound => ?_⟩
  exact hids front ((List.mem_inits front changes).2 hfront) found (by rw [hfound]; rfl)

/-- An index that holds what the rows do not, or lacks what they do, is not up to date. -/
theorem not_areUpToDate {disk : Disk} {database table column key id : String} {names rows : List String}
    {position : Nat} {data : IndexData}
    (hcolumn : column ∈ Index.columns disk database table .exact)
    (hposition : names.findIdx? (fun name => name == column) = some position)
    (hload : Index.load disk database table column .exact = .ok data)
    (hids : ¬(id ∈ data.idsAt key ↔ id ∈ (IndexData.build .exact position rows).idsAt key)) :
    ¬AreUpToDate disk database table names True rows := by
  intro h
  obtain ⟨position', data', hposition', hload', -, hlisted⟩ := h .exact column hcolumn
  obtain rfl := Option.some.inj (hposition.symm.trans hposition')
  obtain rfl := Except.ok.inj (hload.symm.trans hload')
  refine hids ?_
  have hsame : ((key, id) ∈ data.listed) = ((key, id) ∈ (IndexData.build .exact position rows).listed) :=
    congrArg (fun pairs => (key, id) ∈ pairs) (hlisted fun _ _ => trivial)
  exact iff_of_eq hsame

/-- Whether the indexes of the table without rows are not up to date any more once a row is inserted. -/
def Outdates (row : String) : Prop :=
  AreUpToDate (staff []) "kantor" "t" ["id", "nama"] True [] ∧
    ∃ found, Table.rows (Change.after "kantor" "t" ["id", "nama"] [.insert row] (staff []))
        "kantor" "t" = .ok found ∧
      (found.map Row.id).Nodup ∧
      ¬AreUpToDate (Change.after "kantor" "t" ["id", "nama"] [.insert row] (staff [])) "kantor" "t"
        ["id", "nama"] True found

/-- A row that the file does not give back as it was added stands in the exact indexes as it was: a blank
one, one that breaks in two, and one that ends in a return. -/
theorem not_areUpToDate_after : Outdates " " ∧ Outdates "1|a\n2|b" ∧ Outdates "1|a\r" := by
  have hstart : AreUpToDate (staff []) "kantor" "t" ["id", "nama"] True [] :=
    areUpToDate_staff (by decide) (by decide +kernel) (by decide +kernel) (by decide +kernel)
  refine ⟨⟨hstart, [], by decide +kernel, by decide, ?_⟩,
    ⟨hstart, ["1|a", "2|b"], by decide +kernel, by decide, ?_⟩,
    hstart, ["1|a"], by decide +kernel, by decide, ?_⟩
  · exact @not_areUpToDate _ _ _ "id" " " " " _ _ 0 ⟨[(" ", [" "])]⟩ (by decide +kernel) rfl
      (by decide +kernel) (by decide +kernel)
  · exact @not_areUpToDate _ _ _ "id" "2" "2" _ _ 0 ⟨[("1", ["1"])]⟩ (by decide +kernel) rfl
      (by decide +kernel) (by decide +kernel)
  · exact @not_areUpToDate _ _ _ "nama" "a" "1" _ _ 1 ⟨[("a\r", ["1"])]⟩ (by decide +kernel) rfl
      (by decide +kernel) (by decide +kernel)

end Table

end FlatFileDb
