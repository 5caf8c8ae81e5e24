import FlatFileDb.Proofs.Application

/-!
# A table file is a list of rows

The operations of the row store are put beside operations on a list: one that is emptied, gets a row
at its end, is replaced, or has its first row of an identifier replaced or removed. `Stores` ties the
file to the list. Blank lines may pile up in the file, since a row is added without a look at it, and
go at the next change that writes the file anew; the list never holds them. Every operation keeps the
two tied, so after any sequence of them the rows that are read are the list.
-/

namespace FlatFileDb

variable {disk : Disk} {database table : String} {place : Path}

/-! ### Presence of databases -/

namespace Disk

/-- No way to a directory leads through a file, so none is changed by writing one. -/
theorem locate_directory_put (hfree : disk.at? place ≠ some .directory) (text : String)
    {path home : Path} :
    (disk.put place (.file text)).locate path = .ok (home, .directory)
      ↔ disk.locate path = .ok (home, .directory) := by
  have hsame (other : Path) : (disk.put place (.file text)).at? other = some .directory
      ↔ disk.at? other = some .directory := by
    rw [at?_put]
    by_cases h : other = place <;> simp [h, hfree]
  constructor <;> intro h <;> obtain ⟨hsound, hfollow⟩ := locate_eq_ok h <;>
    rw [locate, if_pos hsound]
  · exact follow_of_directories (fun other => (hsame other).1) hfollow
  · exact follow_of_directories (fun other => (hsame other).2) hfollow

theorem locate_of_textAt_missing {path : Path} (h : disk.textAt path = .error .missing) :
    disk.locate path = .error .missing := by
  unfold textAt entryAt at h
  cases hlocate : disk.locate path with
  | error failure =>
    rw [hlocate] at h
    simpa [Except.map] using h
  | ok found =>
    obtain ⟨place, entry⟩ := found
    rw [hlocate] at h
    cases entry <;> exact nomatch h

/-- Where a name is missing in a directory, it is one that the directory could hold. -/
theorem at?_of_locate_missing {before home : Path} {name : String}
    (hhome : disk.locate before = .ok (home, .directory)) (hname : Path.IsPlain name)
    (h : disk.locate (before ++ [name]) = .error .missing) :
    (before ++ [name]).isSound = true ∧ Path.fits name = true ∧ disk.at? (home ++ [name]) = none := by
  cases hsound : (before ++ [name]).isSound with
  | false =>
    rw [locate, hsound] at h
    cases h
  | true =>
    have hfollow := h
    rw [locate, if_pos hsound, follow_append before [] (List.cons_ne_nil _ _),
      (locate_eq_ok hhome).2] at hfollow
    change disk.follow home [name] = _ at hfollow
    cases hfits : Path.fits name with
    | false =>
      rw [follow_plain hname, if_neg (by simp [hfits])] at hfollow
      cases hfollow
    | true =>
      rw [follow_name hname hfits] at hfollow
      refine ⟨rfl, rfl, ?_⟩
      cases hentry : disk.at? (home ++ [name]) with
      | none => rfl
      | some entry =>
        rw [hentry] at hfollow
        cases hfollow

end Disk

namespace Database

theorem require_eq_ok_iff : require disk database = .ok () ↔ ∃ home, LiesAt disk database home :=
  ⟨liesAt_of_require, fun ⟨_, h⟩ => h.require⟩

theorem require_put (hfree : disk.at? place ≠ some .directory) (text database : String) :
    require (disk.put place (.file text)) database = require disk database := by
  have hiff : require (disk.put place (.file text)) database = .ok () ↔
      require disk database = .ok () := by
    rw [require_eq_ok_iff, require_eq_ok_iff]
    exact exists_congr fun home => Disk.locate_directory_put hfree text
  unfold require at hiff ⊢
  split <;> split <;> simp_all

end Database

namespace Table

/-! ### The operations on the file and on a list -/

/-- One operation on the rows of a table. -/
inductive Step where
  | init
  | append (row : String)
  | replaceAll (rows : List String)
  | replaceRow (id row : String)
  | removeRow (id : String)
  deriving DecidableEq, Repr

/-- Whether the file of a table can be made: the database must be there, and the directory that the
name of the table leads to. -/
def mayInit (disk : Disk) (database table : String) : Except Error Unit := do
  Database.require disk database
  if (disk.filePlace? (Path.table database table)).isSome then .ok () else .error .fileFailure

/-- Where the first row of an identifier stands. -/
def positionOf (table id : String) (rows : List String) : Except Error Nat :=
  match rows.findIdx? fun row => Row.id row == id with
  | some position => .ok position
  | none => .error (.unknownRow table id)

namespace Step

/-- The rows that an operation brings along. -/
def brought : Step → List String
  | init | removeRow _ => []
  | append row | replaceRow _ row => [row]
  | replaceAll rows => rows

/-- An operation on the file of a table. -/
def perform (database table : String) : Step → Action Disk Unit
  | init => Table.init database table
  | append row => Table.append database table row
  | replaceAll rows => Table.replaceAll database table rows
  | replaceRow id row => Table.replaceRow database table id row
  | removeRow id => Table.removeRow database table id

/-- What an operation makes of a list of rows. -/
def next (table : String) : Step → List String → Except Error (List String)
  | init, _ => .ok []
  | append row, rows => .ok (rows ++ [row])
  | replaceAll rows, _ => .ok rows
  | replaceRow id row, rows => (positionOf table id rows).map fun position => rows.set position row
  | removeRow id, rows => (positionOf table id rows).map fun position => rows.eraseIdx position

/-- An operation on the list of rows, or on nothing as long as the table has no file. A blank row is
no row. -/
def onList (table : String) (initial : Except Error Unit) :
    Step → Action (Option (List String)) Unit
  | init => fun list =>
    match initial with
    | .ok () => (.ok (), some [])
    | .error e => (.error e, list)
  | step => fun list =>
    match list with
    | none => (.error (.tableFileMissing table), none)
    | some rows =>
      match step.next table rows with
      | .ok after => (.ok (), some (after.filter Text.isFilled))
      | .error e => (.error e, some rows)

theorem onList_none (initial : Except Error Unit) {step : Step} (h : step ≠ init) :
    step.onList table initial none = (.error (.tableFileMissing table), none) := by
  cases step with
  | init => exact absurd rfl h
  | append | replaceAll | replaceRow | removeRow => rfl

theorem onList_some (initial : Except Error Unit) {step : Step} (h : step ≠ init)
    (rows : List String) :
    step.onList table initial (some rows)
      = match step.next table rows with
        | .ok after => (.ok (), some (after.filter Text.isFilled))
        | .error e => (.error e, some rows) := by
  cases step with
  | init => exact absurd rfl h
  | append | replaceAll | replaceRow | removeRow => rfl

end Step

/-- The rows that are read of a table that is the given list, or has no file. -/
def answer (table : String) : Option (List String) → Except Error (List String)
  | some rows => .ok rows
  | none => .error (.tableFileMissing table)

/-- Whether the file of a table holds a list of rows, with blank lines between them at most, or is
not there. -/
def Stores (disk : Disk) (database table : String) : Option (List String) → Prop
  | none => disk.textAt (Path.table database table) = .error .missing
  | some rows => ∃ place lines,
      disk.locate (Path.table database table) = .ok (place, .file (Text.ofLines lines)) ∧
        (∀ line ∈ lines, Text.IsUnbroken line) ∧ rows = lines.filter Text.isFilled

theorem Stores.rows {list : Option (List String)} (h : Stores disk database table list) :
    Table.rows disk database table = answer table list := by
  cases list with
  | none =>
    unfold Table.rows
    rw [Disk.textOr, h]
    rfl
  | some rows =>
    obtain ⟨place, lines, hlocate, hlines, rfl⟩ := h
    rw [rows_of_locate hlocate, Text.filledLines_ofLines hlines]
    rfl

/-! ### One operation -/

/-- Whether an operation on the file came to the same as one on the list, and left the two tied. -/
structure Agrees (disk : Disk) (database table : String) (onDisk : Except Error Unit × Disk)
    (onList : Except Error Unit × Option (List String)) : Prop where
  result : onDisk.1 = onList.1
  stores : Stores onDisk.2 database table onList.2
  mayInit : mayInit onDisk.2 database table = mayInit disk database table

theorem Stores.agrees_error {list : Option (List String)} (h : Stores disk database table list)
    (e : Error) : Agrees disk database table (.error e, disk) (.error e, list) :=
  ⟨rfl, h, rfl⟩

/-- Writing lines makes the list of those that are not blank. -/
theorem agrees_put (hplace : disk.filePlace? (Path.table database table) = some place)
    {lines : List String} (hlines : ∀ line ∈ lines, Text.IsUnbroken line) :
    Agrees disk database table (.ok (), disk.put place (.file (Text.ofLines lines)))
      (.ok (), some (lines.filter Text.isFilled)) := by
  have hlocate := Disk.locate_put hplace (Text.ofLines lines)
  obtain ⟨-, -, -, -, -, -, -, -, -, hfree⟩ := Disk.filePlace?_eq_some hplace
  refine ⟨rfl, ⟨place, lines, hlocate, hlines, rfl⟩, ?_⟩
  rw [Table.mayInit, Table.mayInit, Database.require_put hfree, Disk.filePlace?_of_file hlocate,
    hplace]

theorem agrees_init {list : Option (List String)} (h : Stores disk database table list) :
    Agrees disk database table (init database table disk)
      (Step.init.onList table (mayInit disk database table) list) := by
  unfold init
  rw [Action.read_bind]
  unfold Step.onList
  cases hrequire : Database.require disk database with
  | error e =>
    have hmay : mayInit disk database table = .error e := by rw [mayInit, hrequire]; rfl
    rw [hmay]
    exact h.agrees_error e
  | ok =>
    unfold Disk.writeFile
    cases hplace : disk.filePlace? (Path.table database table) with
    | none =>
      have hmay : mayInit disk database table = .error .fileFailure := by
        rw [mayInit, hrequire, hplace]
        rfl
      rw [hmay]
      exact h.agrees_error .fileFailure
    | some place =>
      have hmay : mayInit disk database table = .ok () := by
        rw [mayInit, hrequire, hplace]
        rfl
      rw [hmay]
      have hnone : ∀ line ∈ ([] : List String), Text.IsUnbroken line := by simp
      exact agrees_put hplace hnone

/-- The first row of an identifier is changed where it stands. -/
theorem changeFirst?_eq_map (id : String) (f : String → List String) (rows : List String) :
    changeFirst? id f rows
      = (rows.findIdx? fun row => Row.id row == id).map fun position =>
          rows.take position ++ rows[position]?.elim [] f ++ rows.drop (position + 1) := by
  induction rows with
  | nil => rfl
  | cons row rest ih =>
    rw [changeFirst?, List.findIdx?_cons, ih]
    split
    · simp
    · rw [Option.map_map, Option.map_map]
      rfl

private theorem getElem?_of_findIdx? {p : String → Bool} {rows : List String} {position : Nat}
    (h : rows.findIdx? p = some position) : ∃ row, rows[position]? = some row := by
  obtain ⟨hlength, -⟩ := List.findIdx?_eq_some_iff_getElem.1 h
  exact ⟨_, List.getElem?_eq_getElem hlength⟩

theorem changeFirst?_replace (id row : String) (rows : List String) :
    changeFirst? id (fun _ => [row]) rows
      = (rows.findIdx? fun other => Row.id other == id).map fun position =>
          rows.set position row := by
  rw [changeFirst?_eq_map]
  refine Option.map_congr fun position hposition => ?_
  obtain ⟨found, hfound⟩ := getElem?_of_findIdx? hposition
  rw [hfound, List.set_eq_take_append_cons_drop, if_pos (List.getElem?_eq_some_iff.1 hfound).1]
  simp

theorem changeFirst?_remove (id : String) (rows : List String) :
    changeFirst? id (fun _ => []) rows
      = (rows.findIdx? fun other => Row.id other == id).map fun position =>
          rows.eraseIdx position := by
  rw [changeFirst?_eq_map]
  refine Option.map_congr fun position hposition => ?_
  obtain ⟨found, hfound⟩ := getElem?_of_findIdx? hposition
  rw [hfound, List.eraseIdx_eq_take_drop_succ]
  simp

/-- Where the table has no file, nothing is done. -/
theorem Stores.perform_of_none (h : Stores disk database table none) {step : Step}
    (hstep : step ≠ .init) :
    step.perform database table disk = (.error (.tableFileMissing table), disk) := by
  have hmodify {α : Type} (f : List String → Except Error (List String × α)) :
      modify database table f disk = (.error (.tableFileMissing table), disk) := by
    rw [modify, Action.read_bind, h.rows]
    rfl
  cases step with
  | init => exact absurd rfl hstep
  | append row =>
    rw [Step.perform, append, Disk.appendFile, Action.read_bind, Disk.textOr, h]
  | replaceAll rows => exact hmodify _
  | replaceRow id row => exact hmodify _
  | removeRow id => exact hmodify _

/-- What replacing and removing a row make of a list. -/
theorem Step.next_replaceRow (id row : String) (rows : List String) :
    (Step.replaceRow id row).next table rows
      = match changeFirst? id (fun _ => [row]) rows with
        | some after => .ok after
        | none => .error (.unknownRow table id) := by
  rw [changeFirst?_replace, next, positionOf]
  cases rows.findIdx? fun other => Row.id other == id <;> rfl

theorem Step.next_removeRow (id : String) (rows : List String) :
    (Step.removeRow id).next table rows
      = match changeFirst? id (fun _ => []) rows with
        | some after => .ok after
        | none => .error (.unknownRow table id) := by
  rw [changeFirst?_remove, next, positionOf]
  cases rows.findIdx? fun other => Row.id other == id <;> rfl

/-- A change of the first row of an identifier comes to what is made of the list. -/
theorem agrees_changeRow {lines : List String}
    (hlocate : disk.locate (Path.table database table) = .ok (place, .file (Text.ofLines lines)))
    (hlines : ∀ line ∈ lines, Text.IsUnbroken line) {step : Step} (hstep : step ≠ .init)
    {id : String} {f : String → List String} (hf : ∀ row, ∀ line ∈ f row, Text.IsUnbroken line)
    (hnext : step.next table (lines.filter Text.isFilled)
      = match changeFirst? id f (lines.filter Text.isFilled) with
        | some after => .ok after
        | none => .error (.unknownRow table id)) :
    Agrees disk database table (changeRow database table id f disk)
      (step.onList table (mayInit disk database table) (some (lines.filter Text.isFilled))) := by
  rw [changeRow_of_locate hlocate, Text.filledLines_ofLines hlines, Step.onList_some _ hstep, hnext]
  have hstores : Stores disk database table (some (lines.filter Text.isFilled)) :=
    ⟨place, lines, hlocate, hlines, rfl⟩
  cases hchange : changeFirst? id f (lines.filter Text.isFilled) with
  | none => exact hstores.agrees_error _
  | some after =>
    refine agrees_put (Disk.filePlace?_of_file hlocate) (forall_of_changeFirst? hchange ?_ hf)
    exact fun row hrow => hlines row (List.mem_of_mem_filter hrow)

/-- What an operation does to the file it does to the list. -/
theorem Stores.agrees {list : Option (List String)} (h : Stores disk database table list)
    {step : Step} (hstep : ∀ row ∈ step.brought, Text.IsUnbroken row) :
    Agrees disk database table (step.perform database table disk)
      (step.onList table (Table.mayInit disk database table) list) := by
  by_cases hinit : step = .init
  · subst hinit
    exact agrees_init h
  cases list with
  | none =>
    rw [h.perform_of_none hinit, Step.onList_none _ hinit]
    exact h.agrees_error _
  | some rows =>
    obtain ⟨place, lines, hlocate, hlines, rfl⟩ := h
    have hplace := Disk.filePlace?_of_file hlocate
    cases step with
    | init => exact absurd rfl hinit
    | append row =>
      have hput : Text.ofLines lines ++ (row ++ "\n") = Text.ofLines (lines ++ [row]) := by
        simp [Text.ofLines]
      have hlist : (lines.filter Text.isFilled ++ [row]).filter Text.isFilled
          = (lines ++ [row]).filter Text.isFilled := by simp
      rw [Step.perform, append_of_locate hlocate, Step.onList_some _ hinit, Step.next, hput]
      dsimp only
      rw [hlist]
      exact agrees_put hplace (List.forall_mem_append.2 ⟨hlines, hstep⟩)
    | replaceAll rows =>
      rw [Step.perform, replaceAll, modify_of_locate hlocate]
      exact agrees_put hplace hstep
    | replaceRow id row =>
      exact agrees_changeRow hlocate hlines hinit (fun _ => hstep) (Step.next_replaceRow id row _)
    | removeRow id =>
      exact agrees_changeRow hlocate hlines hinit (by simp) (Step.next_removeRow id _)

/-- A table with a valid name can be made wherever there is its database. -/
theorem Stores.mayInit_of_isValid {list : Option (List String)}
    (h : Stores disk database table list) (hname : Name.isValid table = true) :
    Table.mayInit disk database table = Database.require disk database := by
  rw [Table.mayInit]
  cases hrequire : Database.require disk database with
  | error e => rfl
  | ok =>
    suffices hplace : (disk.filePlace? (Path.table database table)).isSome = true by
      rw [hplace]
      rfl
    cases list with
    | some rows =>
      obtain ⟨place, lines, hlocate, -, -⟩ := h
      rw [Disk.filePlace?_of_file hlocate]
      rfl
    | none =>
      obtain ⟨home, hhome⟩ := Database.liesAt_of_require hrequire
      have hplain : Path.IsPlain (table ++ ".mg") := Path.isPlain_append_of_length (by decide)
      have hmissing := Disk.locate_of_textAt_missing h
      rw [Path.table_of_isValid database hname] at hmissing ⊢
      obtain ⟨hsound, hfits, hnone⟩ := Disk.at?_of_locate_missing hhome hplain hmissing
      rw [Disk.filePlace?_append hsound hplain hfits hhome (by rw [hnone]; simp)]
      rfl

/-! ### Sequences of operations -/

/-- The state after some steps, each of them taken whatever came of those before it. -/
def Step.after {σ : Type} (act : Step → Action σ Unit) (steps : List Step) (s : σ) : σ :=
  steps.foldl (fun s step => (act step s).2) s

/-- The file and the list stay tied along a sequence of operations. -/
theorem Stores.after {list : Option (List String)} (h : Stores disk database table list)
    {steps : List Step} (hsteps : ∀ step ∈ steps, ∀ row ∈ step.brought, Text.IsUnbroken row) :
    let initial := Table.mayInit disk database table
    Stores (Step.after (Step.perform database table) steps disk) database table
        (Step.after (Step.onList table initial) steps list) ∧
      Table.mayInit (Step.after (Step.perform database table) steps disk) database table = initial := by
  induction steps generalizing disk list with
  | nil => exact ⟨h, rfl⟩
  | cons step rest ih =>
    have hagrees := h.agrees (hsteps step (by simp))
    have hrest := ih hagrees.stores fun other hother => hsteps other (by simp [hother])
    rw [hagrees.mayInit] at hrest
    exact hrest

/-- What is asked of a disk on which a table is a list of rows, or has no file. -/
structure IsList (disk : Disk) (database table : String) (list : Option (List String)) : Prop where
  /-- Reading gives the list. -/
  rows : Table.rows disk database table = answer table list
  /-- Every operation comes to the same on the file as on the list. -/
  result : ∀ step : Step, (∀ row ∈ step.brought, Text.IsUnbroken row) →
    (step.perform database table disk).1
      = (step.onList table (mayInit disk database table) list).1
  /-- An operation that fails leaves everything as it is. -/
  unchanged : ∀ (step : Step) (e : Error) (disk' : Disk),
    step.perform database table disk = (.error e, disk') → disk' = disk
  /-- A row is not found exactly if none has its identifier. -/
  replaceRow : ∀ rows, list = some rows → ∀ id row, Text.IsUnbroken row →
    ((Table.replaceRow database table id row disk).1 = .error (.unknownRow table id)
      ↔ ∀ other ∈ rows, Row.id other ≠ id)
  removeRow : ∀ rows, list = some rows → ∀ id,
    ((Table.removeRow database table id disk).1 = .error (.unknownRow table id)
      ↔ ∀ other ∈ rows, Row.id other ≠ id)
  /-- Without a file, nothing can be done but to make one. -/
  missing : list = none → ∀ step : Step, step ≠ .init →
    step.perform database table disk = (.error (.tableFileMissing table), disk)

/-- An operation that fails leaves everything as it is, whatever lies on the disk. -/
theorem Step.perform_error {step : Step} {e : Error} {disk' : Disk}
    (h : step.perform database table disk = (.error e, disk')) : disk' = disk := by
  cases step with
  | init =>
    rcases Action.bind_cases h with ⟨failure, hrequire, -⟩ | ⟨⟨⟩, disk₁, hrequire, hwrite⟩
    · exact (Prod.mk.inj hrequire).2.symm
    · exact (Engine.writeFile_error hwrite).trans (Prod.mk.inj hrequire).2.symm
  | append row => exact Engine.appendFile_error h
  | replaceAll | replaceRow | removeRow =>
    rcases Engine.modify_cases h with ⟨-, hdisk⟩ | ⟨rows, after, a, -, -, hresult, -⟩
    · exact hdisk
    · exact nomatch hresult

theorem Stores.unknownRow_iff {rows : List String} (h : Stores disk database table (some rows))
    {step : Step} (hinit : step ≠ .init) (hstep : ∀ row ∈ step.brought, Text.IsUnbroken row)
    {id : String} {f : String → List String}
    (hnext : step.next table rows
      = match changeFirst? id f rows with
        | some after => .ok after
        | none => .error (.unknownRow table id)) :
    (step.perform database table disk).1 = .error (.unknownRow table id)
      ↔ ∀ row ∈ rows, Row.id row ≠ id := by
  rw [(h.agrees hstep).result, Step.onList_some _ hinit, hnext, ← changeFirst?_eq_none (f := f)]
  cases changeFirst? id f rows <;> simp

theorem Stores.isList {list : Option (List String)} (h : Stores disk database table list) :
    IsList disk database table list where
  rows := h.rows
  result _ hstep := (h.agrees hstep).result
  unchanged _ _ _ hfail := Step.perform_error hfail
  replaceRow rows hlist id row hrow := by
    subst hlist
    have hinit : Step.replaceRow id row ≠ .init := by simp
    exact h.unknownRow_iff hinit (by simpa [Step.brought] using hrow)
      (Step.next_replaceRow id row rows)
  removeRow rows hlist id := by
    subst hlist
    have hinit : Step.removeRow id ≠ .init := by simp
    exact h.unknownRow_iff hinit (by simp [Step.brought]) (Step.next_removeRow id rows)
  missing hlist _ hinit := by
    subst hlist
    exact h.perform_of_none hinit

/-- A table file refines a list of rows. Whatever sequence of operations is done to a table that is
tied to a list, or to a table without a file, the table is the list that the same operations make. -/
theorem isList_after {list : Option (List String)} (h : Stores disk database table list)
    {steps : List Step} (hsteps : ∀ step ∈ steps, ∀ row ∈ step.brought, Text.IsUnbroken row) :
    IsList (Step.after (Step.perform database table) steps disk) database table
      (Step.after (Step.onList table (mayInit disk database table)) steps list) :=
  (h.after hsteps).1.isList

/-- A table without a file at first, and among the rows a blank one and two of one identifier. -/
theorem isList_after_kantor :
    let disk := (Database.create "kantor" Disk.empty).2
    let steps : List Step := [.append "0|a", .init, .append "1|a", .append " ", .append "2|b",
      .append "1|c", .replaceRow "1" "1|z", .removeRow "2", .removeRow "9"]
    let list := Step.after (Step.onList "t" (mayInit disk "kantor" "t")) steps none
    Stores disk "kantor" "t" none ∧
      (∀ step ∈ steps, ∀ row ∈ step.brought, Text.IsUnbroken row) ∧
      IsList (Step.after (Step.perform "kantor" "t") steps disk) "kantor" "t" list ∧
      list = some ["1|z", "1|c"] := by
  intro disk steps list
  have hstores : Stores disk "kantor" "t" none := by
    unfold Stores
    decide +kernel
  have hsteps : ∀ step ∈ steps, ∀ row ∈ step.brought, Text.IsUnbroken row := by decide
  exact ⟨hstores, hsteps, isList_after hstores hsteps, by decide +kernel⟩

end Table

end FlatFileDb
