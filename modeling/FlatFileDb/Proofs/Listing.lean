import FlatFileDb.Proofs.Width
import FlatFileDb.Proofs.Unique
import FlatFileDb.Proofs.Lockstep
import FlatFileDb.Proofs.Form
import FlatFileDb.Proofs.Permission
import Mathlib.Data.List.Nodup

/-!
# Everything in a table

A query for all columns of a table takes no short cut: it reads the rows from the file of the table,
splits each into its fields, cuts or fills it to the width of the table and projects it on the
columns by their names. Where all rows are as wide as the table and its columns have names of their
own, the answer are the fields of the rows as they stand. Where neither the file of the table nor a
view can be read there is none.
-/

namespace FlatFileDb

namespace Aggregate

/-- A text without a parenthesis calls no aggregate. -/
theorem ofField?_of_not_mem {name : String} (h : '(' ∉ name.toList) : ofField? name = .ok none := by
  have hnone : parts? name.toList = none := by
    have hno : name.toList.dropWhile (fun c => c != '(') = [] := by
      rw [List.dropWhile_eq_nil_iff]
      intro c hc
      rw [bne_iff_ne]
      rintro rfl
      exact h hc
    rw [parts?, hno]
  rw [ofField?, hnone]

end Aggregate

namespace Relation

variable {relation : Relation} {schema : TableSchema} {rows : List String}

/-- A name that is in the header once is found where it stands. -/
theorem require_of_nodup (h : relation.header.Nodup) {position : Nat} {name : String}
    (hname : relation.header[position]? = some name) : relation.require name = .ok position := by
  obtain ⟨hposition, hthere⟩ := List.getElem?_eq_some_iff.1 hname
  have hfound : (relation.attributes.findIdx? fun a => a.name == name) = some position := by
    rw [List.findIdx?_eq_some_iff_getElem]
    refine ⟨by simpa [header] using hposition, by simpa [header] using hthere, fun j hj => ?_⟩
    intro hsame
    have hearlier : relation.header[j]? = some name := by
      rw [List.getElem?_eq_getElem (by omega)]
      simpa [header] using hsame
    exact absurd ((List.getElem?_inj (by omega) h).1 (hearlier.trans hname.symm)) (by omega)
  rw [require, resolve?, hfound]
  rfl

/-- All columns of rows under distinct plain names are the rows as they are. -/
theorem answer_of_nodup (hwide : relation.IsWide) (hnodup : relation.header.Nodup)
    (hplain : ∀ name ∈ relation.header, Aggregate.ofField? name = .ok none) (table : String) :
    relation.answer (.all table) = .ok (.ofRows relation.header relation.rows) := by
  have hindex : ∀ name ∈ relation.header,
      relation.require name = .ok (relation.header.idxOf name) := fun name hname =>
    require_of_nodup hnodup (List.getElem?_idxOf hname)
  have hproject := @project_all relation relation.header table _ rfl hplain hindex
  have hrows : (relation.rows.map fun row =>
      (relation.header.map relation.header.idxOf).map (fieldAt row)) = relation.rows := by
    refine (List.map_congr_left fun row hrow => ?_).trans (List.map_id _)
    have hlength : row.length = relation.header.length := by rw [hwide row hrow, header, List.length_map]
    rw [id_eq]
    refine List.ext_getElem (by simp [hlength]) fun i _ hi => ?_
    rw [List.getElem_map, List.getElem_map, hnodup.idxOf_getElem i (by omega), fieldAt,
      List.getElem?_eq_getElem hi]
    rfl
  rw [hrows] at hproject
  exact answer_all hproject

/-- Everything in a table are the fields of its rows, where all rows are as wide as the table. -/
theorem answer_ofTable (h : schema.IsSound)
    (hwidth : ∀ row ∈ rows, (Row.fields row).length = schema.columns.length) (table : String) :
    (ofTable schema rows).answer (.all table)
      = .ok (.ofRows schema.fieldNames (rows.map Row.fields)) := by
  have hheader : (ofTable schema rows).header = schema.fieldNames := by
    rw [header, ofTable, List.map_map]
    rfl
  have hrows : (ofTable schema rows).rows = rows.map Row.fields :=
    List.map_congr_left fun row hrow => Row.resize_of_length (hwidth row hrow)
  rw [answer_of_nodup (isWide_ofTable schema rows) (hheader ▸ h.distinct) _ table, hheader, hrows]
  intro name hname
  rw [hheader] at hname
  obtain ⟨column, hcolumn, rfl⟩ := List.mem_map.1 hname
  exact Aggregate.ofField?_of_not_mem (Name.not_mem (h.valid column hcolumn) (by decide))

end Relation

namespace Disk

/-- No view is stored. -/
def IsViewless (disk : Disk) : Prop :=
  ∀ place text, Path.EndsIn ".view" place → disk.at? place ≠ some (.file text)

theorem isViewless_empty : IsViewless empty :=
  fun _ _ _ => by simp

theorem IsViewless.grows {made written : Path → Prop} {disk disk' : Disk} (h : disk.IsViewless)
    (hgrows : Grows made written disk disk')
    (hwritten : ∀ place, written place → ¬Path.EndsIn ".view" place) : disk'.IsViewless :=
  fun place text hends hfile =>
    h place text hends ((hgrows.unwritten fun hno => hwritten place hno hends).1 hfile)

theorem IsViewless.isPresent {disk : Disk} (h : disk.IsViewless) (database name : String) :
    View.isPresent disk database name = false := by
  unfold View.isPresent hasFile entryAt
  cases hlocate : disk.locate (Path.view database name) with
  | error failure => rfl
  | ok found =>
    obtain ⟨place, _ | text⟩ := found
    · obtain ⟨-, -, -, -, -, -, hthere, -⟩ := Disk.locate_file hlocate
      have hends : Path.EndsIn ".view" place :=
        Path.endsIn_of_locate hlocate (Path.endsIn_below _ name (by decide))
      exact absurd hthere (h place _ hends)
    · rfl

end Disk

namespace Engine

variable {who : Identity} {database table : String} {schema : TableSchema} {rows : List String}
  {e : Engine}

theorem hasSchema_of_readSchema {disk : Disk} (h : readSchema disk database table = .ok schema) :
    hasSchema disk database table = true := by
  obtain ⟨text, htext, -⟩ := Action.of_bind_eq_ok h
  obtain ⟨place, hplace⟩ := Disk.textAt_eq_ok.1 (Disk.textOr_eq_ok.1 htext)
  rw [hasSchema, Disk.hasEntry, Disk.entryAt, hplace]
  rfl

/-- What the statement that asks for everything in a table answers. -/
theorem run_all (htable : Name.isValid table = true)
    (hdatabase : who.requireDatabase = .ok database) :
    (run (some who) ("SELECT * FROM " ++ table) e).1
      = (source (executeWithin e.settings.nestingLimit) who database (Query.all table).table none e).1
          >>= fun first => first.answer (.all table) := by
  rw [run_of_parse (Statement.parse_all htable), perform_select, hdatabase, Action.ofExcept_bind]
  exact @select_result database e who (.all table) _ (observes_executeWithin _) rfl none

/-- The rows of a table that may be read, but for those that narrowing leaves out. -/
theorem source_of_rows (h : e.IsSound) (htable : Name.isValid table = true)
    (hschema : readSchema e.disk database table = .ok schema)
    (hrole : who.role ∈ schema.permissions.read)
    (hrows : Table.rows e.disk database table = .ok rows) (executing : Executing)
    (condition : Option Condition) :
    (source executing who database table condition e).1
      = .ok (Relation.ofTable schema (narrow e.disk database schema condition rows)) := by
  have hrequire : schema.require who.role .read = .ok () := if_pos (List.contains_iff_mem.2 hrole)
  have hsource := @source_result database e who (.all table) executing condition
    (hasSchema_of_readSchema hschema)
  refine (congrArg Prod.fst hsource).trans ((tableSource_result who database table condition e).trans ?_)
  rw [h.knownSchema_of_readSchema htable hschema]
  change (do
    schema.require who.role .read
    let rows ← Table.rows e.disk database table
    return Relation.ofTable schema (narrow e.disk database schema condition rows)) = _
  rw [hrequire, hrows]
  rfl

/-- The fields of all rows are answered, in their order. -/
theorem selectAll_table (h : e.IsSound) (htable : Name.isValid table = true)
    (hdatabase : who.requireDatabase = .ok database)
    (hschema : readSchema e.disk database table = .ok schema)
    (hrole : who.role ∈ schema.permissions.read)
    (hrows : Table.rows e.disk database table = .ok rows)
    (hwidth : ∀ row ∈ rows, (Row.fields row).length = schema.columns.length) :
    (run (some who) ("SELECT * FROM " ++ table) e).1
      = .ok (.ofRows schema.fieldNames (rows.map Row.fields)) := by
  have hknown := h.knownSchema_of_readSchema htable hschema
  rw [run_all htable hdatabase]
  change (source _ who database table none e).1 >>= _ = _
  rw [source_of_rows h htable hschema hrole hrows]
  exact Relation.answer_ofTable (h.knownSchema htable hknown).2.1 hwidth table

/-- Where a table has no file and no view is stored, there is nothing to show. -/
theorem selectAll_nothing (htable : Name.isValid table = true)
    (hdatabase : who.requireDatabase = .ok database) (hview : e.disk.IsViewless) {failure : Error}
    (hrows : Table.rows e.disk database table = .error failure) :
    ∃ failure, (run (some who) ("SELECT * FROM " ++ table) e).1 = .error failure := by
  have hsource : ∃ failure, (source (executeWithin e.settings.nestingLimit) who database
      (Query.all table).table none e).1 = .error failure := by
    cases hthere : hasSchema e.disk database (Query.all table).table with
    | false =>
      unfold source
      rw [look_bind, hthere, if_neg (by simp), look_bind]
      have hnone : View.isPresent e.disk database (Query.all table).table = false :=
        hview.isPresent database table
      rw [hnone]
      exact ⟨_, rfl⟩
    | true =>
      rw [source_result hthere, tableSource_result]
      have hrows' : Table.rows e.disk database (Query.all table).table = .error failure := hrows
      rw [hrows']
      cases e.knownSchema database (Query.all table).table with
      | error failure => exact ⟨_, rfl⟩
      | ok schema => cases hrole : schema.require who.role .read with
        | error failure => exact ⟨failure, by dsimp only [bind, Except.bind]; rw [hrole]⟩
        | ok _ => exact ⟨failure, by dsimp only [bind, Except.bind]; rw [hrole]⟩
  obtain ⟨failure, hsource⟩ := hsource
  rw [run_all htable hdatabase, hsource]
  exact ⟨failure, rfl⟩

end Engine
end FlatFileDb
