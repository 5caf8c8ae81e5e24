import FlatFileDb.Engine.State
import FlatFileDb.Proofs.Disk

/-!
# Where the files of a database lie

Each kind of file has an ending of its own, and no way through the directories changes the ending of
what it leads to. So what one operation writes is told from what another one reads by the endings
alone, whatever text a session selected as its database. Tables with valid names lie in the very
directory that the database leads to, their schemas in a directory below it.
-/

namespace FlatFileDb

namespace Path

/-! ### Endings -/

/-- Whether the last part of a path has the given ending. -/
def EndsIn (ending : String) (path : Path) : Prop :=
  ∃ part, path.getLast? = some part ∧ ending.toList <:+ part.toList

theorem EndsIn.congr {ending : String} {path other : Path} (h : EndsIn ending path)
    (hlast : other.getLast? = path.getLast?) : EndsIn ending other := by
  obtain ⟨part, hpart, hsuffix⟩ := h
  exact ⟨part, hlast.trans hpart, hsuffix⟩

theorem endsIn_append (home : Path) {stem ending : String} :
    EndsIn ending (home ++ [stem ++ ending]) :=
  ⟨stem ++ ending, by simp, by rw [String.toList_append]; exact List.suffix_append _ _⟩

/-- Of two endings of a path one ends in the other. -/
theorem EndsIn.comparable {first second : String} {path : Path} (h : EndsIn first path)
    (h' : EndsIn second path) :
    first.toList <:+ second.toList ∨ second.toList <:+ first.toList := by
  obtain ⟨part, hpart, hfirst⟩ := h
  obtain ⟨other, hother, hsecond⟩ := h'
  rw [hpart, Option.some.injEq] at hother
  subst hother
  exact List.suffix_or_suffix_of_suffix hfirst hsecond

private theorem splitOn_append {a : Char} (s : List Char) {ending : List Char} (h : a ∉ ending) :
    ∃ before piece, (s ++ ending).splitOn a = before ++ [piece ++ ending] := by
  induction s with
  | nil => exact ⟨[], [], by rw [List.nil_append, List.splitOn_eq_singleton h]; rfl⟩
  | cons c s ih =>
    obtain ⟨before, piece, hsplit⟩ := ih
    rw [List.cons_append, List.splitOn_cons_eq_if_modifyHead, hsplit]
    split
    · exact ⟨[] :: before, piece, rfl⟩
    · cases before with
      | nil => exact ⟨[], c :: piece, rfl⟩
      | cons first rest => exact ⟨(c :: first) :: rest, piece, rfl⟩

theorem endsIn_below (path : Path) (stem : String) {ending : String} (h : '/' ∉ ending.toList) :
    EndsIn ending (below path (stem ++ ending)) := by
  obtain ⟨before, piece, hsplit⟩ := splitOn_append stem.toList h
  have hlast : (ofName (stem ++ ending)).getLast? = some (String.ofList (piece ++ ending.toList)) := by
    rw [ofName, String.toList_append, hsplit]
    simp
  have hsuffix : ending.toList <:+ (String.ofList (piece ++ ending.toList)).toList := by
    rw [String.toList_ofList]
    exact List.suffix_append _ _
  refine ⟨_, ?_, hsuffix⟩
  unfold below
  split
  · rw [List.getLast?_cons, hlast]
    rfl
  · rw [List.getLast?_append, hlast]
    rfl

/-! ### Names without a slash -/

theorem below_of_not_mem (path : Path) {name : String} (h : '/' ∉ name.toList) :
    below path name = path ++ [name] := by
  have hhead : ¬(name.toList.head? == some '/') = true := by
    intro hhead
    exact h (List.mem_of_mem_head? (by simpa using hhead))
  rw [below, if_neg hhead, ofName, List.splitOn_eq_singleton h]
  simp

/-- A file lies at a place with the ending of its path. -/
theorem endsIn_of_locate {disk : Disk} {path place : Path} {text ending : String}
    (hlocate : disk.locate path = .ok (place, .file text)) (h : EndsIn ending path) :
    EndsIn ending place := by
  obtain ⟨before, last, home, hpath, -, rfl, -⟩ := Disk.locate_file hlocate
  exact h.congr (by rw [hpath]; simp)

end Path

/-- Texts are told apart by what stands before the first point. -/
theorem Text.eq_of_point {name name' rest rest' : List Char} (h : '.' ∉ name) (h' : '.' ∉ name')
    (hsame : name ++ '.' :: rest = name' ++ '.' :: rest') : name = name' ∧ rest = rest' := by
  have hbefore {name rest : List Char} (h : '.' ∉ name) :
      (name ++ '.' :: rest).takeWhile (· != '.') = name := by
    rw [List.takeWhile_append_of_pos]
    · simp
    · intro c hc
      simpa using fun heq : c = '.' => h (heq ▸ hc)
  obtain rfl : name = name' := by rw [← hbefore h, hsame, hbefore h']
  rw [List.append_cancel_left_eq, List.cons.injEq] at hsame
  exact ⟨rfl, hsame.2⟩

namespace Name

theorem isNameChar_of_mem {name : String} (h : isValid name = true) {c : Char}
    (hc : c ∈ name.toList) : Text.isNameChar c = true := by
  rw [isValid, Bool.and_eq_true, List.all_eq_true] at h
  exact h.2 c hc

theorem not_mem {name : String} (h : isValid name = true) {c : Char}
    (hc : Text.isNameChar c = false) : c ∉ name.toList := by
  intro hmem
  rw [isNameChar_of_mem h hmem] at hc
  exact absurd hc (by simp)

/-- Names are told apart by what stands before the first point. -/
theorem eq_of_point {name name' : String} {rest rest' : List Char}
    (h : isValid name = true) (h' : isValid name' = true)
    (hsame : name.toList ++ '.' :: rest = name'.toList ++ '.' :: rest') :
    name = name' ∧ rest = rest' := by
  obtain ⟨hname, hrest⟩ := Text.eq_of_point (not_mem h (by decide)) (not_mem h' (by decide)) hsame
  exact ⟨String.toList_inj.1 hname, hrest⟩

theorem toList_ne_nil {name : String} (h : isValid name = true) : name.toList ≠ [] := by
  rw [isValid, Bool.and_eq_true] at h
  simpa using h.1

end Name

namespace Path

variable {name : String}

theorem below_of_isValid (path : Path) (h : Name.isValid name = true) {ending : String}
    (hending : '/' ∉ ending.toList) : below path (name ++ ending) = path ++ [name ++ ending] := by
  refine below_of_not_mem _ ?_
  rw [String.toList_append, List.mem_append]
  exact fun hmem => hmem.elim (Name.not_mem h (by decide)) hending

theorem table_of_isValid (database : String) (h : Name.isValid name = true) :
    table database name = Path.database database ++ [name ++ ".mg"] :=
  below_of_isValid _ h (by decide)

theorem schema_of_isValid (database : String) (h : Name.isValid name = true) :
    schema database name = schemas database ++ [name ++ ".json"] :=
  below_of_isValid _ h (by decide)

theorem view_of_isValid (database : String) (h : Name.isValid name = true) :
    view database name = Path.database database ++ [name ++ ".view"] :=
  below_of_isValid _ h (by decide)

theorem isPlain_append_of_length {stem ending : String} (h : 2 < ending.toList.length) :
    IsPlain (stem ++ ending) := by
  refine isPlain_of_length ?_
  rw [String.toList_append, List.length_append]
  omega

/-! ### The file of the log -/

private theorem intercalate_concat (c : Char) {before : List (List Char)} (piece : List Char)
    (h : before ≠ []) :
    [c].intercalate (before ++ [piece]) = [c].intercalate before ++ (c :: piece) := by
  induction before with
  | nil => exact absurd rfl h
  | cons first rest ih =>
    cases rest with
    | nil =>
      rw [List.intercalate_singleton]
      simp
    | cons second rest =>
      rw [List.cons_append, List.cons_append, List.intercalate_cons_cons, ← List.cons_append,
        ih (by simp), List.intercalate_cons_cons]
      simp

/-- What stands behind the last separator is an ending. -/
theorem suffix_of_splitOn {c : Char} {s piece : List Char} {before : List (List Char)}
    (h : s.splitOn c = before ++ [piece]) (hne : before ≠ []) : (c :: piece) <:+ s := by
  have hs : [c].intercalate (s.splitOn c) = s := List.intercalate_splitOn c
  rw [h, intercalate_concat c piece hne] at hs
  exact ⟨_, hs⟩

theorem endsIn_extension {place name : String} {before : List String}
    (h : ofName place = before ++ [name]) (hname : IsPlain name)
    (hlog : Place.extension? place = some "log") : ".log".toList <:+ name.toList := by
  have hlast : (Place.parts place).getLast? = some name := by
    have hkept : (name != "" && name != ".") = true := by
      have hstays := hname.stays
      simp only [stays, Bool.or_eq_false_iff, beq_eq_false_iff_ne] at hstays
      simp [hstays.1, hstays.2]
    change ((ofName place).filter fun part => part != "" && part != ".").getLast? = _
    rw [h, List.filter_append, List.filter_cons, if_pos hkept]
    simp
  unfold Place.extension? at hlog
  rw [hlast] at hlog
  dsimp only at hlog
  split at hlog
  · exact absurd hlog (by simp)
  · rename_i hpieces
    simp only [Bool.or_eq_true, not_or, decide_eq_true_eq, List.length_map] at hpieces
    rw [List.getLast?_map, Option.map_eq_some_iff] at hlog
    obtain ⟨piece, hpiece, hlog⟩ := hlog
    obtain ⟨front, hsplit⟩ := List.getLast?_eq_some_iff.1 hpiece
    have hfront : front ≠ [] := by
      rintro rfl
      rw [hsplit] at hpieces
      simp at hpieces
    have hsuffix := suffix_of_splitOn hsplit hfront
    have hpiece : piece = "log".toList := by rw [← hlog, String.toList_ofList]
    rw [hpiece] at hsuffix
    exact hsuffix

/-- The file of the log ends in its extension, if it has a name at all. -/
theorem endsIn_log {settings : Settings} {before : Path} {name : String}
    (h : log settings = before ++ [name]) (hname : IsPlain name) : EndsIn ".log" (log settings) := by
  have hnamed (base : String) : EndsIn ".log" (below [] (Place.below base Settings.logName)) := by
    have hstem : ∃ stem, Place.below base Settings.logName = stem ++ ".log" := by
      unfold Place.below
      have hname : Settings.logName = "wal" ++ ".log" := by decide
      rw [hname]
      split
      · exact ⟨"wal", rfl⟩
      · split
        · exact ⟨base ++ "wal", by rw [String.append_assoc]⟩
        · exact ⟨base ++ "/" ++ "wal", by simp only [String.append_assoc]⟩
    obtain ⟨stem, hstem⟩ := hstem
    rw [hstem]
    exact endsIn_below [] stem (by decide)
  unfold log Settings.logFile at *
  cases hplace : settings.logPlace with
  | none => exact hnamed _
  | some place =>
    simp only [hplace] at h ⊢
    split
    · rename_i hextension
      rw [if_pos hextension] at h
      have hlast : ∃ front, ofName place = front ++ [name] := by
        unfold below at h
        split at h
        · rcases List.cons_eq_append_iff.1 h with ⟨-, hone⟩ | ⟨front, -, hfront⟩
          · exact absurd (List.cons.inj hone).2.symm (by simp [ofName, List.splitOn_ne_nil])
          · exact ⟨front, hfront⟩
        · exact ⟨before, h⟩
      obtain ⟨front, hfront⟩ := hlast
      refine ⟨name, by rw [h]; simp, ?_⟩
      exact endsIn_extension hfront hname (by simpa using hextension)
    · exact hnamed _

end Path

namespace Database

/-- The directory that a database leads to. -/
def LiesAt (disk : Disk) (database : String) (home : Path) : Prop :=
  disk.locate (Path.database database) = .ok (home, .directory)

variable {disk : Disk} {database name : String} {home : Path}

theorem LiesAt.unique {other : Path} (h : LiesAt disk database home)
    (h' : LiesAt disk database other) : other = home := by
  have hsame := h.symm.trans h'
  rw [Except.ok.injEq, Prod.mk.injEq] at hsame
  exact hsame.1.symm

theorem liesAt_of_require (h : require disk database = .ok ()) : ∃ home, LiesAt disk database home := by
  unfold require isPresent Disk.hasDirectory Disk.entryAt at h
  cases hlocate : disk.locate (Path.database database) with
  | error failure =>
    rw [hlocate] at h
    exact absurd h (by simp [Except.map])
  | ok found =>
    obtain ⟨place, entry⟩ := found
    rw [hlocate] at h
    cases entry with
    | directory => exact ⟨place, hlocate⟩
    | file text => exact absurd h (by simp [Except.map])

theorem LiesAt.require (h : LiesAt disk database home) : require disk database = .ok () := by
  unfold Database.require isPresent Disk.hasDirectory Disk.entryAt
  rw [h]
  rfl

theorem LiesAt.grows {made written : Path → Prop} {disk' : Disk} (h : LiesAt disk database home)
    (hgrows : Disk.Grows made written disk disk') : LiesAt disk' database home :=
  hgrows.locate h

end Database

namespace Path

/-- The place of a table's file in the directory of its database. -/
def tablePlace (home : Path) (name : String) : Path :=
  home ++ [name ++ ".mg"]

/-- The place of a schema's file in the directory of its database. -/
def schemaPlace (home : Path) (name : String) : Path :=
  home ++ ["schema"] ++ [name ++ ".json"]

/-- The place of a view's file in the directory of its database. -/
def viewPlace (home : Path) (name : String) : Path :=
  home ++ [name ++ ".view"]

end Path

variable {disk : Disk} {database name : String}

namespace Database.LiesAt

variable {home : Path}

/-- The way to a table goes through the directory of its database. -/
theorem locate_table (h : LiesAt disk database home) (hname : Name.isValid name = true)
    (hsound : (Path.table database name).isSound = true)
    (hfits : Path.fits (name ++ ".mg") = true) :
    disk.locate (Path.table database name)
      = match disk.at? (Path.tablePlace home name) with
        | none => .error .missing
        | some entry => .ok (Path.tablePlace home name, entry) := by
  rw [Path.table_of_isValid database hname] at hsound ⊢
  exact Disk.locate_append hsound (Path.isPlain_append_of_length (by decide)) hfits h

/-- The way to a schema goes through a directory in that of its database. -/
theorem locate_schema (h : LiesAt disk database home) (hname : Name.isValid name = true)
    (hfolder : disk.at? (home ++ ["schema"]) = some .directory)
    (hsound : (Path.schema database name).isSound = true)
    (hfits : Path.fits (name ++ ".json") = true) :
    disk.locate (Path.schema database name)
      = match disk.at? (Path.schemaPlace home name) with
        | none => .error .missing
        | some entry => .ok (Path.schemaPlace home name, entry) := by
  rw [Path.schema_of_isValid database hname] at hsound ⊢
  have hschemas : disk.locate (Path.schemas database) = .ok (home ++ ["schema"], .directory) := by
    rw [Path.schemas, Disk.locate_append (Path.isSound_of_append hsound)
      (Path.isPlain_of_length (by decide)) (by decide) h, hfolder]
  exact Disk.locate_append hsound (Path.isPlain_append_of_length (by decide)) hfits hschemas

end Database.LiesAt

/-- A view is found by its file in the directory of the database. -/
theorem View.isPresent_of_file {home : Path} {text : String} (h : Database.LiesAt disk database home)
    (hname : Name.isValid name = true)
    (hsound : (Path.database database ++ [name ++ ".view"]).isSound = true)
    (hfits : Path.fits (name ++ ".view") = true)
    (hfile : disk.at? (Path.viewPlace home name) = some (.file text)) :
    isPresent disk database name = true := by
  have hlocate := Disk.locate_append hsound (Path.isPlain_append_of_length (by decide)) hfits h
  change _ = match disk.at? (Path.viewPlace home name) with
    | none => Except.error DiskFailure.missing
    | some entry => .ok (Path.viewPlace home name, entry) at hlocate
  rw [hfile] at hlocate
  unfold isPresent Disk.hasFile Disk.entryAt
  rw [Path.view_of_isValid database hname, hlocate]
  rfl

/-- Where nothing lies at the place of a schema, there is none. -/
theorem Engine.hasSchema_of_none {home : Path} (h : Database.LiesAt disk database home)
    (hname : Name.isValid name = true) (hnone : disk.at? (Path.schemaPlace home name) = none) :
    hasSchema disk database name = false := by
  unfold hasSchema Disk.hasEntry Disk.entryAt
  cases hlocate : disk.locate (Path.schema database name) with
  | error failure => rfl
  | ok found =>
    obtain ⟨place, entry⟩ := found
    rw [Path.schema_of_isValid database hname] at hlocate
    obtain ⟨folder, hfolder, rfl, hentry, -⟩ :=
      Disk.locate_name (Path.isPlain_append_of_length (by decide)) hlocate
    obtain ⟨home', hhome', rfl, -⟩ :=
      Disk.locate_directory (Path.isPlain_of_length (by decide)) hfolder
    obtain rfl := h.unique hhome'
    exact absurd (hnone.symm.trans hentry) (by simp)

/-- Where there is no schema, nothing lies at its place, if that can be reached. -/
theorem Engine.schemaPlace_of_hasSchema {home : Path} (h : Database.LiesAt disk database home)
    (hname : Name.isValid name = true) (hsound : (Path.schema database name).isSound = true)
    (hfits : Path.fits (name ++ ".json") = true)
    (hfolder : ∀ entry, disk.at? (Path.schemaPlace home name) = some entry →
      disk.at? (home ++ ["schema"]) = some .directory)
    (hno : hasSchema disk database name = false) : disk.at? (Path.schemaPlace home name) = none := by
  cases hentry : disk.at? (Path.schemaPlace home name) with
  | none => rfl
  | some entry =>
    have hlocate := h.locate_schema hname (hfolder entry hentry) hsound hfits
    rw [hentry] at hlocate
    unfold hasSchema Disk.hasEntry Disk.entryAt at hno
    rw [hlocate] at hno
    exact absurd hno (by simp [Except.map])

/-- Rows that are read stand in the file of their table. -/
theorem Table.locate_of_rows {disk : Disk} {database table : String} {list : List String}
    (h : rows disk database table = .ok list) :
    ∃ place text, disk.locate (Path.table database table) = .ok (place, .file text) ∧
      Text.filledLines text = list := by
  obtain ⟨text, htext, hread⟩ := Action.of_bind_eq_ok h
  obtain ⟨place, hlocate⟩ := Disk.textAt_eq_ok.1 (Disk.textOr_eq_ok.1 htext)
  exact ⟨place, text, hlocate, Except.ok.inj hread⟩

/-- The rows of a table are the lines of its file in the directory of the database. -/
theorem Table.rows_eq_ok (hname : Name.isValid name = true) {rows : List String}
    (h : Table.rows disk database name = .ok rows) :
    ∃ home text, Database.LiesAt disk database home ∧
      disk.locate (Path.table database name) = .ok (Path.tablePlace home name, .file text) ∧
      disk.at? (Path.tablePlace home name) = some (.file text) ∧
      rows = Text.filledLines text := by
  obtain ⟨place, text, hplace, hrows⟩ := locate_of_rows h
  obtain ⟨before, part, home, hpath, hhome, rfl, hentry, -⟩ := Disk.locate_file hplace
  rw [Path.table_of_isValid database hname] at hpath
  obtain ⟨rfl, hpart⟩ := List.append_inj' hpath rfl
  rw [List.cons.injEq] at hpart
  obtain ⟨rfl, -⟩ := hpart
  exact ⟨home, text, hhome, hplace, hentry, hrows.symm⟩

/-- A schema is read from its file below the directory of the database. -/
theorem Engine.readSchema_eq_ok (hname : Name.isValid name = true) {schema : TableSchema}
    (h : Engine.readSchema disk database name = .ok schema) :
    ∃ home text, Database.LiesAt disk database home ∧
      disk.locate (Path.schema database name) = .ok (Path.schemaPlace home name, .file text) ∧
      disk.at? (Path.schemaPlace home name) = some (.file text) ∧
      (Json.ofText? text).bind TableSchema.ofJson? = some schema := by
  obtain ⟨text, htext, hread⟩ := Action.of_bind_eq_ok h
  obtain ⟨place, hplace⟩ := Disk.textAt_eq_ok.1 (Disk.textOr_eq_ok.1 htext)
  obtain ⟨before, part, folder, hpath, hfolder, rfl, hentry, -⟩ := Disk.locate_file hplace
  rw [Path.schema_of_isValid database hname] at hpath
  obtain ⟨rfl, hpart⟩ := List.append_inj' hpath rfl
  rw [List.cons.injEq] at hpart
  obtain ⟨rfl, -⟩ := hpart
  obtain ⟨home, hhome, rfl, -⟩ :=
    Disk.locate_directory (Path.isPlain_of_length (by decide)) hfolder
  refine ⟨home, text, hhome, hplace, hentry, ?_⟩
  split at hread
  · rename_i found hfound
    rw [← Except.ok.inj hread]
    exact hfound
  · exact absurd hread Action.throw_ne_ok

theorem Engine.readSchema_of_text {text : String} {schema : TableSchema}
    (htext : disk.textAt (Path.schema database name) = .ok text)
    (hschema : (Json.ofText? text).bind TableSchema.ofJson? = some schema) :
    Engine.readSchema disk database name = .ok schema := by
  unfold readSchema
  rw [Disk.textOr_eq_ok.2 htext]
  dsimp only [bind, Except.bind]
  rw [hschema]
  rfl

/-! ### Tables by their places -/

namespace Disk

variable {disk disk' : Disk} {home place : Path} {name text : String}

/-- The text of the file at a place. -/
def fileAt? (disk : Disk) (place : Path) : Option String :=
  match disk.at? place with
  | some (.file text) => some text
  | _ => none

/-- The rows of the table in a directory of a database. -/
def rowsAt? (disk : Disk) (home : Path) (name : String) : Option (List String) :=
  (disk.fileAt? (Path.tablePlace home name)).map Text.filledLines

/-- The schema of the table in a directory of a database. -/
def schemaAt? (disk : Disk) (home : Path) (name : String) : Option TableSchema :=
  (disk.fileAt? (Path.schemaPlace home name)).bind fun text =>
    (Json.ofText? text).bind TableSchema.ofJson?

theorem fileAt?_eq_some : disk.fileAt? place = some text ↔ disk.at? place = some (.file text) := by
  unfold fileAt?
  split <;> simp_all

theorem fileAt?_congr
    (h : ∀ text, disk'.at? place = some (.file text) ↔ disk.at? place = some (.file text)) :
    disk'.fileAt? place = disk.fileAt? place :=
  Option.ext fun text => by rw [fileAt?_eq_some, fileAt?_eq_some, h]

theorem fileAt?_put (other : Path) (text : String) :
    (disk.put place (.file text)).fileAt? other
      = if other = place then some text else disk.fileAt? other := by
  unfold fileAt?
  rw [at?_put]
  by_cases h : other = place <;> simp [h]

/-- The rows of a table that can be read are those in its file. -/
theorem rowsAt?_of_rows {database : String} {rows : List String} (hname : Name.isValid name = true)
    (hhome : Database.LiesAt disk database home) (hrows : Table.rows disk database name = .ok rows) :
    disk.rowsAt? home name = some rows := by
  obtain ⟨home', text, hhome', -, hentry, rfl⟩ := Table.rows_eq_ok hname hrows
  obtain rfl := hhome.unique hhome'
  rw [rowsAt?, fileAt?_eq_some.2 hentry]
  rfl

/-- A schema that can be read is the one of a table. -/
theorem schemaAt?_of_readSchema {database : String} {schema : TableSchema}
    (hname : Name.isValid name = true) (hhome : Database.LiesAt disk database home)
    (hread : Engine.readSchema disk database name = .ok schema) :
    disk.schemaAt? home name = some schema := by
  obtain ⟨home', text, hhome', -, hentry, hschema⟩ := Engine.readSchema_eq_ok hname hread
  obtain rfl := hhome.unique hhome'
  rw [schemaAt?, fileAt?_eq_some.2 hentry]
  exact hschema

end Disk

end FlatFileDb
