import FlatFileDb.Proofs.Insertion

/-!
# Tables as they were filled

Tables are defined and filled, and everything in one of them is asked for at the end. Its rows are
those inserted into it by statements that went well, in order: `Engine.HasFilled` says so of a table in
the database of a name. A step that fills another table, or that is refused, leaves it as it is; one
that fills the table itself puts a row behind the others. A step is written as a `Filling`, which gives
the row of an insertion and not the text of the statement.

Names of databases are paths, and two of them may lead to one directory. So all steps select the
database by one name, or databases by valid names, of which each has its own directory.
-/

namespace FlatFileDb

/-- A way to a file that was not written over leads to the same text ever after. -/
theorem Disk.Grows.locate_unwritten {made written : Path → Prop} {disk disk' : Disk}
    (h : Grows made written disk disk') {path place : Path} {text : String}
    (hpath : disk.locate path = .ok (place, .file text)) (hplace : ¬written place) :
    disk'.locate path = .ok (place, .file text) := by
  obtain ⟨text', hlocate, hthere⟩ := h.locate_file hpath
  obtain ⟨-, -, -, -, -, -, hbefore, -⟩ := Disk.locate_file hpath
  have hsame := hbefore.symm.trans ((h.unwritten hplace).1 hthere)
  rw [Option.some.injEq, DiskEntry.file.injEq] at hsame
  exact hsame ▸ hlocate

namespace Database

/-- Whether two names are the same, or names of two databases. -/
def isTold (database other : String) : Bool :=
  other == database || (Name.isValid database && Name.isValid other)

theorem LiesAt.eq_directoryName {disk : Disk} {database : String} {home : Path}
    (h : LiesAt disk database home) (hdatabase : Name.isValid database = true) :
    home = [Settings.directoryName database] := by
  have hslash : '/' ∉ (Settings.directoryName database).toList := by
    rw [Settings.directoryName, String.toList_append, List.mem_append]
    exact fun hno => hno.elim (by decide) (Name.not_mem hdatabase (by decide))
  have hlocate : disk.locate ([] ++ [Settings.directoryName database]) = .ok (home, .directory) := by
    rw [← Path.below_of_not_mem [] hslash]
    exact h
  have hname : Path.IsPlain (Settings.directoryName database) := by
    refine Path.isPlain_of_length ?_
    rw [Settings.directoryName, String.toList_append, List.length_append]
    exact Nat.lt_add_right _ (by decide)
  obtain ⟨above, habove, rfl, -⟩ := Disk.locate_directory hname hlocate
  have hroot : disk.locate [] = .ok ([], .directory) := rfl
  rw [hroot, Except.ok.injEq, Prod.mk.injEq] at habove
  rw [← habove.1, List.nil_append]

/-- Two databases lie in two directories. -/
theorem LiesAt.eq_of_isTold {disk : Disk} {database other : String} {home : Path}
    (h : LiesAt disk database home) (h' : LiesAt disk other home)
    (htold : isTold database other = true) : other = database := by
  rw [isTold, Bool.or_eq_true, beq_iff_eq, Bool.and_eq_true] at htold
  rcases htold with hsame | ⟨hdatabase, hother⟩
  · exact hsame
  · have hsame := (h'.eq_directoryName hother).symm.trans (h.eq_directoryName hdatabase)
    rw [List.cons.injEq] at hsame
    have hlists := congrArg String.toList hsame.1
    rw [Settings.directoryName, Settings.directoryName, String.toList_append,
      String.toList_append] at hlists
    exact String.toList_inj.1 (List.append_cancel_left hlists)

end Database

/-! ### What a table was filled with -/

namespace Engine

variable {database table row definition : String} {rows : List String} {columns : List Column}
  {home : Path} {e e' : Engine}

/-- No table of the name has its file where the database may lie. -/
def IsUnfiled (disk : Disk) (database table : String) : Prop :=
  ∀ home text, disk.at? (Path.tablePlace home table) = some (.file text) →
    ∃ other, Database.isTold database other = true ∧ other ≠ database ∧ Database.LiesAt disk other home

theorem IsUnfiled.rows_ne {disk : Disk} (h : IsUnfiled disk database table)
    (htable : Name.isValid table = true) : Table.rows disk database table ≠ .ok rows := by
  intro hrows
  obtain ⟨home, text, hhome, -, hfile, -⟩ := Table.rows_eq_ok htable hrows
  obtain ⟨other, htold, hne, hother⟩ := h home text hfile
  exact hne (hhome.eq_of_isTold hother htold)

theorem readSchema_of_grows {disk disk' : Disk} {made written : Path → Prop} {schema : TableSchema}
    (htable : Name.isValid table = true) (hgrows : Disk.Grows made written disk disk')
    (h : readSchema disk database table = .ok schema)
    (hwritten : ∀ home text, disk.at? (Path.schemaPlace home table) = some (.file text) →
      ¬written (Path.schemaPlace home table)) : readSchema disk' database table = .ok schema := by
  obtain ⟨home, text, -, hlocate, hfile, hschema⟩ := readSchema_eq_ok htable h
  exact readSchema_of_text
    (Disk.textAt_eq_ok.2 ⟨_, hgrows.locate_unwritten hlocate (hwritten home text hfile)⟩) hschema

/-- A table of some columns, with rows of its width. -/
structure Shows (database table : String) (columns : List Column) (rows : List String) (e : Engine) :
    Prop where
  schema : readSchema e.disk database table = .ok ⟨database, table, columns, Permissions.standard⟩
  width : ∀ row ∈ rows, (Row.fields row).length = columns.length
  rows : Table.rows e.disk database table = .ok rows

/-- What has become of a table by its definition, if it was defined, and the rows inserted. -/
def HasFilled (database table : String) (rows : List String) (e : Engine) : Option String → Prop
  | none => rows = [] ∧ IsUnfiled e.disk database table
  | some definition =>
    ∃ columns, Definition.columns definition = .ok columns ∧ Shows database table columns rows e

/-- Where no file of the table is: beside tables, and at the files of other tables. -/
def IsElsewhere (e : Engine) (database table : String) (place : Path) : Prop :=
  e.disk.IsAside place ∨ ∃ other home name, Database.LiesAt e.disk other home ∧
    Database.isTold database other = true ∧ ¬(other = database ∧ name = table) ∧
      place = Path.tablePlace home name

/-- A table stays as it is while others are filled. -/
theorem HasFilled.elsewhere {defined : Option String} (h : HasFilled database table rows e defined)
    (htable : Name.isValid table = true) (hfills : Fills (IsElsewhere e database table) e e') :
    HasFilled database table rows e' defined := by
  have htaken {home : Path} (hwritten : IsElsewhere e database table (Path.tablePlace home table)) :
      ∃ other, Database.isTold database other = true ∧ other ≠ database ∧
        Database.LiesAt e.disk other home := by
    rcases hwritten with haside | ⟨other, home', name, hhome, htold, hother, hplace⟩
    · exact absurd rfl (haside.ne_tablePlace home table)
    · obtain ⟨rfl, rfl⟩ := Path.tablePlace_inj hplace
      exact ⟨other, htold, fun hsame => hother ⟨hsame, rfl⟩, hhome⟩
  cases defined with
  | none =>
    refine ⟨h.1, fun home text hfile => ?_⟩
    have hbefore : ∃ other, Database.isTold database other = true ∧ other ≠ database ∧
        Database.LiesAt e.disk other home := by
      by_cases hwritten : IsElsewhere e database table (Path.tablePlace home table)
      · exact htaken hwritten
      · exact h.2 home text ((hfills.grows.unwritten hwritten).1 hfile)
    obtain ⟨other, htold, hne, hother⟩ := hbefore
    exact ⟨other, htold, hne, hother.grows hfills.grows⟩
  | some definition =>
    obtain ⟨columns, hcolumns, hshows⟩ := h
    refine ⟨columns, hcolumns, ?_, hshows.width, ?_⟩
    · refine readSchema_of_grows htable hfills.grows hshows.schema fun home text hfile => ?_
      rintro (haside | ⟨other, home', name, -, -, -, hplace⟩)
      · exact haside.ne_schemaPlace hfile rfl
      · exact Path.schemaPlace_ne_tablePlace _ _ _ _ hplace
    · obtain ⟨home, text, hhome, hlocate, hfile, hrows⟩ := Table.rows_eq_ok htable hshows.rows
      rw [hrows]
      refine Table.rows_of_locate (hfills.grows.locate_unwritten hlocate fun hwritten => ?_)
      obtain ⟨other, htold, hne, hother⟩ := htaken hwritten
      exact hne (hhome.eq_of_isTold hother htold)

/-- A table is defined once, and without rows. -/
theorem HasFilled.define {defined : Option String} (h : HasFilled database table rows e defined)
    (hcolumns : Definition.columns definition = .ok columns)
    (hdefines : Defines database table columns home e e') :
    defined = none ∧ HasFilled database table rows e' (some definition) := by
  cases defined with
  | none =>
    obtain ⟨rfl, -⟩ := h
    exact ⟨rfl, columns, hcolumns, hdefines.schema, by simp, hdefines.rows⟩
  | some definition =>
    obtain ⟨_, _, hshows⟩ := h
    exact absurd ((hasSchema_of_readSchema hshows.schema).symm.trans hdefines.fresh) (by simp)

/-- A row is inserted into a table that is defined, and stands behind those that were. -/
theorem HasFilled.append {defined : Option String} (h : HasFilled database table rows e defined)
    (htable : Name.isValid table = true) (happends : Appends database table row home e e') :
    HasFilled database table (rows ++ [row]) e' defined := by
  obtain ⟨found, hfound, hadded⟩ := happends.rows
  cases defined with
  | none => exact absurd hfound (h.2.rows_ne htable)
  | some definition =>
    obtain ⟨columns, hcolumns, hshows⟩ := h
    obtain rfl := Except.ok.inj (hfound.symm.trans hshows.rows)
    obtain ⟨schema, hschema, hwidth⟩ := happends.width
    obtain rfl := Except.ok.inj (hschema.symm.trans hshows.schema)
    refine ⟨columns, hcolumns, ?_, ?_, hadded⟩
    · refine readSchema_of_grows htable happends.fills.grows hshows.schema fun home text hfile => ?_
      rintro (hplace | haside)
      · exact Path.schemaPlace_ne_tablePlace _ _ _ _ hplace
      · exact haside.ne_schemaPlace hfile rfl
    · intro other hother
      rcases List.mem_append.1 hother with hbefore | hlast
      · exact hshows.width other hbefore
      · exact List.mem_singleton.1 hlast ▸ hwidth

/-- Where a table was not defined, nobody is shown anything. -/
theorem HasFilled.selectAll_none {who : Identity} (h : HasFilled database table rows e none)
    (hplain : e.IsPlain) (htable : Name.isValid table = true)
    (hdatabase : who.requireDatabase = .ok database) :
    rows = [] ∧ ∃ failure, (run (some who) ("SELECT * FROM " ++ table) e).1 = .error failure := by
  refine ⟨h.1, ?_⟩
  cases hrows : Table.rows e.disk database table with
  | error failure => exact selectAll_nothing htable hdatabase hplain.viewless hrows
  | ok found => exact absurd hrows (h.2.rows_ne htable)

/-- Where a table was defined, everyone is shown the fields of its rows. -/
theorem HasFilled.selectAll_some {who : Identity}
    (h : HasFilled database table rows e (some definition)) (hplain : e.IsPlain)
    (htable : Name.isValid table = true) (hdatabase : who.requireDatabase = .ok database) :
    ∃ columns, Definition.columns definition = .ok columns ∧
      (run (some who) ("SELECT * FROM " ++ table) e).1
        = .ok (.ofRows (columns.map Column.name) (rows.map Row.fields)) := by
  obtain ⟨columns, hcolumns, hshows⟩ := h
  exact ⟨columns, hcolumns, selectAll_table hplain.isSound htable hdatabase hshows.schema
    (Permissions.mem_standard who.role) hshows.rows hshows.width⟩

end Engine

/-! ### Steps -/

/-- Whether a row is written without blanks around it and does not end a statement. -/
def Statement.isPayload (row : String) : Bool :=
  (row.toList.head?.all fun c => !Text.isBlank c) &&
    row.toList.getLast?.all fun c => !Text.isBlank c && c != ';'

/-- A row that is written is read again, unless it is empty. -/
theorem Statement.parse_of_isPayload {table row : String} (htable : Name.isValid table = true)
    (hrow : isPayload row = true) :
    (∃ failure, parse ("INSERT " ++ table ++ " " ++ row) = .error failure) ∨
      parse ("INSERT " ++ table ++ " " ++ row) = .ok (.insert table row) := by
  rw [isPayload, Bool.and_eq_true] at hrow
  obtain ⟨hfirst, hlast⟩ := hrow
  cases hletters : row.toList with
  | nil =>
    rw [String.toList_eq_nil_iff] at hletters
    exact .inl ⟨_, hletters ▸ parse_insert_nothing htable⟩
  | cons first rest =>
    rw [hletters, List.head?_cons, Option.all_some, Bool.not_eq_true'] at hfirst
    have hstart : Text.trimStart row.toList = row.toList := by
      rw [hletters, Text.trimStart_of_head hfirst]
    obtain ⟨last, hends⟩ : ∃ last, row.toList.getLast? = some last := by
      rw [hletters]
      exact ⟨_, List.getLast?_cons⟩
    rw [hends, Option.all_some, Bool.and_eq_true, Bool.not_eq_true', bne_iff_ne] at hlast
    exact .inr (parse_insert htable hstart ⟨last, hends, hlast⟩)

/-- A step in which tables are defined and filled. -/
inductive Filling where
  /-- A text that is read as the definition of a table, if it is read at all. -/
  | define (session : Session) (text : String)
  | insert (session : Session) (table row : String)
  /-- Anything that is no statement. -/
  | other (event : Event)
  deriving DecidableEq, Repr

namespace Filling

/-- What happens in a step. -/
def event : Filling → Event
  | define session text => .statement session text
  | insert session table row => .statement session ("INSERT " ++ table ++ " " ++ row)
  | other event => event

/-- Whether a step is what it should be. -/
def isPlain : Filling → Bool
  | define _ text =>
    match Statement.parse text with
    | .ok (.createTable _ _) | .error _ => true
    | _ => false
  | insert _ table row => Name.isValid table && Statement.isPayload row
  | other event => !event.isStatement

/-- The database that is selected in a step. -/
def database? : Filling → Option String
  | define session _ | insert session _ _ => session.bind (·.requireDatabase.toOption)
  | other _ => none

/-- The row that a step inserts into a table. -/
def inserted (database table : String) (engine : Engine) : Filling → List String
  | insert session name row =>
    if (insert session name row).database? = some database ∧ name = table ∧
      (insert session name row).event.succeeds engine = true then [row] else []
  | _ => []

/-- The definition by which a step defines a table. -/
def defined? (database table : String) (engine : Engine) : Filling → Option String
  | define session text =>
    match Statement.parse text with
    | .ok (.createTable name definition) =>
      if (define session text).database? = some database ∧ name = table ∧
        (define session text).event.succeeds engine = true then some definition else none
    | _ => none
  | _ => none

/-- The rows that steps insert into a table, in order. -/
def insertedDuring (database table : String) : List Filling → Engine → List String
  | [], _ => []
  | step :: rest, engine =>
    step.inserted database table engine
      ++ insertedDuring database table rest (step.event.after engine)

/-- The definition by which steps first define a table. -/
def definedDuring? (database table : String) : List Filling → Engine → Option String
  | [], _ => none
  | step :: rest, engine =>
    (step.defined? database table engine).or
      (definedDuring? database table rest (step.event.after engine))

variable {database table name row text : String} {who : Identity} {session : Session} {e : Engine}

theorem not_isOk_error {α : Type} (failure : Error) :
    ¬(Except.error failure : Except Error α).isOk = true := by
  simp [Except.isOk, Except.toBool]

theorem inserted_of_error {failure : Error}
    (h : (Engine.run session ("INSERT " ++ name ++ " " ++ row) e).1 = .error failure) :
    (insert session name row).inserted database table e = [] := by
  rw [inserted, event, Event.succeeds_statement, h,
    if_neg fun hno => not_isOk_error failure hno.2.2]

theorem defined?_of_error {failure : Error} (h : (Engine.run session text e).1 = .error failure) :
    (define session text).defined? database table e = none := by
  rw [defined?]
  split
  · rw [event, Event.succeeds_statement, h,
      if_neg fun hno => not_isOk_error failure hno.2.2]
  · rfl

theorem database?_insert {selected : String} (h : who.requireDatabase = .ok selected) :
    (insert (some who) name row).database? = some selected :=
  congrArg Except.toOption h

theorem database?_define {selected : String} (h : who.requireDatabase = .ok selected) :
    (define (some who) text).database? = some selected :=
  congrArg Except.toOption h

theorem inserted_of_ok {outcome : Outcome} {selected : String}
    (hdatabase : who.requireDatabase = .ok selected)
    (h : (Engine.run (some who) ("INSERT " ++ name ++ " " ++ row) e).1 = .ok outcome) :
    (insert (some who) name row).inserted database table e
      = if selected = database ∧ name = table then [row] else [] := by
  rw [inserted, database?_insert hdatabase, event, Event.succeeds_statement, h]
  simp [Except.isOk, Except.toBool]

theorem defined?_of_ok {outcome : Outcome} {selected definition : String}
    (hparse : Statement.parse text = .ok (.createTable name definition))
    (hdatabase : who.requireDatabase = .ok selected)
    (h : (Engine.run (some who) text e).1 = .ok outcome) :
    (define (some who) text).defined? database table e
      = if selected = database ∧ name = table then some definition else none := by
  rw [defined?, hparse]
  dsimp only
  rw [database?_define hdatabase, event, Event.succeeds_statement, h]
  simp [Except.isOk, Except.toBool]

end Filling

/-- What is known of a table while steps are taken. -/
structure Engine.IsFilled (database table : String) (rows : List String) (defined : Option String)
    (e : Engine) : Prop where
  plain : e.IsPlain
  filled : HasFilled database table rows e defined

namespace Filling

open Engine

variable {rows : List String} {defined : Option String}

/-- A step that is refused, or that is no statement, does nothing to a table. -/
theorem isFilled_refused {step : Filling} {written : Path → Prop}
    (h : IsFilled database table rows defined e) (htable : Name.isValid table = true)
    (hfills : Fills written e (step.event.after e))
    (hwritten : ∀ place, written place → e.disk.IsAside place)
    (hinserted : step.inserted database table e = [])
    (hdefined : step.defined? database table e = none) :
    IsFilled database table (rows ++ step.inserted database table e)
      (defined.or (step.defined? database table e)) (step.event.after e) := by
  rw [hinserted, hdefined, List.append_nil, Option.or_none]
  exact ⟨h.plain.fills hfills fun place hplace => (hwritten place hplace).isOfTables,
    h.filled.elsewhere htable (hfills.mono fun place hplace => .inl (hwritten place hplace))⟩

/-- Nor does one that fills another table. -/
theorem hasFilled_other {other : String} {home : Path} {e' : Engine}
    (h : HasFilled database table rows e defined) (htable : Name.isValid table = true)
    (hhome : Database.LiesAt e.disk other home) (htold : Database.isTold database other = true)
    (hne : ¬(other = database ∧ name = table))
    (hfills : Fills (fun place => place = Path.tablePlace home name ∨ e.disk.IsAside place) e e') :
    HasFilled database table rows e' defined :=
  h.elsewhere htable <| hfills.mono fun _ hplace =>
    hplace.elim (fun hplace => .inr ⟨other, home, name, hhome, htold, hne, hplace⟩) .inl

theorem isFilled_insert (h : IsFilled database table rows defined e)
    (htable : Name.isValid table = true) (hstep : (insert session name row).isPlain = true)
    (htold : (insert session name row).database?.all (Database.isTold database) = true) :
    IsFilled database table (rows ++ (insert session name row).inserted database table e)
      (defined.or ((insert session name row).defined? database table e))
      ((insert session name row).event.after e) := by
  rw [isPlain, Bool.and_eq_true] at hstep
  have hrefused {failure : Error} {e' : Engine}
      (hrun : run session ("INSERT " ++ name ++ " " ++ row) e = (.error failure, e'))
      (hfills : Fills e.disk.IsAside e e') := by
    have hafter : (insert session name row).event.after e = e' := congrArg Prod.snd hrun
    exact isFilled_refused h htable (hafter.symm ▸ hfills) (fun _ => id)
      (inserted_of_error (congrArg Prod.fst hrun)) rfl
  rcases run_cases session ("INSERT " ++ name ++ " " ++ row) e with
    ⟨failure, hrun⟩ | ⟨who, command, rfl, hparse, -⟩
  · exact hrefused hrun (refl e)
  rcases Statement.parse_of_isPayload hstep.1 hstep.2 with ⟨failure, hno⟩ | hparse'
  · exact absurd (hparse.symm.trans hno) (by simp)
  rcases h.plain.run_insert hparse' with
    ⟨failure, e', hrun, hfills⟩ | ⟨outcome, selected, home, e', hrun, hdatabase, happends⟩
  · exact hrefused hrun hfills
  have hafter : (insert (some who) name row).event.after e = e' := congrArg Prod.snd hrun
  rw [← hafter] at happends
  rw [database?_insert hdatabase, Option.all_some] at htold
  refine ⟨h.plain.fills happends.fills fun _ => isOfTables_of_fills, ?_⟩
  rw [inserted_of_ok hdatabase (congrArg Prod.fst hrun)]
  change HasFilled _ _ _ _ (defined.or none)
  rw [Option.or_none]
  split
  · rename_i hsame
    obtain ⟨rfl, rfl⟩ := hsame
    exact h.filled.append htable happends
  · rename_i hne
    rw [List.append_nil]
    exact hasFilled_other h.filled htable happends.lies htold hne happends.fills

theorem isFilled_define (h : IsFilled database table rows defined e)
    (htable : Name.isValid table = true) (hstep : (define session text).isPlain = true)
    (htold : (define session text).database?.all (Database.isTold database) = true) :
    IsFilled database table (rows ++ (define session text).inserted database table e)
      (defined.or ((define session text).defined? database table e))
      ((define session text).event.after e) := by
  have hrefused {failure : Error} {e' : Engine} (hrun : run session text e = (.error failure, e'))
      (hfills : Fills e.disk.IsAside e e') := by
    have hafter : (define session text).event.after e = e' := congrArg Prod.snd hrun
    exact isFilled_refused h htable (hafter.symm ▸ hfills) (fun _ => id) rfl
      (defined?_of_error (congrArg Prod.fst hrun))
  rcases run_cases session text e with ⟨failure, hrun⟩ | ⟨who, command, rfl, hparse, -⟩
  · exact hrefused hrun (refl e)
  obtain ⟨name, definition, rfl⟩ : ∃ name definition, command = .createTable name definition := by
    rw [isPlain, hparse] at hstep
    split at hstep
    · rename_i hcommand
      exact ⟨_, _, Except.ok.inj hcommand⟩
    · rename_i hcommand
      exact absurd hcommand (by simp)
    · exact absurd hstep (by simp)
  rcases h.plain.run_createTable hparse with
    ⟨failure, e', hrun, hfills⟩ |
    ⟨outcome, selected, columns, home, e', hrun, hdatabase, hcolumns, hdefines⟩
  · exact hrefused hrun hfills
  have hafter : (define (some who) text).event.after e = e' := congrArg Prod.snd hrun
  rw [← hafter] at hdefines
  rw [database?_define hdatabase, Option.all_some] at htold
  refine ⟨h.plain.fills hdefines.fills fun _ => isOfTables_of_fills, ?_⟩
  rw [defined?_of_ok hparse hdatabase (congrArg Prod.fst hrun)]
  change HasFilled _ _ (rows ++ []) _ _
  rw [List.append_nil]
  split
  · rename_i hsame
    obtain ⟨rfl, rfl⟩ := hsame
    obtain ⟨rfl, hfilled⟩ := h.filled.define hcolumns hdefines
    exact hfilled
  · rename_i hne
    rw [Option.or_none]
    exact hasFilled_other h.filled htable hdefines.lies htold hne hdefines.fills

/-- What one step does to a table. -/
theorem isFilled_step {step : Filling} (h : IsFilled database table rows defined e)
    (htable : Name.isValid table = true) (hstep : step.isPlain = true)
    (htold : step.database?.all (Database.isTold database) = true) :
    IsFilled database table (rows ++ step.inserted database table e)
      (defined.or (step.defined? database table e)) (step.event.after e) := by
  cases step with
  | define session text => exact isFilled_define h htable hstep htold
  | insert session name row => exact isFilled_insert h htable hstep htold
  | other event =>
    rw [isPlain, Bool.not_eq_true'] at hstep
    have hfills := fills_after h.plain.isSound h.plain.isOpen h.plain.free h.plain.patches hstep
    exact isFilled_refused h htable hfills (fun _ => .inl) rfl rfl

/-- What steps do to a table, one after the other. -/
theorem isFilled_steps {steps : List Filling} (h : IsFilled database table rows defined e)
    (htable : Name.isValid table = true) (hsteps : ∀ step ∈ steps, step.isPlain = true)
    (htold : ∀ step ∈ steps, step.database?.all (Database.isTold database) = true) :
    IsFilled database table (rows ++ insertedDuring database table steps e)
      (defined.or (definedDuring? database table steps e))
      (Run.afterEvents e (steps.map Filling.event)) := by
  induction steps generalizing e rows defined with
  | nil =>
    rw [insertedDuring, definedDuring?, List.append_nil, Option.or_none]
    exact h
  | cons step rest ih =>
    obtain ⟨hplain, hsteps⟩ := List.forall_mem_cons.1 hsteps
    obtain ⟨htold, hothers⟩ := List.forall_mem_cons.1 htold
    rw [insertedDuring, definedDuring?, ← List.append_assoc, ← Option.or_assoc]
    exact ih (isFilled_step h htable hplain htold) hsteps hothers

end Filling

namespace Run

theorem isPlain_first (run : Run) : run.first.IsPlain where
  reached := ⟨{ run with events := [] }, rfl⟩
  free := run.transactions_first
  patches job hjob := absurd (run.latestJobs_first ▸ hjob) (by simp)
  untriggered := (run.grows_first.sparesDefinitions fun _ hlog =>
    hlog.not (by decide)).staysUntriggered Disk.isUntriggered_empty
  viewless := Disk.isViewless_empty.grows run.grows_first fun _ hlog => hlog.not (by decide)

theorem isFilled_first (run : Run) (database table : String) :
    Engine.IsFilled database table [] none run.first :=
  ⟨run.isPlain_first, rfl, fun home _ hfile => absurd ((run.grows_first.unwritten fun hlog =>
    (Path.endsIn_tablePlace home table).not (by decide) hlog).1 hfile) (by simp)⟩

/-- After tables were defined and filled, everyone who asks for everything in one of them is answered
the fields of the rows that were inserted into it, in order, under the names of its columns. -/
theorem selectAll_of_filled (run : Run) {steps : List Filling} {who : Identity}
    {database table : String} (hevents : run.events = steps.map Filling.event)
    (hsteps : ∀ step ∈ steps, step.isPlain = true)
    (htold : ∀ step ∈ steps, step.database?.all (Database.isTold database) = true)
    (htable : Name.isValid table = true) (hdatabase : who.requireDatabase = .ok database) :
    (Filling.definedDuring? database table steps run.first = none →
      Filling.insertedDuring database table steps run.first = [] ∧
        ∃ failure, (Engine.run (some who) ("SELECT * FROM " ++ table) run.last).1 = .error failure) ∧
    ∀ definition, Filling.definedDuring? database table steps run.first = some definition →
      ∃ columns, Definition.columns definition = .ok columns ∧
        (Engine.run (some who) ("SELECT * FROM " ++ table) run.last).1
          = .ok (.ofRows (columns.map Column.name)
              ((Filling.insertedDuring database table steps run.first).map Row.fields)) := by
  obtain ⟨hplain, hfilled⟩ :=
    Filling.isFilled_steps (run.isFilled_first database table) htable hsteps htold
  rw [List.nil_append, Option.none_or, ← hevents] at hfilled
  rw [← hevents] at hplain
  constructor
  · intro hnone
    exact (hnone ▸ hfilled).selectAll_none hplain htable hdatabase
  · intro definition hsome
    exact (hsome ▸ hfilled).selectAll_some hplain htable hdatabase

/-- Two tables that are filled in turn; one row has the key of another one. -/
def fillings : List Filling :=
  let author : Session := some ⟨"asep", .supermaung, some "kantor"⟩
  [.other (.createDatabase "kantor"), .define author "CREATE TABLE t id:INT:PK, nama:STRING",
    .insert author "t" "1|a  = b; c", .define author "CREATE TABLE u id:INT", .insert author "u" "7",
    .insert author "t" "1|d", .other .settle, .insert author "t" "2|,e"]

def twoFilled : Run :=
  standard (fillings.map Filling.event)

theorem selectAll_of_filled_twoFilled :
    (Engine.run (some ⟨"budi", .user, some "kantor"⟩) ("SELECT * FROM " ++ "t") twoFilled.last).1
      = .ok (.ofRows ["id", "nama"] [["1", "a  = b; c"], ["2", ",e"]]) := by
  have hsteps : (∀ step ∈ fillings, step.isPlain = true) ∧
      ∀ step ∈ fillings, step.database?.all (Database.isTold "kantor") = true := by
    decide +kernel
  have hfilled : Filling.insertedDuring "kantor" "t" fillings twoFilled.first
      = ["1|a  = b; c", "2|,e"] := by
    decide +kernel
  have hdefined : Filling.definedDuring? "kantor" "t" fillings twoFilled.first
      = some "id:INT:PK, nama:STRING" := by
    decide +kernel
  have hcolumns : (Definition.columns "id:INT:PK, nama:STRING").map (List.map Column.name)
      = .ok ["id", "nama"] := by
    decide +kernel
  obtain ⟨-, hsome⟩ := @selectAll_of_filled twoFilled fillings ⟨"budi", .user, some "kantor"⟩ "kantor"
    "t" rfl hsteps.1 hsteps.2 (by decide) rfl
  obtain ⟨columns, hread, hanswer⟩ := hsome _ hdefined
  rw [hfilled] at hanswer
  rw [hread] at hcolumns
  rw [Except.ok.inj hcolumns] at hanswer
  exact hanswer

end Run

end FlatFileDb
