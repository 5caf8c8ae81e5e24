import FlatFileDb.Proofs.Buffer
import FlatFileDb.Proofs.Tracking
import FlatFileDb.Proofs.Words

/-!
# Searching for a word

A search takes the identifiers that a word index lists and shows the rows that have them, without
another look at the rows. So it is exact as long as the index lists the rows of its table and no two of
them share their identifier. Over a run without a queue the first follows from the second, whatever is
inserted, updated, deleted and committed before the index is built and after.
-/

namespace FlatFileDb

/-! ### Small letters and digits -/

namespace Text

/-- Whether a text consists of small letters and digits. -/
def isSmall (s : List Char) : Bool :=
  s.all fun c => c.isLower || c.isDigit

theorem lowerChar_of_isSmall {c : Char} (h : (c.isLower || c.isDigit) = true) :
    (c ≠ 'Σ' ∧ lowerChar c = [c]) ∧ isBlank c = false := by
  have hcode : c.toNat < 128 := by
    change (decide (97 ≤ c.val) && decide (c.val ≤ 122) ||
      decide (48 ≤ c.val) && decide (c.val ≤ 57)) = true at h
    simp only [Bool.or_eq_true, Bool.and_eq_true, decide_eq_true_eq, UInt32.le_iff_toNat_le] at h
    change c.val.toNat < 128
    change (97 ≤ c.val.toNat ∧ c.val.toNat ≤ 122) ∨ (48 ≤ c.val.toNat ∧ c.val.toNat ≤ 57) at h
    omega
  have hall : ∀ code < 128, ((Char.ofNat code).isLower || (Char.ofNat code).isDigit) = true →
      (Char.ofNat code ≠ 'Σ' ∧ lowerChar (Char.ofNat code) = [Char.ofNat code]) ∧
        isBlank (Char.ofNat code) = false := by
    decide +kernel
  have hchar := hall c.toNat hcode
  rw [Char.ofNat_toNat] at hchar
  exact hchar h

/-- What a search makes of a word leaves small letters and digits alone. -/
theorem lower_trim_of_isSmall {s : List Char} (h : isSmall s = true) : lower (trim s) = s := by
  have hsmall : ∀ c ∈ s, (c ≠ 'Σ' ∧ lowerChar c = [c]) ∧ isBlank c = false :=
    fun c hc => lowerChar_of_isSmall (List.all_eq_true.1 h c hc)
  rw [trim_of_forall fun c hc => (hsmall c hc).2]
  exact lowerFrom_of_forall (fun c hc => (hsmall c hc).1) false

end Text

/-! ### Building an index -/

/-- An execution that built an index. -/
structure Execution.Builds (x : Execution) (home : Path) (table column : String) (kind : IndexKind) :
    Prop where
  command : x.command = .createIndex kind table column
  database : ∃ database, x.who.requireDatabase = .ok database ∧
    Database.LiesAt x.before.disk database home
  built : ∃ outcome, (Engine.executeWithin 1 x.who x.command x.before).1 = .ok outcome

namespace Engine

variable {e : Engine} {executions : List Execution} {home : Path} {table column : String}
  {kind : IndexKind}

/-- An index is built of what the table and its schema are at the time. -/
theorem createIndex_eq_ok {database : String} {outcome : Outcome} {e' : Engine}
    (h : createIndex kind database table column e = (.ok outcome, e')) :
    ∃ schema position keys, e.knownSchema database table = .ok schema ∧
      schema.columnIndex? column = some position ∧
      Index.build database table column position kind e.disk = (.ok keys, e'.disk) := by
  unfold createIndex at h
  obtain ⟨e₁, hschema, hquiet⟩ := schema_apply database table e
  cases hknown : e.knownSchema database table with
  | error failure =>
    rw [hknown] at hschema
    exact absurd (congrArg Prod.fst ((Action.bind_of_error hschema).symm.trans h)) (by simp)
  | ok schema =>
  rw [hknown] at hschema
  rw [Action.bind_of_ok hschema, Action.ofExcept_bind, TableSchema.requireColumn] at h
  cases hposition : schema.columnIndex? column with
  | none =>
    rw [hposition] at h
    exact absurd (congrArg Prod.fst h) (by simp)
  | some position =>
  rw [hposition] at h
  dsimp only at h
  rcases onDisk_bind (Index.build database table column position kind) _ e₁ with
    ⟨failure, disk, -, hrun⟩ | ⟨keys, disk, hbuild, hrun⟩
  · exact absurd (congrArg Prod.fst (hrun.symm.trans h)) (by simp)
  · rw [hquiet.disk] at hbuild
    obtain rfl := congrArg Prod.snd (hrun.symm.trans h)
    exact ⟨schema, position, keys, rfl, hposition, hbuild⟩

/-- Once it is built an index lists the rows of its table, whatever it listed before. -/
theorem IsSound.tracks_of_builds {x : Execution} (hsound : x.before.IsSound)
    (hnamed : x.command.isWellNamed = true) (h : x.Builds home table column kind)
    (executing : Executing) :
    (effect executing x.who x.command x.before).2.disk.Tracks home table column kind [] := by
  obtain ⟨who, command, e⟩ := x
  obtain ⟨hcommand, ⟨database, hdatabase, hhome⟩, outcome, hbuilt⟩ := h
  dsimp only at hcommand hdatabase hhome hbuilt hsound hnamed ⊢
  subst hcommand
  rw [Command.isWellNamed, Bool.and_eq_true] at hnamed
  obtain ⟨made, after, hcreate, heffect⟩ := @effect_of_executed who (.createIndex kind table column)
    database (createIndex kind · table column) e outcome (fun _ => rfl) hdatabase hbuilt
  obtain ⟨schema, position, keys, hknown, hposition, hbuild⟩ := createIndex_eq_ok hcreate
  rw [heffect]
  rcases @Index.build_withIndex database table column hnamed.1 hnamed.2 position kind e.disk with
    ⟨failure, hfailed⟩ | ⟨home', rows, keys', hhome', hrows, hfits, hbuilt⟩
  · exact absurd (congrArg Prod.fst (hfailed.symm.trans hbuild)) (by simp)
  obtain rfl := hhome.unique hhome'
  have hdisk : e.disk.withIndex home' table column kind position rows = after.disk :=
    congrArg Prod.snd (hbuilt.symm.trans hbuild)
  have hindexed := hsound.positionAt?_of_knownSchema hnamed.1 hhome hknown hposition
  rw [← hdisk]
  exact Disk.tracks_withIndex (Disk.isIndexFile_withIndex hnamed.1 hnamed.2 hfits hindexed) hindexed
    hrows

/-! ### Over a run -/

/-- What waits belongs to the database that its user had selected. -/
theorem Buffers.requireDatabase {who : Identity} {command : Command} {entry : Log.Entry}
    (h : Buffers who command e entry) : who.requireDatabase = .ok entry.database := by
  cases h <;> assumption

/-- Executions find the rows of a table with identifiers of their own, but for those after which an
index was built anew. -/
def DistinctSince (executions : List Execution) (home : Path) (table column : String)
    (kind : IndexKind) : Prop :=
  ∀ earlier x later, executions = earlier ++ x :: later →
    x.HasDistinct home table ∨ ∃ y ∈ x :: later, y.Builds home table column kind

/-- Without a queue word indexes list the rows of their tables all along. -/
theorem Trace.tracks {first : Engine} (h : Trace first executions e) (hfirst : first.IsSound)
    (htransactions : first.transactions = .empty) (hinline : first.settings.background = false)
    (hapart : first.settings.isApart = true)
    (hroom : ∀ x ∈ executions, ∀ database, x.who.requireDatabase = .ok database →
      Database.hasRoom database = true)
    (hindexes : first.disk.HasIndexes) :
    e.disk.HasIndexes ∧ ∀ home table column, Name.isValid table = true →
      Name.isValid column = true → DistinctSince executions home table column .words →
        first.disk.Tracks home table column .words [] →
          e.disk.Tracks home table column .words [] := by
  induction h with
  | start => exact ⟨hindexes, fun _ _ _ _ _ _ htracks => htracks⟩
  | @command executions e e₁ who command upkeep h hnamed hown hafter ih =>
    obtain ⟨hbefore, htracks⟩ := ih fun x hx => hroom x (List.mem_append_left _ hx)
    have hsound := h.isSound hfirst
    have hwaiting : ∀ transaction, e.transactions.get? who.user = some transaction →
        ∀ entry ∈ transaction.latest, Database.hasRoom entry.database = true := by
      intro transaction hactive entry hentry
      obtain ⟨y, hy, -, hbuffers⟩ :=
        h.waiting (fun found hfound => absurd hfound (by simp [htransactions])) hactive hentry
      exact hroom y (List.mem_append_left _ hy) _ hbuffers.requireDatabase
    have hfollows := hsound.follows_own hnamed hown hbefore (hroom ⟨who, command, e⟩ (by simp)) hwaiting
    obtain ⟨hindexes', _, -, htracks'⟩ := hfollows.tracks (hsound.own hnamed hown)
      (by rw [hown.frame.1, h.settings_eq, hinline])
    refine ⟨hindexes', fun home table column htable hcolumn hids hstart => ?_⟩
    by_cases hbuilds : Execution.Builds ⟨who, command, e⟩ home table column .words
    · obtain ⟨executing, heffect⟩ := hafter
      rw [← heffect]
      exact @IsSound.tracks_of_builds home table column .words ⟨who, command, e⟩ hsound hnamed hbuilds executing
    -- The index was not built last, so that what was found before the last execution counts.
    have hlast := (hids executions ⟨who, command, e⟩ [] rfl).resolve_right (by simpa using hbuilds)
    have hearlier : DistinctSince executions home table column .words := by
      rintro earlier x later rfl
      have hsince := hids earlier x (later ++ [⟨who, command, e⟩]) (by simp)
      simpa [or_assoc, exists_or, or_and_right, hbuilds] using hsince
    exact htracks' home table column .words htable hcolumn hlast (fun hno => nomatch hno)
      (htracks home table column htable hcolumn hearlier hstart)
  | @createDatabase executions e h name ih =>
    obtain ⟨hbefore, htracks⟩ := ih hroom
    have hspares := @Database.spares_create True name e.disk
    have hindexes' := hspares.sparesIndexes trivial
    exact ⟨hindexes'.hasIndexes hbefore, fun home table column htable hcolumn hids hstart =>
      (htracks home table column htable hcolumn hids hstart).spares hbefore hindexes' htable hcolumn
        (hspares.rowsAt? home table)⟩
  | @reopen executions e opened h hopened ih =>
    obtain ⟨hbefore, htracks⟩ := ih hroom
    obtain ⟨log, after, hlog, rfl⟩ := openOn_eq_ok hopened
    obtain ⟨-, -, hspares⟩ := Log.openAt_eq_ok hlog
    have hindexes' := hspares.sparesIndexes (h.settings_eq ▸ hapart)
    exact ⟨hindexes'.hasIndexes hbefore, fun home table column htable hcolumn hids hstart =>
      (htracks home table column htable hcolumn hids hstart).spares hbefore hindexes' htable hcolumn
        (hspares.rowsAt? home table)⟩
  | pass h nanoseconds ih => exact ih hroom
  | maintain h hbackground _ ih =>
    rw [h.settings_eq, hinline] at hbackground
    exact absurd hbackground (by simp)
  | queue h hbackground _ ih =>
    rw [h.settings_eq, hinline] at hbackground
    exact absurd hbackground (by simp)

end Engine

/-- In a run without a queue word indexes list the rows of their tables in the end. -/
theorem Run.tracks (run : Run) (hinline : run.settings.background = false)
    (hapart : run.settings.isApart = true)
    (hroom : ∀ x ∈ run.executions, ∀ database, x.who.requireDatabase = .ok database →
      Database.hasRoom database = true) :
    run.last.disk.HasIndexes ∧ ∀ home table column, Name.isValid table = true →
      Name.isValid column = true → Engine.DistinctSince run.executions home table column .words →
        run.last.disk.Tracks home table column .words [] := by
  obtain ⟨log, after, hlog, hfirst⟩ := Engine.openOn_eq_ok run.opened
  obtain ⟨-, -, hspares⟩ := Log.openAt_eq_ok hlog
  have hindexes := hspares.sparesIndexes hapart
  have hstart : run.first.disk.HasIndexes := by
    rw [hfirst]
    exact hindexes.hasIndexes Disk.hasIndexes_empty
  have hsettings := run.settings_first
  obtain ⟨hlast, htracks⟩ := run.trace.tracks run.isSound_first run.transactions_first
    (hsettings ▸ hinline) (hsettings ▸ hapart) hroom hstart
  refine ⟨hlast, fun home table column htable hcolumn hids =>
    htracks home table column htable hcolumn hids ?_⟩
  rw [hfirst]
  exact (Disk.tracks_of_none rfl).spares Disk.hasIndexes_empty hindexes htable hcolumn
    (hspares.rowsAt? home table)

/-! ### One search -/

namespace Index

variable {word : String} {position : Nat}

/-- Whether a row holds a word in the field at a position. -/
def holdsWord (word : String) (position : Nat) (row : String) : Bool :=
  ((Row.fields row)[position]?).any fun field => (IndexKind.wordsOf field).contains word

theorem mem_filings_words {row id : String} :
    (word, id) ∈ IndexData.filings .words position row ↔
      holdsWord word position row = true ∧ id = Row.id row := by
  unfold IndexData.filings holdsWord
  cases (Row.fields row)[position]? with
  | none => simp
  | some field =>
    simp only [IndexKind.keys, List.mem_map, Prod.mk.injEq, Option.any_some, List.contains_iff_mem]
    constructor
    · rintro ⟨key, hkey, rfl, rfl⟩
      exact ⟨hkey, rfl⟩
    · rintro ⟨hword, rfl⟩
      exact ⟨word, hword, rfl, rfl⟩

/-- Where no two rows share their identifier, the identifiers under a word are those of the rows that
hold it. -/
theorem filter_idsAt {data : IndexData} {rows : List String}
    (hlisted : data.listed = IndexData.filed .words position rows) (hids : (rows.map Row.id).Nodup) :
    (rows.filter fun row => (data.idsAt word).contains (Row.id row))
      = rows.filter (holdsWord word position) := by
  refine List.filter_congr fun row hrow => ?_
  have hmem : (word, Row.id row) ∈ data.listed ↔ Row.id row ∈ data.idsAt word := IndexData.mem_listed
  rw [Bool.eq_iff_iff, List.contains_iff_mem, ← hmem, hlisted, IndexData.mem_filed]
  constructor
  · rintro ⟨other, hother, hpair⟩
    obtain ⟨hholds, hid⟩ := mem_filings_words.1 hpair
    obtain rfl := List.inj_on_of_nodup_map hids hrow hother hid
    exact hholds
  · exact fun hholds => ⟨row, hrow, mem_filings_words.2 ⟨hholds, rfl⟩⟩

/-- The index that is present is the one in the directory of the database. -/
theorem exists_of_isPresent {disk : Disk} {home : Path} {database table column : String}
    {kind : IndexKind} (hdisk : disk.HasIndexes) (hhome : Database.LiesAt disk database home)
    (htable : Name.isValid table = true) (hcolumn : Name.isValid column = true)
    (hpresent : isPresent disk database table column kind = true) :
    ∃ data, disk.IsIndexFile home table column kind data := by
  unfold isPresent Disk.hasFile Disk.entryAt at hpresent
  cases hlocate : disk.locate (path database table column kind) with
  | error failure =>
    rw [hlocate] at hpresent
    exact absurd hpresent (by simp [Except.map])
  | ok found =>
    obtain ⟨place, entry⟩ := found
    rw [hlocate] at hpresent
    cases entry with
    | directory => exact absurd hpresent (by simp [Except.map])
    | file text =>
      obtain ⟨before, name, folder, hpath, hfolder, rfl, hentry, -⟩ := Disk.locate_file hlocate
      rw [path_of_isValid database htable hcolumn] at hpath
      obtain ⟨rfl, hname⟩ := List.append_inj' hpath rfl
      obtain rfl := (List.cons.inj hname).1
      obtain rfl := hhome.unique hfolder
      exact hdisk.file htable (Name.not_mem hcolumn (by decide)) hentry

end Index

/-- A table in a database, with a word index on one of its columns. -/
structure Disk.WordIndexed (disk : Disk) (database table column : String) where
  home : Path
  schema : TableSchema
  position : Nat
  rows : List String
  liesAt : Database.LiesAt disk database home
  described : Engine.readSchema disk database table = .ok schema
  indexed : schema.columnIndex? column = some position
  present : Index.isPresent disk database table column .words = true
  stored : Table.rows disk database table = .ok rows

/-- What a search for a word ought to answer: the rows that hold it, in the order of the table. -/
def Disk.WordIndexed.answer {disk : Disk} {database table column : String}
    (indexed : disk.WordIndexed database table column) (word : String) : Outcome :=
  .ofRows indexed.schema.fieldNames
    ((indexed.rows.filter (Index.holdsWord word indexed.position)).map Row.fields)

/-- A search is exact where the index lists the rows of its table. -/
theorem Engine.IsSound.search_of_tracks {e : Engine} (he : e.IsSound) (hindexes : e.disk.HasIndexes)
    {who : Identity} {database table column word : String}
    (indexed : e.disk.WordIndexed database table column)
    (htracks : e.disk.Tracks indexed.home table column .words [])
    (hids : e.disk.HasDistinct indexed.home table) (hroom : Database.hasRoom database = true)
    (htable : Name.isValid table = true) (hcolumn : Name.isValid column = true)
    (hrole : indexed.schema.require who.role .read = .ok ())
    (hword : Text.isSmall word.toList = true) :
    (search who database table column word e).1 = .ok (indexed.answer word) := by
  obtain ⟨home, schema, position, rows, hhome, hread, hposition, hpresent, hrows⟩ := indexed
  obtain ⟨data, hfile⟩ := Index.exists_of_isPresent hindexes hhome htable hcolumn hpresent
  have hschema := Disk.schemaAt?_of_readSchema htable hhome hread
  have hfound := Disk.rowsAt?_of_rows htable hhome hrows
  have hindexed : e.disk.positionAt? home table column = some position := by
    rw [Disk.positionAt?, hschema]
    exact hposition
  have hlisted : data.listed = IndexData.filed .words position rows :=
    htracks.listed rows position _ hfound hindexed hfile.listedAt?
  have hsearch : Index.search e.disk database table column word = .ok (data.idsAt word) := by
    unfold Index.search
    rw [hfile.load hhome hroom, Text.lower_trim_of_isSmall hword, String.ofList_toList]
    rfl
  have hcolumn' : schema.requireColumn column table = .ok position := by
    rw [TableSchema.requireColumn, hposition]
  obtain ⟨e₁, hknown, hquiet⟩ := schema_apply database table e
  rw [he.knownSchema_of_readSchema htable hread] at hknown
  unfold search
  rw [Action.bind_of_ok hknown, Action.ofExcept_bind, hrole]
  dsimp only
  rw [Action.ofExcept_bind, hcolumn']
  dsimp only
  rw [readDisk, Action.read_bind, hquiet.disk, hsearch]
  dsimp only
  rw [readDisk, Action.read_bind, hquiet.disk, hrows]
  dsimp only
  rw [Index.filter_idsAt hlisted (hids schema rows hschema hfound)]
  rfl

/-- A search is exact over whole runs without a queue, for tables in which no two rows shared their
identifier since the index was built. -/
theorem Run.search_eq_answer (run : Run) (hinline : run.settings.background = false)
    (hapart : run.settings.isApart = true)
    (hroom : ∀ x ∈ run.executions, ∀ database, x.who.requireDatabase = .ok database →
      Database.hasRoom database = true)
    {who : Identity} {text database table column word : String}
    (hparse : Statement.parse text = .ok (.search table column word))
    (hdatabase : who.requireDatabase = .ok database) (hroom' : Database.hasRoom database = true)
    (indexed : run.last.disk.WordIndexed database table column)
    (hids : Engine.DistinctSince run.executions indexed.home table column .words)
    (hids' : run.last.disk.HasDistinct indexed.home table)
    (hrole : indexed.schema.require who.role .read = .ok ())
    (hword : Text.isSmall word.toList = true) :
    (Engine.run (some who) text run.last).1 = .ok (indexed.answer word) := by
  obtain ⟨hindexes, htracks⟩ := run.tracks hinline hapart hroom
  have hnamed := Statement.isWellNamed_of_parse hparse
  rw [Command.isWellNamed, Bool.and_eq_true] at hnamed
  rw [Engine.run_of_parse hparse, Engine.perform_search, Action.ofExcept_bind, hdatabase]
  exact run.isSound_last.search_of_tracks hindexes indexed
    (htracks indexed.home table column hnamed.1 hnamed.2 hids) hids' hroom' hnamed.1 hnamed.2 hrole hword

namespace Run

/-- The schema of a table of names. -/
def namesSchema : TableSchema where
  database := "kantor"
  name := "t"
  columns := [.plain "id" .int, .plain "nama" .string]
  permissions := .standard

/-- Rows come and go before their words are indexed and after. -/
def indexedNames : Run :=
  .script "asep" "kantor"
    ["CREATE TABLE t id:INT, nama:STRING", "INSERT t 1|abc xyz", "CREATE FULLTEXT t ON nama",
      "INSERT t 2|Abc", "BEGIN", "INSERT t 3|abc", "UPDATE t SET nama=xyz WHERE id = 1", "COMMIT",
      "DELETE FROM t WHERE id = 3"]

/-- The table of names has a word index in the end of a run, if the run knows its schema. -/
def wordIndexed {e : Engine} (hsound : e.IsSound) (hknown : e.knownSchema "kantor" "t" = .ok namesSchema)
    {rows : List String} (hrows : Table.rows e.disk "kantor" "t" = .ok rows)
    (hhome : Database.LiesAt e.disk "kantor" ["db_kantor"])
    (hpresent : Index.isPresent e.disk "kantor" "t" "nama" .words = true) :
    e.disk.WordIndexed "kantor" "t" "nama" where
  home := ["db_kantor"]
  schema := namesSchema
  position := 1
  rows := rows
  liesAt := hhome
  described := hsound.readSchema (by decide) hknown
  indexed := by decide
  present := hpresent
  stored := hrows

theorem search_indexedNames :
    (Engine.run (some ⟨"asep", .user, some "kantor"⟩) "SEARCH t ON nama FOR abc" indexedNames.last).1
      = .ok (.ofRows ["id", "nama"] [["2", "Abc"]]) := by
  have hrun : indexedNames.settings.background = false ∧ indexedNames.settings.isApart = true ∧
      (∀ x ∈ indexedNames.executions, x.who.database = some "kantor" ∧
        x.isDistinct ["db_kantor"] "t" = true) ∧
      indexedNames.last.disk.isDistinct ["db_kantor"] "t" = true ∧
      indexedNames.last.knownSchema "kantor" "t" = .ok namesSchema ∧
      Table.rows indexedNames.last.disk "kantor" "t" = .ok ["1|xyz", "2|Abc"] ∧
      Database.LiesAt indexedNames.last.disk "kantor" ["db_kantor"] ∧
      Index.isPresent indexedNames.last.disk "kantor" "t" "nama" .words = true := by
    unfold Database.LiesAt
    decide +kernel
  obtain ⟨hinline, hapart, hexecutions, hids, hknown, hrows, hhome, hpresent⟩ := hrun
  have hparse : Statement.parse "SEARCH t ON nama FOR abc" = .ok (.search "t" "nama" "abc") := by
    decide +kernel
  have hroom : ∀ x ∈ indexedNames.executions, ∀ database, x.who.requireDatabase = .ok database →
      Database.hasRoom database = true := by
    intro x hx database hdatabase
    rw [Identity.requireDatabase, (hexecutions x hx).1] at hdatabase
    obtain rfl : "kantor" = database := Except.ok.inj hdatabase
    decide
  have hdatabase : Identity.requireDatabase ⟨"asep", .user, some "kantor"⟩ = .ok "kantor" := rfl
  have hrole : namesSchema.require .user .read = .ok () := by decide
  have hanswer : Outcome.ofRows namesSchema.fieldNames
      ((["1|xyz", "2|Abc"].filter (Index.holdsWord "abc" 1)).map Row.fields)
        = .ofRows ["id", "nama"] [["2", "Abc"]] := by
    decide +kernel
  have hsearch := indexedNames.search_eq_answer hinline hapart hroom hparse hdatabase (by decide)
    (wordIndexed indexedNames.isSound_last hknown hrows hhome hpresent)
    (fun earlier x later hsplit => .inl
      (Execution.hasDistinct_of_isDistinct (hexecutions x (by rw [hsplit]; simp)).2))
    (Disk.hasDistinct_of_isDistinct hids) hrole (by decide)
  exact hsearch.trans (congrArg Except.ok hanswer)

/-- Two rows that share what stands in their first field. -/
def sharedName : Run :=
  .script "asep" "kantor"
    ["CREATE TABLE t id:INT, nama:STRING", "CREATE FULLTEXT t ON nama", "INSERT t 1|abc", "INSERT t 1|xyz"]

/-- The row that holds the word brings the other one with it. -/
theorem not_search_eq_answer :
    ¬∀ (run : Run) (who : Identity) (text database table column word : String),
      run.settings.background = false →
        Statement.parse text = .ok (.search table column word) →
          who.requireDatabase = .ok database →
            ∀ indexed : run.last.disk.WordIndexed database table column,
              indexed.schema.require who.role .read = .ok () → Text.isSmall word.toList = true →
                2 < word.length →
                  (Engine.run (some who) text run.last).1 = .ok (indexed.answer word) := by
  intro h
  have hrun : sharedName.settings.background = false ∧
      sharedName.last.knownSchema "kantor" "t" = .ok namesSchema ∧
      Table.rows sharedName.last.disk "kantor" "t" = .ok ["1|abc", "1|xyz"] ∧
      Database.LiesAt sharedName.last.disk "kantor" ["db_kantor"] ∧
      Index.isPresent sharedName.last.disk "kantor" "t" "nama" .words = true ∧
      (Engine.run (some ⟨"asep", .user, some "kantor"⟩) "SEARCH t ON nama FOR abc" sharedName.last).1
        = .ok (.ofRows ["id", "nama"] [["1", "abc"], ["1", "xyz"]]) := by
    unfold Database.LiesAt
    decide +kernel
  obtain ⟨hinline, hknown, hrows, hhome, hpresent, hsearch⟩ := hrun
  have hparse : Statement.parse "SEARCH t ON nama FOR abc" = .ok (.search "t" "nama" "abc") := by
    decide +kernel
  have hrole : namesSchema.require .user .read = .ok () := by decide
  have hanswer : Outcome.ofRows namesSchema.fieldNames
      ((["1|abc", "1|xyz"].filter (Index.holdsWord "abc" 1)).map Row.fields)
        = .ofRows ["id", "nama"] [["1", "abc"]] := by
    decide +kernel
  have hclaim := h sharedName ⟨"asep", .user, some "kantor"⟩ _ _ _ _ _ hinline hparse rfl
    (wordIndexed sharedName.isSound_last hknown hrows hhome hpresent) hrole (by decide) (by decide)
  have hboth := hsearch.symm.trans (hclaim.trans (congrArg Except.ok hanswer))
  exact absurd hboth (by decide)

end Run

end FlatFileDb
