import FlatFileDb.Proofs.Prefix

/-!
# The log over its uses

An entry is written on a line of its own, and the line reads back as the entry. So where the text of a
log is empty or ends with a line break, what is written behind it is read behind what was readable:
lines that hold no entry stay where they are and change nothing. The numbers go on from the highest
one, also when the log is opened again in between. A log whose last line is not ended is another
matter: the next entry is written on that very line.
-/

namespace FlatFileDb

/-! ### Values on one line -/

namespace Json

theorem toNat_hexDigit {n : Nat} (h : n < 16) : 32 ≤ (hexDigit n).toNat := by
  interval_cases n <;> decide

/-- Control characters are escaped. -/
theorem toNat_of_mem_escapeChar {c d : Char} (h : d ∈ escapeChar c) : 32 ≤ d.toNat := by
  have hpair {letter : Char} (hletter : 32 ≤ letter.toNat) (hd : d ∈ ['\\', letter]) :
      32 ≤ d.toNat := by
    rw [List.mem_cons, List.mem_singleton] at hd
    rcases hd with rfl | rfl
    · decide
    · exact hletter
  unfold escapeChar at h
  split_ifs at h with hquote hslash h8 h9 h10 h12 h13 hcontrol
  · exact hpair (by decide) h
  · exact hpair (by decide) h
  · exact hpair (by decide) h
  · exact hpair (by decide) h
  · exact hpair (by decide) h
  · exact hpair (by decide) h
  · exact hpair (by decide) h
  · simp only [List.mem_cons, List.not_mem_nil, or_false] at h
    rcases h with rfl | rfl | rfl | rfl | rfl | rfl
    · decide
    · decide
    · decide
    · decide
    · exact toNat_hexDigit (by omega)
    · exact toNat_hexDigit (by omega)
  · rw [List.mem_singleton.1 h]
    exact Nat.le_of_not_lt hcontrol

theorem isLine_of_toNat {text : String} (h : ∀ c ∈ text.toList, 32 ≤ c.toNat) : Text.IsLine text :=
  ⟨fun hbreak => absurd (h _ hbreak) (by decide), fun hreturn => absurd (h _ hreturn) (by decide)⟩

theorem isLine_quote (text : String) : Text.IsLine (quote text) := by
  refine isLine_of_toNat fun c hc => ?_
  rw [toList_quote, List.mem_append, List.mem_cons, List.mem_flatMap, List.mem_singleton] at hc
  rcases hc with (rfl | ⟨d, -, hc⟩) | rfl
  · decide
  · exact toNat_of_mem_escapeChar hc
  · decide

theorem isLine_intercalate {parts : List String} (h : ∀ part ∈ parts, Text.IsLine part) :
    Text.IsLine (",".intercalate parts) := by
  induction parts with
  | nil => decide
  | cons part rest ih =>
    have hpart := h part (by simp)
    have hinside := ih fun other hother => h other (by simp [hother])
    cases rest with
    | nil =>
      rw [String.intercalate_singleton]
      exact hpart
    | cons next more =>
      rw [String.intercalate_cons_cons]
      exact Text.isLine_append (Text.isLine_append hpart (by decide)) hinside

mutual

/-- The compact layout breaks no line. -/
theorem isLine_compact (value : Json) (h : isWhole value = true) : Text.IsLine (compact value) := by
  match value with
  | null => decide
  | bool true => decide
  | bool false => decide
  | natural n =>
    refine isLine_of_toNat fun c hc => ?_
    have hc : c ∈ Number.decimalDigits n := by simpa [compact, scalar] using hc
    have hdigit := Number.isDigit_of_mem_decimalDigits hc
    rw [Char.isDigit, Bool.and_eq_true, decide_eq_true_eq] at hdigit
    exact Nat.le_trans (by decide) (UInt32.le_iff_toNat_le.1 hdigit.1)
  | string text => simpa [compact, scalar] using isLine_quote text
  | array elements =>
    rw [compact]
    exact Text.isLine_append (Text.isLine_append (by decide)
      (isLine_intercalate (isLine_compactElements elements (by rwa [isWhole] at h)))) (by decide)
  | object members =>
    rw [compact]
    exact Text.isLine_append (Text.isLine_append (by decide)
      (isLine_intercalate (isLine_compactMembers members (by rwa [isWhole] at h)))) (by decide)

private theorem isLine_compactElements (values : List Json) (h : areWhole values = true) :
    ∀ part ∈ compactElements values, Text.IsLine part := by
  match values with
  | [] => simp [compactElements]
  | value :: rest =>
    rw [areWhole, Bool.and_eq_true] at h
    rw [compactElements, List.forall_mem_cons]
    exact ⟨isLine_compact value h.1, isLine_compactElements rest h.2⟩

private theorem isLine_compactMembers (members : List (String × Json))
    (h : membersAreWhole members = true) : ∀ part ∈ compactMembers members, Text.IsLine part := by
  match members with
  | [] => simp [compactMembers]
  | (name, value) :: rest =>
    rw [membersAreWhole, Bool.and_eq_true] at h
    rw [compactMembers, List.forall_mem_cons]
    exact ⟨Text.isLine_append (Text.isLine_append (isLine_quote name) (by decide))
      (isLine_compact value h.1), isLine_compactMembers rest h.2⟩

end

end Json

/-! ### Lines behind ended lines -/

namespace Text

/-- Whether every line of a text is ended. -/
def IsEnded (text : String) : Prop :=
  text = "" ∨ ∃ front, text.toList = front ++ ['\n']

theorem IsEnded.append {first second : String} (hfirst : IsEnded first) (hsecond : IsEnded second) :
    IsEnded (first ++ second) := by
  rcases hsecond with rfl | ⟨front, hfront⟩
  · simpa using hfirst
  · exact .inr ⟨first.toList ++ front, by rw [String.toList_append, hfront, List.append_assoc]⟩

theorem isEnded_ofLines (lines : List String) : IsEnded (ofLines lines) := by
  induction lines with
  | nil => exact .inl rfl
  | cons line rest ih =>
    have hline : ofLines (line :: rest) = (line ++ "\n") ++ ofLines rest := by
      simp [ofLines]
    rw [hline]
    exact IsEnded.append (.inr ⟨line.toList, by simp⟩) ih

theorem lines_append {text : String} (h : IsEnded text) (more : String) :
    lines (text ++ more) = lines text ++ lines more := by
  rcases h with rfl | ⟨front, hfront⟩
  · simp [lines, terminated]
  · rw [lines, lines, lines, String.toList_append, hfront, List.append_assoc, List.singleton_append,
      List.splitOn_append_cons_self, List.splitOn_append_cons_self, List.map_append, List.map_append,
      terminated_append _ (by simp), terminated_append _ (by simp)]
    simp [terminated]

theorem filledLines_append_of_isEnded {text : String} (h : IsEnded text) (more : String) :
    filledLines (text ++ more) = filledLines text ++ filledLines more := by
  rw [filledLines, lines_append h, List.filter_append]
  rfl

theorem lines_ended {line : String} (hbreak : '\n' ∉ line.toList) :
    lines (line ++ "\n") = [dropReturn line] := by
  have hpieces : (line ++ "\n").toList.splitOn '\n' = [line.toList, []] := by
    rw [String.toList_append]
    exact (List.splitOn_append_cons_self_of_not_mem hbreak []).trans (by simp)
  rw [lines, hpieces]
  simp [terminated]

end Text

/-! ### Entries -/

namespace Log

namespace Entry

/-- Whether the numbers of an entry fit into 64 bits. -/
def IsStorable (entry : Entry) : Prop :=
  entry.number < 2 ^ 64 ∧ entry.timestamp < 2 ^ 64

instance (entry : Entry) : Decidable entry.IsStorable :=
  inferInstanceAs (Decidable (_ ∧ _))

theorem ofJson?_toJson {entry : Entry} (h : entry.IsStorable) : ofJson? entry.toJson = some entry := by
  obtain ⟨number, transaction, user, timestamp, operation, database, table, rowId, row, before⟩ := entry
  have hnumber : (Json.natural number).natural? = some number := if_pos h.1
  have htimestamp : (Json.natural timestamp).natural? = some timestamp := if_pos h.2
  rw [ofJson?, toJson, Json.record?_object (by rfl) (by decide)]
  change ((Json.natural number).natural?).bind _ = _
  rw [hnumber]
  change ((Json.natural timestamp).natural?).bind _ = _
  rw [htimestamp]
  change (Operation.ofWord? operation.word).bind _ = _
  rw [Operation.ofWord?_word]
  cases before <;> rfl

theorem isWhole_toJson (entry : Entry) : entry.toJson.isWhole = true := by
  obtain ⟨number, transaction, user, timestamp, operation, database, table, rowId, row, before⟩ := entry
  cases before <;> rfl

end Entry

variable {entries : List Entry}

theorem readEntry?_line {entry : Entry} (h : entry.IsStorable) : readEntry? (line entry) = some entry := by
  rw [ readEntry?, line, Json.ofText?_compact entry.isWhole_toJson, Option.bind_some,
    Entry.ofJson?_toJson h]

theorem isLine_line (entry : Entry) : Text.IsLine (line entry) :=
  Json.isLine_compact _ entry.isWhole_toJson

theorem brace_mem_line (entry : Entry) : '\x7b' ∈ (line entry).toList := by
  rw [line, Entry.toJson, Json.compact]
  simp

/-- A line counts when an entry is written on it, whatever stands before. -/
theorem isFilled_append_line (front : String) (entry : Entry) :
    Text.isFilled (front ++ line entry) = true := by
  have hbrace : '\x7b' ∈ (front ++ line entry).toList := by
    rw [String.toList_append]
    exact List.mem_append_right _ (brace_mem_line entry)
  rw [Text.isFilled, Bool.not_eq_true', List.all_eq_false]
  exact ⟨_, hbrace, by decide⟩

theorem entriesOf_ofLines (h : ∀ entry ∈ entries, entry.IsStorable) :
    entriesOf (Text.ofLines (entries.map line)) = entries := by
  have hlines : ∀ text ∈ entries.map line, Text.IsLine text := by
    rw [List.forall_mem_map]
    exact fun entry _ => isLine_line entry
  have hfilled : ∀ text ∈ entries.map line, Text.isFilled text = true := by
    rw [List.forall_mem_map]
    intro entry _
    have hfilled := isFilled_append_line "" entry
    rwa [String.empty_append] at hfilled
  have hread : ∀ entry ∈ entries, ( readEntry? ∘ line) entry = some entry := by
    intro entry hentry
    rw [Function.comp_apply, readEntry?_line (h entry hentry)]
  rw [entriesOf, (Text.lists_ofLines hlines).filledLines, List.filter_eq_self.2 hfilled,
    List.filterMap_map, List.filterMap_congr hread, List.filterMap_some]

theorem entriesOf_append {text : String} (h : Text.IsEnded text) (more : String) :
    entriesOf (text ++ more) = entriesOf text ++ entriesOf more := by
  rw [entriesOf, Text.filledLines_append_of_isEnded h, List.filterMap_append]
  rfl

/-- Where the last line is not ended, the first entry is written on that very line, and can be read
only if the line can. The entries behind it stand on lines of their own. -/
theorem entriesOf_append_of_unended {text tail : String} (h : Text.IsEnded text)
    (htail : '\n' ∉ tail.toList) (first : Entry) (hrest : ∀ entry ∈ entries, entry.IsStorable) :
    entriesOf (text ++ tail ++ Text.ofLines ((first :: entries).map line))
      = entriesOf text ++ ( readEntry? (tail ++ line first)).toList ++ entries := by
  have hshared : '\n' ∉ (tail ++ line first).toList := by
    rw [String.toList_append, List.mem_append, not_or]
    exact ⟨htail, (isLine_line first).1⟩
  have hkept : Text.dropReturn (tail ++ line first) = tail ++ line first := by
    rw [Text.dropReturn, if_neg]
    rw [String.endsWith_char_eq_getLast?, beq_iff_eq, String.toList_append,
      List.getLast?_append_of_ne_nil _ (List.ne_nil_of_mem (brace_mem_line first))]
    exact fun hlast => (isLine_line first).2 (List.mem_of_getLast? hlast)
  have hline : entriesOf (tail ++ line first ++ "\n") = ( readEntry? (tail ++ line first)).toList := by
    have hlines : Text.filledLines (tail ++ line first ++ "\n") = [tail ++ line first] := by
      rw [Text.filledLines, Text.lines_ended hshared, hkept]
      exact List.filter_cons_of_pos (isFilled_append_line tail first)
    rw [entriesOf, hlines]
    cases hread : readEntry? (tail ++ line first) <;> simp [hread]
  have hsplit : text ++ tail ++ Text.ofLines ((first :: entries).map line)
      = text ++ ((tail ++ line first ++ "\n") ++ Text.ofLines (entries.map line)) := by
    simp [Text.ofLines, String.append_assoc]
  have hended : Text.IsEnded (tail ++ line first ++ "\n") := .inr ⟨_, String.toList_append⟩
  rw [hsplit, entriesOf_append h, entriesOf_append hended, hline, entriesOf_ofLines hrest,
    List.append_assoc]

/-! ### Numbers -/

/-- The highest number of some entries, zero if there are none. -/
def highest (entries : List Entry) : Nat :=
  entries.foldl (fun highest entry => max highest entry.number) 0

/-- Entries numbered one after the other, the first one behind `last`. -/
def numberedBehind (last : Nat) (entries : List Entry) : List Entry :=
  entries.mapIdx fun position entry => { entry with number := last + 1 + position }

theorem numberedBehind_cons (last : Nat) (entry : Entry) (rest : List Entry) :
    numberedBehind last (entry :: rest)
      = { entry with number := last + 1 } :: numberedBehind (last + 1) rest := by
  rw [numberedBehind, List.mapIdx_cons, numberedBehind]
  simp only [Nat.add_zero, Nat.add_assoc, Nat.add_comm 1]

theorem numberedBehind_append (last : Nat) (first second : List Entry) :
    numberedBehind last (first ++ second)
      = numberedBehind last first ++ numberedBehind (last + first.length) second := by
  rw [numberedBehind, List.mapIdx_append]
  simp only [numberedBehind, Nat.add_assoc, Nat.add_left_comm, Nat.add_comm]

/-- While the numbers fit into 64 bits, none of them comes again. -/
theorem numbered_eq_numberedBehind {last : Nat} (h : last + entries.length < 2 ^ 64) :
    numbered (numberAfter last 1) entries = numberedBehind last entries := by
  induction entries generalizing last with
  | nil => rfl
  | cons entry rest ih =>
    rw [List.length_cons] at h
    have hnext : numberAfter last 1 = last + 1 := Nat.mod_eq_of_lt (by omega)
    rw [numbered, numberedBehind_cons, hnext, ih (by omega)]

theorem highest_append_numberedBehind (entries added : List Entry) :
    highest (entries ++ numberedBehind (highest entries) added) = highest entries + added.length := by
  rw [highest, List.foldl_append]
  change (numberedBehind (highest entries) added).foldl _ (highest entries) = _
  generalize highest entries = last
  induction added generalizing last with
  | nil => rfl
  | cons entry rest ih =>
    rw [numberedBehind_cons, List.foldl_cons, Nat.max_eq_right (Nat.le_succ last), ih,
      List.length_cons]
    omega

theorem isStorable_of_mem_numberedBehind {last : Nat} {entry : Entry}
    (htimes : ∀ entry ∈ entries, entry.timestamp < 2 ^ 64) (hroom : last + entries.length < 2 ^ 64)
    (h : entry ∈ numberedBehind last entries) : entry.IsStorable := by
  obtain ⟨position, hposition, rfl⟩ := List.mem_mapIdx.1 h
  have hnumber : last + 1 + position < 2 ^ 64 := by omega
  have htime : entries[position].timestamp < 2 ^ 64 := htimes _ (List.getElem_mem hposition)
  exact ⟨hnumber, htime⟩

/-! ### Writing and opening -/

variable {disk : Disk} {path : Path} {text : String}

theorem write_of_text {log : Log} (h : disk.textAt log.path = .ok text) (entries : List Entry) :
    ∃ logged, log.write entries disk = (.ok (), logged) ∧
      logged.textAt log.path = .ok (text ++ Text.ofLines (entries.map line)) := by
  obtain ⟨found, hlocate⟩ := Disk.textAt_eq_ok.1 h
  have hplace := Disk.filePlace?_of_file hlocate
  have hread : Action.read (·.textOr .fileFailure log.path) disk = (.ok text, disk) := by
    rw [Action.read_apply, Disk.textOr_eq_ok.2 h]
  refine ⟨_, ?_, Disk.textAt_eq_ok.2 ⟨found, Disk.locate_put hplace _⟩⟩
  rw [write, Disk.appendFile, Action.bind_of_ok hread]
  exact Disk.writeFile_of_place hplace _

/-- A log that is there is opened as it is. -/
theorem openAt_of_text (h : disk.textAt path = .ok text) :
    openAt path disk = (.ok ⟨path, nextNumber (entriesOf text)⟩, disk) := by
  have hmade := Disk.makeDirectories_holder h
  have hthere : disk.hasEntry path = true := by
    obtain ⟨found, hlocate⟩ := Disk.textAt_eq_ok.1 h
    rw [Disk.hasEntry, Disk.entryAt, hlocate]
    rfl
  have hread : entries disk ⟨path, 1⟩ = .ok (entriesOf text) := by
    rw [entries, Disk.textOr_eq_ok.2 h]
    rfl
  rw [openAt, Action.bind_of_ok hmade, Action.get_bind, if_pos hthere, hread]
  rfl

/-- A use of the log of an engine. -/
inductive Use where
  | write (changes : List Entry)
  | reopen
  deriving DecidableEq, Repr

/-- The changes that a use writes to the log. -/
def Use.changes : Use → List Entry
  | write changes => changes
  | reopen => []

end Log

namespace Engine

/-- The engine after a use of its log, if that goes well. -/
def useLog (engine : Engine) : Log.Use → Except Error Engine
  | .write changes =>
    match logChanges changes engine with
    | (.ok _, after) => .ok after
    | (.error failure, _) => .error failure
  | .reopen => engine.reopen

/-- The log is open and holds some entries, and every line of it is ended. -/
structure Records (e : Engine) (entries : List Log.Entry) : Prop where
  path : e.log.path = Path.log e.settings
  next : e.log.next = Log.nextNumber entries
  text : ∃ text, e.disk.textAt e.log.path = .ok text ∧ Text.IsEnded text ∧
    Log.entriesOf text = entries

variable {e : Engine} {entries : List Log.Entry} {settings : Settings} {clock : Nat} {disk : Disk}
  {text : String}

theorem Records.entries_eq (h : e.Records entries) : Log.entries e.disk e.log = .ok entries := by
  obtain ⟨text, htext, -, hentries⟩ := h.text
  rw [Log.entries, Disk.textOr_eq_ok.2 htext, ← hentries]
  rfl

theorem Records.write (h : e.Records entries) {changes : List Log.Entry}
    (htimes : ∀ change ∈ changes, change.timestamp < 2 ^ 64)
    (hroom : Log.highest entries + changes.length < 2 ^ 64) :
    ∃ after, e.useLog (.write changes) = .ok after ∧
      after.Records (entries ++ Log.numberedBehind (Log.highest entries) changes) := by
  obtain ⟨text, htext, hended, hentries⟩ := h.text
  have hnumbered : Log.numbered e.log.next changes
      = Log.numberedBehind (Log.highest entries) changes := by
    rw [h.next]
    exact Log.numbered_eq_numberedBehind hroom
  have hnext : Log.numberAfter e.log.next changes.length
      = Log.nextNumber (entries ++ Log.numberedBehind (Log.highest entries) changes) := by
    rw [Log.nextNumber, ← Log.highest, Log.highest_append_numberedBehind, h.next, Log.nextNumber,
      ← Log.highest, Log.numberAfter, Log.numberAfter, Log.numberAfter, Nat.mod_add_mod,
      Nat.add_right_comm]
  obtain ⟨logged, hwrite, hlogged⟩ := Log.write_of_text htext (Log.numbered e.log.next changes)
  rcases logChanges_apply changes e with ⟨hno, -⟩ | ⟨logged', hwrite', hrun⟩
  · exact absurd (congrArg Prod.fst hwrite) hno
  obtain rfl : logged' = logged := congrArg Prod.snd (hwrite'.symm.trans hwrite)
  have hafter : e.useLog (.write changes) = .ok
      { e with
        disk := logged'
        log := { e.log with
          next := Log.numberAfter e.log.next (Log.numbered e.log.next changes).length } } := by
    rw [useLog, hrun]
  refine ⟨_, hafter, h.path, ?_, ?_⟩
  · rw [Log.length_numbered]
    exact hnext
  · refine ⟨_, hlogged, hended.append (Text.isEnded_ofLines _), ?_⟩
    rw [Log.entriesOf_append hended, hentries, hnumbered, Log.entriesOf_ofLines]
    exact fun entry hentry => Log.isStorable_of_mem_numberedBehind htimes hroom hentry

/-- A log that is there is opened without a change. -/
theorem openOn_of_text (h : disk.textAt (Path.log settings) = .ok text) (clock : Nat) :
    openOn settings clock disk = .ok
      { settings, disk, clock
        log := ⟨Path.log settings, Log.nextNumber (Log.entriesOf text)⟩
        schemas := .empty
        transactions := .empty
        role := .master
        latestJobs := [] } := by
  unfold openOn
  rw [Log.openAt_of_text h]

theorem Records.reopen (h : e.Records entries) :
    ∃ after, e.useLog .reopen = .ok after ∧ after.Records entries := by
  obtain ⟨text, htext, hended, rfl⟩ := h.text
  rw [h.path] at htext
  exact ⟨_, openOn_of_text htext e.clock, { path := rfl, next := rfl, text := ⟨text, htext, hended, rfl⟩ }⟩

/-- An opened log holds what its text does. -/
theorem records_openOn (h : openOn settings clock disk = .ok e)
    (htext : e.disk.textAt e.log.path = .ok text) (hended : Text.IsEnded text) :
    e.Records (Log.entriesOf text) := by
  have hpath := (isOpen_openOn h).path
  obtain ⟨log, after, hopen, rfl⟩ := openOn_eq_ok h
  obtain ⟨text', htext', hnext⟩ := Log.openAt_next hopen
  obtain rfl : text' = text := by
    rw [← (show log.path = Path.log settings from hpath)] at htext'
    exact Except.ok.inj (htext'.symm.trans htext)
  exact ⟨hpath, hnext, _, htext, hended, rfl⟩

theorem Records.uses (h : e.Records entries) {uses : List Log.Use}
    (htimes : ∀ use ∈ uses, ∀ change ∈ use.changes, change.timestamp < 2 ^ 64)
    (hroom : Log.highest entries + (uses.flatMap Log.Use.changes).length < 2 ^ 64) :
    ∃ last, uses.foldlM useLog e = .ok last ∧ last.Records
      (entries ++ Log.numberedBehind (Log.highest entries) (uses.flatMap Log.Use.changes)) := by
  induction uses generalizing e entries with
  | nil => exact ⟨e, rfl, by simpa [Log.numberedBehind] using h⟩
  | cons use rest ih =>
    have hrest := fun other hother => htimes other (List.mem_cons_of_mem use hother)
    rw [List.flatMap_cons, List.length_append] at hroom
    cases use with
    | write changes =>
      change Log.highest entries + (changes.length + _) < _ at hroom
      have hwritten : ∀ change ∈ changes, change.timestamp < 2 ^ 64 :=
        htimes (.write changes) (by simp)
      obtain ⟨after, hafter, hrecords⟩ := h.write hwritten (by omega)
      obtain ⟨last, hlast, hall⟩ := ih hrecords hrest
        (by rw [Log.highest_append_numberedBehind]; omega)
      refine ⟨last, by rw [List.foldlM_cons, hafter]; exact hlast, ?_⟩
      rw [Log.highest_append_numberedBehind, List.append_assoc, ← Log.numberedBehind_append] at hall
      exact hall
    | reopen =>
      change Log.highest entries + (0 + _) < _ at hroom
      obtain ⟨after, hafter, hrecords⟩ := h.reopen
      obtain ⟨last, hlast, hall⟩ := ih hrecords hrest (by omega)
      exact ⟨last, by rw [List.foldlM_cons, hafter]; exact hlast, hall⟩

/-- However often a log is written and opened again, and whatever lines without an entry it holds:
what was readable at first is, then all that was written, numbered on from the highest number. Only
the last line has to be ended when the log is opened first. -/
theorem entries_after_uses (hopened : openOn settings clock disk = .ok e)
    (htext : e.disk.textAt e.log.path = .ok text) (hended : Text.IsEnded text)
    {uses : List Log.Use}
    (htimes : ∀ use ∈ uses, ∀ change ∈ use.changes, change.timestamp < 2 ^ 64)
    (hroom : Log.highest (Log.entriesOf text) + (uses.flatMap Log.Use.changes).length < 2 ^ 64) :
    ∃ last, uses.foldlM useLog e = .ok last ∧
      Log.entries last.disk last.log = .ok (Log.entriesOf text ++
        Log.numberedBehind (Log.highest (Log.entriesOf text)) (uses.flatMap Log.Use.changes)) := by
  obtain ⟨last, hlast, hrecords⟩ := (records_openOn hopened htext hended).uses htimes hroom
  exact ⟨last, hlast, hrecords.entries_eq⟩

/-- A change as it waits for its number. -/
def someChange : Log.Entry where
  number := 0
  transaction := "tx_1_ana"
  user := "ana"
  timestamp := 5
  operation := .insert
  database := "shop"
  table := "items"
  rowId := "1"
  row := "1|tea"
  before := none

/-- The text of a log: a line that is no entry, and one that is. -/
def someText : String :=
  "broken\n" ++ Text.ofLines ([{ someChange with number := 7 }].map Log.line)

/-- A disk with nothing but a log. -/
def logOnly (text : String) : Disk :=
  Disk.empty.put ["wal.log"] (.file text)

theorem textAt_logOnly (text : String) : (logOnly text).textAt (Path.log .standard) = .ok text := by
  have hpath : Path.log .standard = ["wal.log"] := by decide
  rw [hpath]
  rfl

theorem entries_after_reopening :
    ∃ opened last, openOn .standard 0 (logOnly someText) = .ok opened ∧
      [Log.Use.write [someChange, someChange], .reopen, .write [someChange]].foldlM useLog opened
        = .ok last ∧
      (Log.entries last.disk last.log).map (·.map Log.Entry.number) = .ok [7, 8, 9, 10] := by
  have htext : (logOnly someText).textAt (Path.log .standard) = .ok someText :=
    textAt_logOnly someText
  have hbroken : Text.IsEnded "broken\n" := .inr ⟨"broken".toList, by decide⟩
  have hnone : Log.entriesOf "broken\n" = [] := by decide +kernel
  have hstorable : ∀ entry ∈ [{ someChange with number := 7 }], entry.IsStorable := by
    decide
  have hentries : Log.entriesOf someText = [{ someChange with number := 7 }] := by
    rw [someText, Log.entriesOf_append hbroken, hnone, List.nil_append,
      Log.entriesOf_ofLines hstorable]
  have htimes : ∀ use ∈ [Log.Use.write [someChange, someChange], .reopen, .write [someChange]],
      ∀ change ∈ use.changes, change.timestamp < 2 ^ 64 := by decide
  obtain ⟨last, hlast, hkept⟩ := entries_after_uses (openOn_of_text htext 0) htext
    (hbroken.append (Text.isEnded_ofLines _)) htimes (by rw [hentries]; decide)
  refine ⟨_, last, openOn_of_text htext 0, hlast, ?_⟩
  rw [hkept, hentries]
  decide

-- An entry that is written on a line that is not ended is lost with that line.
example : Log.readEntry? ("torn" ++ Log.line someChange) = none := by
  decide +kernel

end Engine

end FlatFileDb
