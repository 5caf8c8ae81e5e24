import FlatFileDb.Proofs.Json
import FlatFileDb.Proofs.Maintain
import FlatFileDb.Proofs.Patching
import Mathlib.Data.List.Find
import Mathlib.Data.List.Nodup

/-!
# Triggers by table, event and name

A sequence of saves leaves in the directory of the triggers, under each file name, what was saved last
under it. That holds whatever the names are. The name of a file does not tell where the name of the
table ends, so triggers of two tables may share a file, and then the later save takes the earlier one
away. As long as that does not happen to a table and an event, looking up their triggers gives the
last one that was saved under each name.
-/

namespace FlatFileDb

/-! ### Lists -/

/-- Results that are all there are those that a partial function lists. -/
theorem Action.mapM_eq_filterMap {α β : Type} {f : α → Except Error β} {g : α → Option β}
    {list : List α} (h : ∀ a ∈ list, ∃ b, g a = some b ∧ f a = .ok b) :
    list.mapM f = .ok (list.filterMap g) := by
  induction list with
  | nil => rfl
  | cons a rest ih =>
    obtain ⟨b, hg, hf⟩ := h a (by simp)
    rw [List.mapM_cons, hf, ih fun other hother => h other (by simp [hother]),
      List.filterMap_cons_some hg]
    rfl

section Sorted

variable {α : Type} {before : α → α → Bool}

/-- An element is put between those that come before it and those that it comes before. -/
theorem pairwise_putInOrder (htrans : ∀ a b c, before a b → before b c → before a c) {x : α}
    {xs : List α} (hsorted : xs.Pairwise fun a b => before a b)
    (htotal : ∀ y ∈ xs, before x y ∨ before y x) :
    (putInOrder before x xs).Pairwise fun a b => before a b := by
  induction xs with
  | nil => exact List.pairwise_singleton _ x
  | cons y rest ih =>
    obtain ⟨hy, hrest⟩ := List.pairwise_cons.1 hsorted
    rw [putInOrder]
    split
    · rename_i hfirst
      refine List.pairwise_cons.2
        ⟨fun z hz => ?_, ih hrest fun z hz => htotal z (List.mem_cons_of_mem y hz)⟩
      rcases List.mem_cons.1 ((perm_putInOrder before x rest).mem_iff.1 hz) with rfl | hz
      · exact hfirst
      · exact hy z hz
    · rename_i hlast
      have hx : before x y := (htotal y (by simp)).resolve_right hlast
      refine List.pairwise_cons.2 ⟨fun z hz => ?_, hsorted⟩
      rcases List.mem_cons.1 hz with rfl | hz
      · exact hx
      · exact htrans x y z hx (hy z hz)

/-- Where of any two elements one comes before the other, sorting puts them in order. -/
theorem pairwise_sortBy (htrans : ∀ a b c, before a b → before b c → before a c) {xs : List α}
    (htotal : xs.Pairwise fun a b => before a b ∨ before b a) :
    (sortBy before xs).Pairwise fun a b => before a b := by
  induction xs with
  | nil => exact .nil
  | cons x rest ih =>
    obtain ⟨hx, hrest⟩ := List.pairwise_cons.1 htotal
    exact pairwise_putInOrder htrans (ih hrest) fun y hy => hx y (mem_sortBy.1 hy)

end Sorted

namespace Disk

variable {disk : Disk} {home place : Path} {name : String}

theorem keys_put (place : Path) (entry : DiskEntry) :
    (disk.put place entry).entries.keys
      = if (place.length, place) ∈ disk.entries.keys then disk.entries.keys
        else disk.entries.keys ++ [(place.length, place)] :=
  Keyed.keys_insert _ _ _

/-- What is put in a directory has its name there once. -/
theorem nodup_namesBelow_put (h : (disk.namesBelow home).Nodup) (place : Path) (entry : DiskEntry) :
    ((disk.put place entry).namesBelow home).Nodup := by
  rw [namesBelow, keys_put]
  split
  · exact h
  rename_i hnew
  rw [List.filterMap_append]
  refine List.nodup_append.2 ⟨h, ?_, fun name hname last hlast hsame => hnew ?_⟩
  · rw [List.filterMap_cons, List.filterMap_nil]
    split <;> simp
  · subst hsame
    obtain ⟨other, hother⟩ := mem_namesBelow.1 hname
    obtain ⟨key, hkey, hplace⟩ := List.mem_filterMap.1 hlast
    obtain rfl := List.mem_singleton.1 hkey
    dsimp only at hplace
    split at hplace
    · rename_i hbelow
      rw [Bool.and_eq_true, beq_iff_eq, beq_iff_eq] at hbelow
      obtain ⟨front, rfl⟩ := List.getLast?_eq_some_iff.1 hplace
      rw [List.dropLast_concat] at hbelow
      rw [hbelow.2]
      exact Keyed.mem_keys_of_get? hother
    · cases hplace

/-- A directory in one that is there is there already, or it is made, or that fails. -/
theorem makeDirectories_name_cases {before : Path} (hname : Path.IsPlain name)
    (hfits : Path.fits name = true) (hhome : disk.locate before = .ok (home, .directory)) :
    makeDirectories (before ++ [name]) disk = (.error .fileFailure, disk) ∨
      ∃ made, (made = disk ∨
          disk.at? (home ++ [name]) = none ∧ made = disk.put (home ++ [name]) .directory) ∧
        made.locate (before ++ [name]) = .ok (home ++ [name], .directory) ∧
        makeDirectories (before ++ [name]) disk = (.ok (), made) := by
  unfold makeDirectories
  split_ifs with hsound
  · rw [makeDirectoriesFrom_append [name] (locate_eq_ok hhome).2, makeDirectoriesFrom_plain hname]
    cases hentry : disk.at? (home ++ [name]) with
    | none =>
      have hgrows : Grows (fun _ => True) (fun _ => True) disk
          (disk.put (home ++ [name]) .directory) := grows_put_directory trivial hentry
      refine .inr ⟨_, .inr ⟨rfl, rfl⟩, ?_, ?_⟩
      · rw [locate_append hsound hname hfits (hgrows.locate hhome), at?_put]
        simp
      · dsimp only
        rw [if_pos (by simp [hfits, endsInPoint])]
        rfl
    | some entry =>
      cases entry with
      | file text => exact .inl rfl
      | directory =>
        refine .inr ⟨disk, .inl rfl, ?_, rfl⟩
        rw [locate_append hsound hname hfits hhome, hentry]
  · exact .inl rfl

end Disk

namespace Trigger

/-- What a trigger is told from others by. -/
def key (definition : TriggerDefinition) : String × Operation × String :=
  (definition.table, definition.event, definition.name)

/-- Whether a trigger can be kept: its names are valid, and the time fits in 64 bits. -/
structure IsStorable (trigger : Trigger) : Prop where
  name : Name.isValid trigger.definition.name = true
  table : Name.isValid trigger.definition.table = true
  created : trigger.created < 2 ^ 64

instance (trigger : Trigger) : Decidable trigger.IsStorable :=
  decidable_of_iff (Name.isValid trigger.definition.name = true ∧
      Name.isValid trigger.definition.table = true ∧ trigger.created < 2 ^ 64)
    ⟨fun h => ⟨h.1, h.2.1, h.2.2⟩, fun h => ⟨h.name, h.table, h.created⟩⟩

theorem ofText?_toJson {trigger : Trigger} (h : trigger.created < 2 ^ 64) :
    (Json.ofText? (trigger.toJson.indented 0)).bind ofJson? = some trigger := by
  have hwhole : Json.isWhole trigger.toJson = true := by
    simp [toJson, Json.isWhole, Json.membersAreWhole]
  rw [Json.ofText?_indented hwhole]
  obtain ⟨⟨name, event, table, action⟩, created⟩ := trigger
  have hcreated : (Json.natural created).natural? = some created := if_pos h
  change (Operation.ofWord? event.word).bind _ = _
  rw [Operation.ofWord?_word]
  change ((Json.natural created).natural?).bind _ = _
  rw [hcreated]
  rfl

theorem IsStorable.path {trigger : Trigger} (h : trigger.IsStorable) (database : String) :
    path database trigger.definition = Path.triggers database ++ [fileName trigger.definition] :=
  path_of_isValid database h.name h.table

/-! ### What was saved last -/

/-- What was saved last with the given property. -/
def lastSaved? (p : Trigger → Bool) (saved : List Trigger) : Option Trigger :=
  saved.reverse.find? p

/-- What was saved last under the name of a file. -/
def lastInFile? (saved : List Trigger) (file : String) : Option Trigger :=
  lastSaved? (fun trigger => fileName trigger.definition == file) saved

/-- What was saved last for a table and an event under a name. -/
def lastUnder? (saved : List Trigger) (wanted : String × Operation × String) : Option Trigger :=
  lastSaved? (fun trigger => key trigger.definition == wanted) saved

theorem lastSaved?_concat (p : Trigger → Bool) (saved : List Trigger) (trigger : Trigger) :
    lastSaved? p (saved ++ [trigger]) = if p trigger then some trigger else lastSaved? p saved := by
  rw [lastSaved?, List.reverse_concat, List.find?_cons]
  cases p trigger <;> rfl

theorem mem_of_lastSaved? {p : Trigger → Bool} {saved : List Trigger} {trigger : Trigger}
    (h : lastSaved? p saved = some trigger) : trigger ∈ saved ∧ p trigger = true :=
  ⟨List.mem_reverse.1 (List.mem_of_find?_eq_some h), List.find?_some h⟩

/-- The trigger as the only one of a list, if it could be saved. -/
def ifSaved (trigger : Trigger) : Except Error Unit → List Trigger
  | .ok () => [trigger]
  | .error _ => []

/-- Saves one trigger after the other; the result lists those that could be saved. -/
def saveAll (database : String) : List Trigger → Disk → List Trigger × Disk
  | [], disk => ([], disk)
  | trigger :: rest, disk =>
    let (result, disk) := save database trigger disk
    let (saved, disk) := saveAll database rest disk
    (ifSaved trigger result ++ saved, disk)

/-- Whether the files of triggers hold, in a database that lies at `home`, what was saved last under
their names. -/
structure Shelves (disk : Disk) (database : String) (home : Path) (saved : List Trigger) : Prop where
  liesAt : Database.LiesAt disk database home
  storable : ∀ trigger ∈ saved, trigger.IsStorable
  files : ∀ file, disk.at? (home ++ ["triggers"] ++ [file])
    = (lastInFile? saved file).map fun trigger => .file (trigger.toJson.indented 0)
  once : (disk.namesBelow (home ++ ["triggers"])).Nodup
  paths : ∀ trigger ∈ saved, disk.locate (Path.triggers database)
      = .ok (home ++ ["triggers"], .directory) ∧
    (Path.triggers database ++ [fileName trigger.definition]).isSound = true ∧
    Path.fits (fileName trigger.definition) = true

variable {disk : Disk} {database : String} {home : Path} {saved : List Trigger}

theorem isPlain_fileName (definition : TriggerDefinition) : Path.IsPlain (fileName definition) :=
  Path.isPlain_append_of_length (by decide)

/-- A save finds or makes the directory of the triggers and puts the file in it, or it fails. -/
theorem save_cases {trigger : Trigger} (h : trigger.IsStorable)
    (hhome : Database.LiesAt disk database home) :
    ∃ made, (made = disk ∨ disk.at? (home ++ ["triggers"]) = none ∧
        made = disk.put (home ++ ["triggers"]) .directory) ∧
      ((∃ e, save database trigger disk = (.error e, made)) ∨
        made.locate (Path.triggers database) = .ok (home ++ ["triggers"], .directory) ∧
        (Path.triggers database ++ [fileName trigger.definition]).isSound = true ∧
        Path.fits (fileName trigger.definition) = true ∧
        save database trigger disk = (.ok (), made.put
          (home ++ ["triggers"] ++ [fileName trigger.definition])
          (.file (trigger.toJson.indented 0)))) := by
  rw [save, Action.read_bind, hhome.require]
  dsimp only
  have hplain : Path.IsPlain "triggers" := Path.isPlain_of_length (by decide)
  rcases Disk.makeDirectories_name_cases hplain (by decide) hhome with
    hfail | ⟨made, hmade, hfolder, hmake⟩
  · exact ⟨disk, .inl rfl, .inl ⟨_, Action.bind_of_error hfail⟩⟩
  refine ⟨made, hmade, ?_⟩
  rw [Path.triggers, Action.bind_of_ok hmake, h.path]
  rcases Disk.writeFile_cases (Path.triggers database ++ [fileName trigger.definition])
    (trigger.toJson.indented 0) made with hwrite | ⟨place, hplace, hwrite⟩
  · exact .inl ⟨_, hwrite⟩
  obtain ⟨before, name, folder, hpath, hsound, hlocate, rfl, -, hfits, -⟩ :=
    Disk.filePlace?_eq_some hplace
  obtain ⟨rfl, hname⟩ := List.append_inj' hpath rfl
  obtain rfl : fileName trigger.definition = name := (List.cons.inj hname).1
  obtain rfl : folder = home ++ ["triggers"] := by
    have hsame := hlocate.symm.trans hfolder
    rw [Except.ok.injEq, Prod.mk.injEq] at hsame
    exact hsame.1
  exact .inr ⟨hfolder, hsound, hfits, hwrite⟩

namespace Shelves

/-- The directory of the triggers may be made. -/
theorem made (h : Shelves disk database home saved) {made : Disk}
    (hmade : made = disk ∨ disk.at? (home ++ ["triggers"]) = none ∧
      made = disk.put (home ++ ["triggers"]) .directory) : Shelves made database home saved := by
  rcases hmade with rfl | ⟨hnone, rfl⟩
  · exact h
  have hgrows : Disk.Grows (fun _ => True) (fun _ => True) disk
      (disk.put (home ++ ["triggers"]) .directory) := Disk.grows_put_directory trivial hnone
  refine ⟨h.liesAt.grows hgrows, h.storable, fun file => ?_, Disk.nodup_namesBelow_put h.once _ _,
    fun trigger htrigger => ?_⟩
  · rw [Disk.at?_put, ← h.files file]
    simp
  · obtain ⟨hfolder, hpath⟩ := h.paths trigger htrigger
    exact ⟨hgrows.locate hfolder, hpath⟩

/-- A save that is done puts the trigger on its shelf. -/
theorem put (h : Shelves disk database home saved) {trigger : Trigger} (htrigger : trigger.IsStorable)
    (hfolder : disk.locate (Path.triggers database) = .ok (home ++ ["triggers"], .directory))
    (hsound : (Path.triggers database ++ [fileName trigger.definition]).isSound = true)
    (hfits : Path.fits (fileName trigger.definition) = true) :
    Shelves (disk.put (home ++ ["triggers"] ++ [fileName trigger.definition])
      (.file (trigger.toJson.indented 0))) database home (saved ++ [trigger]) := by
  have hfree : disk.at? (home ++ ["triggers"] ++ [fileName trigger.definition])
      ≠ some .directory := by
    rw [h.files]
    cases lastInFile? saved (fileName trigger.definition) <;> simp
  have hgrows : Disk.Grows (fun _ => True) (fun _ => True) disk
      (disk.put (home ++ ["triggers"] ++ [fileName trigger.definition])
        (.file (trigger.toJson.indented 0))) := Disk.grows_put_file trivial hfree _
  refine ⟨h.liesAt.grows hgrows, ?_, fun file => ?_, Disk.nodup_namesBelow_put h.once _ _, ?_⟩
  · exact List.forall_mem_append.2 ⟨h.storable, by simpa using htrigger⟩
  · rw [Disk.at?_put, lastInFile?, lastSaved?_concat, h.files file]
    by_cases hfile : fileName trigger.definition = file
    · simp [hfile]
    · have hother : ¬file = fileName trigger.definition := fun hsame => hfile hsame.symm
      simp [hfile, hother, lastInFile?]
  · refine List.forall_mem_append.2 ⟨fun other hother => ?_, fun other hother => ?_⟩
    · exact ⟨hgrows.locate hfolder, (h.paths other hother).2⟩
    · obtain rfl := List.mem_singleton.1 hother
      exact ⟨hgrows.locate hfolder, hsound, hfits⟩

theorem afterSave (h : Shelves disk database home saved) {trigger : Trigger}
    (htrigger : trigger.IsStorable) :
    Shelves (save database trigger disk).2 database home
      (saved ++ ifSaved trigger (save database trigger disk).1) := by
  obtain ⟨made, hmade, ⟨e, hsave⟩ | ⟨hfolder, hsound, hfits, hsave⟩⟩ := save_cases htrigger h.liesAt
  · rw [hsave]
    exact (List.append_nil saved).symm ▸ h.made hmade
  · rw [hsave]
    exact (h.made hmade).put htrigger hfolder hsound hfits

/-- What a sequence of saves leaves in the files. -/
theorem afterSaves (h : Shelves disk database home saved) {saves : List Trigger}
    (hsaves : ∀ trigger ∈ saves, trigger.IsStorable) :
    Shelves (saveAll database saves disk).2 database home
      (saved ++ (saveAll database saves disk).1) := by
  induction saves generalizing disk saved with
  | nil => exact (List.append_nil saved).symm ▸ h
  | cons trigger rest ih =>
    have hrest := ih (h.afterSave (hsaves trigger (by simp))) fun other hother =>
      hsaves other (by simp [hother])
    rw [List.append_assoc] at hrest
    exact hrest

theorem locate_of_lastInFile? (h : Shelves disk database home saved) {file : String}
    {trigger : Trigger} (hfile : lastInFile? saved file = some trigger) :
    fileName trigger.definition = file ∧
      disk.locate (Path.triggers database) = .ok (home ++ ["triggers"], .directory) ∧
      disk.locate (Path.triggers database ++ [file])
        = .ok (home ++ ["triggers"] ++ [file], .file (trigger.toJson.indented 0)) := by
  obtain ⟨htrigger, hname⟩ := mem_of_lastSaved? hfile
  obtain rfl : fileName trigger.definition = file := by simpa using hname
  obtain ⟨hfolder, hsound, hfits⟩ := h.paths trigger htrigger
  refine ⟨rfl, hfolder, ?_⟩
  rw [Disk.locate_append hsound (isPlain_fileName _) hfits hfolder, h.files, hfile]
  rfl

/-- The files that are there are those under whose names something was saved. -/
theorem mem_namesIn (h : Shelves disk database home saved) (file : String) :
    file ∈ disk.namesIn (Path.triggers database) ↔ ∃ trigger, lastInFile? saved file = some trigger := by
  by_cases hfolder : disk.locate (Path.triggers database) = .ok (home ++ ["triggers"], .directory)
  · rw [Disk.mem_namesIn hfolder, h.files]
    cases lastInFile? saved file <;> simp
  · have hnone : disk.namesIn (Path.triggers database) = [] := by
      unfold Disk.namesIn
      split
      · rename_i place hplace
        obtain ⟨home', hhome', rfl, -⟩ :=
          Disk.locate_directory (Path.isPlain_of_length (by decide)) hplace
        obtain rfl := h.liesAt.unique hhome'
        exact absurd hplace hfolder
      · rfl
    rw [hnone]
    constructor
    · exact fun hmem => nomatch hmem
    · rintro ⟨trigger, hfile⟩
      exact absurd (h.locate_of_lastInFile? hfile).2.1 hfolder

theorem nodup_namesIn (h : Shelves disk database home saved) :
    (disk.namesIn (Path.triggers database)).Nodup := by
  unfold Disk.namesIn
  split
  · rename_i place hplace
    obtain ⟨home', hhome', rfl, -⟩ :=
      Disk.locate_directory (Path.isPlain_of_length (by decide)) hplace
    obtain rfl := h.liesAt.unique hhome'
    exact (perm_sortBy _ _).nodup_iff.2 h.once
  · exact List.nodup_nil

theorem load (h : Shelves disk database home saved) {file : String} {trigger : Trigger}
    (hfile : lastInFile? saved file = some trigger) :
    Trigger.load disk database file = .ok trigger := by
  have htext := Disk.textAt_eq_ok.2 ⟨_, (h.locate_of_lastInFile? hfile).2.2⟩
  have hread := ofText?_toJson (h.storable trigger (mem_of_lastSaved? hfile).1).created
  unfold Trigger.load
  rw [Disk.textOr_eq_ok.2 htext]
  dsimp only [bind, Except.bind]
  rw [show (Json.ofText? (trigger.toJson.indented 0)).bind ofJson? = some trigger from hread]
  rfl

end Shelves

/-- Triggers of one table, event and name go to one file. -/
theorem fileName_of_key_eq {definition other : TriggerDefinition} (h : key definition = key other) :
    fileName definition = fileName other := by
  simp only [key, Prod.mk.injEq] at h
  rw [fileName, fileName, h.1, h.2.1, h.2.2]

/-- Only one trigger of a table, event and name is the last one in its file. -/
theorem eq_of_lastInFile? {first second : Trigger}
    (hfirst : lastInFile? saved (fileName first.definition) = some first)
    (hsecond : lastInFile? saved (fileName second.definition) = some second)
    (hkey : key first.definition = key second.definition) : first = second := by
  rw [fileName_of_key_eq hkey, hsecond] at hfirst
  exact (Option.some.inj hfirst).symm

theorem mayHold_fileName (definition : TriggerDefinition) :
    mayHold definition.table definition.event (fileName definition) = true := by
  rw [mayHold, Bool.and_eq_true, List.isPrefixOf_iff_prefix, List.isSuffixOf_iff_suffix, fileName,
    String.toList_append, String.toList_append]
  exact ⟨⟨_, (List.append_assoc ..).symm⟩, List.suffix_append _ _⟩

/-- The triggers on a table and an event that a look into their files finds are those that were saved
last under the name of their file. -/
theorem Shelves.forEvent (h : Shelves disk database home saved) (table : String)
    (event : Operation) :
    ∃ found, forEvent disk database table event = .ok found ∧
      found.Pairwise (fun a b => a.definition.name < b.definition.name) ∧
      ∀ trigger, trigger ∈ found ↔ trigger.definition.table = table ∧
        trigger.definition.event = event ∧
        lastInFile? saved (fileName trigger.definition) = some trigger := by
  unfold Trigger.forEvent
  have hnodup := h.nodup_namesIn.filter (mayHold table event)
  have hfiles (file : String) :
      file ∈ (disk.namesIn (Path.triggers database)).filter (mayHold table event) ↔
        (∃ trigger, lastInFile? saved file = some trigger) ∧ mayHold table event file = true := by
    rw [List.mem_filter, h.mem_namesIn]
  generalize (disk.namesIn (Path.triggers database)).filter (mayHold table event) = files
    at hnodup hfiles
  have hload : files.mapM (Trigger.load disk database) = .ok (files.filterMap (lastInFile? saved)) := by
    refine Action.mapM_eq_filterMap fun file hfile => ?_
    obtain ⟨⟨trigger, hlast⟩, -⟩ := (hfiles file).1 hfile
    exact ⟨trigger, hlast, h.load hlast⟩
  dsimp only
  rw [hload]
  refine ⟨_, rfl, ?_, fun trigger => ?_⟩
  · have hdistinct : (files.filterMap (lastInFile? saved)).Nodup := by
      refine hnodup.filterMap fun first second trigger hfirst hsecond => ?_
      exact (h.locate_of_lastInFile? hfirst).1.symm.trans (h.locate_of_lastInFile? hsecond).1
    refine (pairwise_sortBy (fun a b c hab hbc => ?_) ?_).imp fun hbefore => of_decide_eq_true hbefore
    · exact decide_eq_true (String.lt_trans (of_decide_eq_true hab) (of_decide_eq_true hbc))
    · refine (hdistinct.filter _).imp_of_mem fun {first second} hfirst hsecond hne => ?_
      by_contra hunordered
      simp only [decide_eq_true_eq, not_or, String.not_lt] at hunordered
      simp only [List.mem_filter, List.mem_filterMap, Bool.and_eq_true, beq_iff_eq] at hfirst hsecond
      obtain ⟨⟨file, -, hfirst⟩, htable, hevent⟩ := hfirst
      obtain ⟨⟨file', -, hsecond⟩, htable', hevent'⟩ := hsecond
      obtain ⟨rfl, -⟩ := h.locate_of_lastInFile? hfirst
      obtain ⟨rfl, -⟩ := h.locate_of_lastInFile? hsecond
      refine hne (eq_of_lastInFile? hfirst hsecond ?_)
      rw [key, key, htable, htable', hevent, hevent', String.le_antisymm hunordered.2 hunordered.1]
  · rw [mem_sortBy, List.mem_filter, List.mem_filterMap, Bool.and_eq_true, beq_iff_eq, beq_iff_eq]
    constructor
    · rintro ⟨⟨file, -, hlast⟩, htable, hevent⟩
      obtain ⟨rfl, -⟩ := h.locate_of_lastInFile? hlast
      exact ⟨htable, hevent, hlast⟩
    · rintro ⟨rfl, rfl, hlast⟩
      exact ⟨⟨_, (hfiles _).2 ⟨⟨trigger, hlast⟩, mayHold_fileName _⟩, hlast⟩, rfl, rfl⟩

/-- A trigger stays the last one in its file when another file is written. -/
theorem lastInFile?_append_ifSaved {trigger other : Trigger}
    (hfile : fileName other.definition ≠ fileName trigger.definition) (result : Except Error Unit) :
    lastInFile? (saved ++ ifSaved other result) (fileName trigger.definition)
      = lastInFile? saved (fileName trigger.definition) := by
  cases result with
  | error e => rw [ifSaved, List.append_nil]
  | ok =>
    rw [ifSaved, lastInFile?, lastSaved?_concat, if_neg (by simpa using hfile)]
    rfl

/-- Where all that was saved in the file of a trigger has its key, what was saved last in the file is
what was saved last under the key. -/
theorem lastInFile?_eq_lastUnder? {trigger : Trigger}
    (hapart : ∀ other ∈ saved, fileName other.definition = fileName trigger.definition →
      key other.definition = key trigger.definition) :
    lastInFile? saved (fileName trigger.definition) = lastUnder? saved (key trigger.definition) := by
  refine List.find?_congr fun other hother => ?_
  rw [Bool.eq_iff_iff, beq_iff_eq, beq_iff_eq]
  exact ⟨hapart other (List.mem_reverse.1 hother), fileName_of_key_eq⟩

/-- A database holds no triggers yet. -/
def IsNew (disk : Disk) (database : String) : Prop :=
  ∀ home, Database.LiesAt disk database home →
    ∀ file, disk.at? (home ++ ["triggers"] ++ [file]) = none

theorem IsNew.shelves (h : IsNew disk database) (hhome : Database.LiesAt disk database home) :
    Shelves disk database home [] where
  liesAt := hhome
  storable := by simp
  files file := h home hhome file
  once := by
    have hnone : disk.namesBelow (home ++ ["triggers"]) = [] := by
      refine List.eq_nil_iff_forall_not_mem.2 fun file hfile => ?_
      obtain ⟨entry, hentry⟩ := Disk.mem_namesBelow.1 hfile
      exact nomatch (h home hhome file).symm.trans hentry
    rw [hnone]
    exact List.nodup_nil
  paths := by simp

/-- Where there is no database, nothing is saved. -/
theorem saveAll_of_not_liesAt (h : ∀ home, ¬Database.LiesAt disk database home)
    (saves : List Trigger) : saveAll database saves disk = ([], disk) := by
  induction saves with
  | nil => rfl
  | cons trigger rest ih =>
    have hfail : ∃ e, save database trigger disk = (.error e, disk) := by
      rw [save, Action.read_bind]
      cases hrequire : Database.require disk database with
      | error e => exact ⟨e, rfl⟩
      | ok =>
        obtain ⟨home, hhome⟩ := Database.liesAt_of_require hrequire
        exact absurd hhome (h home)
    obtain ⟨e, hsave⟩ := hfail
    rw [saveAll, hsave]
    dsimp only
    rw [ih]
    rfl

theorem forEvent_of_not_liesAt (h : ∀ home, ¬Database.LiesAt disk database home) (table : String)
    (event : Operation) : forEvent disk database table event = .ok [] := by
  have hnone : disk.namesIn (Path.triggers database) = [] := by
    unfold Disk.namesIn
    split
    · rename_i place hplace
      obtain ⟨home, hhome, -⟩ := Disk.locate_directory (Path.isPlain_of_length (by decide)) hplace
      exact absurd hhome (h home)
    · rfl
  rw [forEvent, hnone]
  rfl

/-- A lookup finds the triggers that were saved last under each name, sorted by name, and a further
save leaves them alone unless it goes to the file of one of them. That takes that no trigger of
another table, event or name was saved in the file of one of them. -/
theorem forEvent_saveAll (hnew : IsNew disk database) {saves : List Trigger}
    (hsaves : ∀ trigger ∈ saves, trigger.IsStorable) {table : String} {event : Operation}
    (hapart : ∀ trigger ∈ (saveAll database saves disk).1, trigger.definition.table = table →
      trigger.definition.event = event → ∀ other ∈ (saveAll database saves disk).1,
        path database other.definition = path database trigger.definition →
          key other.definition = key trigger.definition) :
    ∃ found, forEvent (saveAll database saves disk).2 database table event = .ok found ∧
      found.Pairwise (fun a b => a.definition.name < b.definition.name) ∧
      (∀ trigger, trigger ∈ found ↔ trigger.definition.table = table ∧
        trigger.definition.event = event ∧
        lastUnder? (saveAll database saves disk).1 (key trigger.definition) = some trigger) ∧
      ∀ trigger ∈ found, ∀ other : Trigger, other.IsStorable →
        path database other.definition ≠ path database trigger.definition →
          ∃ found', forEvent (save database other (saveAll database saves disk).2).2 database table
              event = .ok found' ∧ trigger ∈ found' := by
  by_cases hhome : ∃ home, Database.LiesAt disk database home
  · obtain ⟨home, hhome⟩ := hhome
    have hshelves := (hnew.shelves hhome).afterSaves hsaves
    rw [List.nil_append] at hshelves
    generalize saveAll database saves disk = after at *
    obtain ⟨saved, disk'⟩ := after
    dsimp only at *
    obtain ⟨found, hfound, hsorted, hmem⟩ := hshelves.forEvent table event
    have hlast {trigger : Trigger} (htrigger : trigger ∈ saved)
        (htable : trigger.definition.table = table) (hevent : trigger.definition.event = event) :
        lastInFile? saved (fileName trigger.definition)
          = lastUnder? saved (key trigger.definition) := by
      refine lastInFile?_eq_lastUnder? fun other hother hfile =>
        hapart trigger htrigger htable hevent other hother ?_
      rw [(hshelves.storable other hother).path, (hshelves.storable trigger htrigger).path, hfile]
    refine ⟨found, hfound, hsorted, fun trigger => ?_, fun trigger htrigger other hother hpath => ?_⟩
    · rw [hmem]
      refine and_congr_right fun htable => and_congr_right fun hevent => ⟨fun h => ?_, fun h => ?_⟩
      · rw [← hlast (mem_of_lastSaved? h).1 htable hevent, h]
      · rw [hlast (mem_of_lastSaved? h).1 htable hevent, h]
    · obtain ⟨htable, hevent, hfile⟩ := (hmem trigger).1 htrigger
      have hstorable := hshelves.storable trigger (mem_of_lastSaved? hfile).1
      obtain ⟨found', hfound', -, hmem'⟩ := (hshelves.afterSave hother).forEvent table event
      refine ⟨found', hfound', (hmem' trigger).2 ⟨htable, hevent, ?_⟩⟩
      rw [lastInFile?_append_ifSaved (fun hsame => hpath ?_), hfile]
      rw [hother.path, hstorable.path, hsame]
  · have hno : ∀ home, ¬Database.LiesAt disk database home := not_exists.1 hhome
    rw [saveAll_of_not_liesAt hno]
    refine ⟨[], forEvent_of_not_liesAt hno table event, .nil, fun trigger => ?_, by simp⟩
    simp [lastUnder?, lastSaved?]

/-- A trigger that is saved twice, and others whose table, event or name is another one. -/
theorem forEvent_saveAll_twoTables :
    let disk := (Database.create "kantor" Disk.empty).2
    let saves : List Trigger := [⟨⟨"b", .insert, "t", "INSERT u 1"⟩, 1⟩,
      ⟨⟨"a", .insert, "t", "INSERT u 2"⟩, 2⟩, ⟨⟨"a", .insert, "t_INSERT", "INSERT u 3"⟩, 3⟩,
      ⟨⟨"a", .delete, "t", "INSERT u 4"⟩, 4⟩, ⟨⟨"b", .insert, "t", "INSERT u 5"⟩, 5⟩]
    let after := saveAll "kantor" saves disk
    IsNew disk "kantor" ∧ (∀ trigger ∈ saves, trigger.IsStorable) ∧
      (∀ trigger ∈ after.1, trigger.definition.table = "t" → trigger.definition.event = .insert →
        ∀ other ∈ after.1, path "kantor" other.definition = path "kantor" trigger.definition →
          key other.definition = key trigger.definition) ∧
      ∃ found, forEvent after.2 "kantor" "t" .insert = .ok found ∧
        (∀ trigger, trigger ∈ found ↔ trigger.definition.table = "t" ∧
          trigger.definition.event = .insert ∧
          lastUnder? after.1 (key trigger.definition) = some trigger) ∧
        found = [⟨⟨"a", .insert, "t", "INSERT u 2"⟩, 2⟩, ⟨⟨"b", .insert, "t", "INSERT u 5"⟩, 5⟩] := by
  intro disk saves after
  have hnew : IsNew disk "kantor" := by
    intro home hhome file
    have hkantor : Database.LiesAt disk "kantor" ["db_kantor"] := by
      unfold Database.LiesAt
      decide +kernel
    obtain rfl := hkantor.unique hhome
    have hkeys : disk.entries.keys = [(1, ["db_kantor"]), (2, ["db_kantor", "schema"])] := by
      decide +kernel
    cases hentry : disk.at? (["db_kantor"] ++ ["triggers"] ++ [file]) with
    | none => rfl
    | some entry =>
      have hmem := Keyed.mem_keys_of_get? hentry
      rw [hkeys] at hmem
      simp at hmem
  have hsaves : ∀ trigger ∈ saves, trigger.IsStorable := by decide +kernel
  have hapart : ∀ trigger ∈ after.1, trigger.definition.table = "t" →
      trigger.definition.event = .insert → ∀ other ∈ after.1,
        path "kantor" other.definition = path "kantor" trigger.definition →
          key other.definition = key trigger.definition := by decide +kernel
  obtain ⟨found, hfound, -, hmem, -⟩ := forEvent_saveAll hnew hsaves hapart
  have hlookup : forEvent after.2 "kantor" "t" .insert
      = .ok [⟨⟨"a", .insert, "t", "INSERT u 2"⟩, 2⟩, ⟨⟨"b", .insert, "t", "INSERT u 5"⟩, 5⟩] := by
    decide +kernel
  exact ⟨hnew, hsaves, hapart, found, hfound, hmem, Except.ok.inj (hfound.symm.trans hlookup)⟩

end Trigger

end FlatFileDb
