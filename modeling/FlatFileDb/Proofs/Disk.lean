import FlatFileDb.Disk.Basic
import FlatFileDb.Proofs.Action
import Mathlib.Tactic.SplitIfs

/-!
# Following ways over a growing disk

The disk only grows: nothing that lies somewhere is taken away, a directory stays a directory and a
file a file, with another text at most. So a way that leads to a directory leads there ever after.
`Grows` says this of two disks, and besides where directories were made and files written; every
operation on the disk is placed in it once, and all frames are read off from there.
-/

namespace FlatFileDb

namespace Path

/-- A part that leads down to a name of its own. -/
structure IsPlain (part : String) : Prop where
  stays : stays part = false
  root : part ≠ root
  upwards : part ≠ upwards

theorem IsPlain.isName {part : String} (h : IsPlain part) (hfits : fits part = true) :
    isName part = true := by
  have hup : (part != Path.upwards) = true := by simpa using h.upwards
  simp [Path.isName, h.stays, hup, hfits]

/-- A part stays, turns or leads down to a name. -/
theorem part_cases (part : String) :
    stays part = true ∨ part = Path.root ∨ part = Path.upwards ∨ IsPlain part := by
  by_cases hstays : stays part = true
  · exact .inl hstays
  by_cases hroot : part = Path.root
  · exact .inr (.inl hroot)
  by_cases hup : part = Path.upwards
  · exact .inr (.inr (.inl hup))
  exact .inr (.inr (.inr ⟨by simpa using hstays, hroot, hup⟩))

theorem isPlain_of_length {part : String} (h : 2 < part.toList.length) : IsPlain part := by
  have hne {other : String} (hother : other.toList.length ≤ 2) : part ≠ other := by
    rintro rfl
    omega
  refine ⟨?_, hne (by decide), hne (by decide)⟩
  simp only [Path.stays, Bool.or_eq_false_iff, beq_eq_false_iff_ne]
  exact ⟨hne (by decide), hne (by decide)⟩

theorem size_append (first second : Path) : size (first ++ second) = size first + size second := by
  simp [size]

theorem isSound_iff {path : Path} :
    isSound path = true ↔ (∀ part ∈ path, Char.ofNat 0 ∉ part.toList) ∧ size path ≤ 4096 := by
  simp [isSound]

theorem isSound_of_append {first second : Path} (h : isSound (first ++ second) = true) :
    isSound first = true := by
  rw [isSound_iff, size_append] at h
  rw [isSound_iff]
  refine ⟨fun part hpart => h.1 part (List.mem_append_left _ hpart), ?_⟩
  omega

theorem trimmed_append {name : String} (h : IsPlain name) (before : Path) :
    trimmed (before ++ [name]) = before ++ [name] := by
  rw [trimmed, List.reverse_append, List.reverse_singleton, List.singleton_append,
    List.dropWhile_cons_of_neg (by simp [h.stays])]
  simp

theorem trimmed_prefix (path : Path) : trimmed path <+: path := by
  rw [trimmed, ← List.reverse_suffix, List.reverse_reverse]
  exact List.dropWhile_suffix stays

end Path

namespace Disk

variable {disk : Disk}

/-! ### Following a way -/

theorem follow_stays {part : String} (h : Path.stays part = true) (here : Path)
    (rest : List String) : disk.follow here (part :: rest) = disk.follow here rest := by
  rw [follow, if_pos h]

theorem follow_root (here : Path) (rest : List String) :
    disk.follow here (Path.root :: rest) = disk.follow [Path.root] rest := by
  rw [follow, if_neg (by decide), if_pos (by decide)]

theorem follow_upwards (here : Path) (rest : List String) :
    disk.follow here (Path.upwards :: rest) = disk.follow (Path.above here) rest := by
  rw [follow, if_neg (by decide), if_neg (by decide), if_pos (by decide)]

theorem follow_plain {part : String} (h : Path.IsPlain part) (here : Path) (rest : List String) :
    disk.follow here (part :: rest)
      = if Path.fits part then
          match disk.at? (here ++ [part]) with
          | none => .error .missing
          | some .directory => disk.follow (here ++ [part]) rest
          | some (.file text) =>
            if rest.isEmpty then .ok (here ++ [part], .file text) else .error .blocked
        else .error .blocked := by
  have hroot : ¬(part == Path.root) = true := by simpa using h.root
  have hup : ¬(part == Path.upwards) = true := by simpa using h.upwards
  rw [follow]
  exact (if_neg (by simp [h.stays])).trans ((if_neg hroot).trans (if_neg hup))

/-- The first part of a way is passed, or it fails, or it is a file and must be the last. -/
theorem follow_cases (disk : Disk) (here : Path) (part : String) :
    (∃ next, ∀ rest, disk.follow here (part :: rest) = disk.follow next rest) ∨
      (∃ failure, ∀ rest, disk.follow here (part :: rest) = .error failure) ∨
      ∃ text, Path.IsPlain part ∧ Path.fits part = true ∧
        disk.at? (here ++ [part]) = some (.file text) ∧
        ∀ rest, disk.follow here (part :: rest)
          = if rest.isEmpty then .ok (here ++ [part], .file text) else .error .blocked := by
  rcases Path.part_cases part with hstays | rfl | rfl | hplain
  · exact .inl ⟨here, follow_stays hstays here⟩
  · exact .inl ⟨_, follow_root here⟩
  · exact .inl ⟨_, follow_upwards here⟩
  by_cases hfits : Path.fits part = true
  · cases hentry : disk.at? (here ++ [part]) with
    | none =>
      exact .inr (.inl ⟨.missing, fun rest => by rw [follow_plain hplain, if_pos hfits, hentry]⟩)
    | some entry =>
      cases entry with
      | directory =>
        exact .inl ⟨_, fun rest => by rw [follow_plain hplain, if_pos hfits, hentry]⟩
      | file text =>
        exact .inr (.inr ⟨text, hplain, hfits, rfl, fun rest => by
          rw [follow_plain hplain, if_pos hfits, hentry]⟩)
  · exact .inr (.inl ⟨.blocked, fun rest => by rw [follow_plain hplain, if_neg hfits]⟩)

/-- A way in two pieces is followed piece by piece; the first must lead to a directory. -/
theorem follow_append (first : List String) {second : List String} (here : Path)
    (hsecond : second ≠ []) :
    disk.follow here (first ++ second)
      = (disk.follow here first).bind fun found =>
          match found.2 with
          | .directory => disk.follow found.1 second
          | .file _ => .error .blocked := by
  induction first generalizing here with
  | nil => rfl
  | cons part rest ih =>
    rw [List.cons_append]
    rcases disk.follow_cases here part with ⟨next, hnext⟩ | ⟨failure, hfailure⟩ | ⟨text, h⟩
    · rw [hnext, hnext, ih]
    · rw [hfailure, hfailure]
      rfl
    · rw [h.2.2.2, h.2.2.2, if_neg (by simp [hsecond])]
      by_cases hrest : rest.isEmpty = true
      · rw [if_pos hrest]
        rfl
      · rw [if_neg hrest]
        rfl

theorem follow_name {name : String} (hname : Path.IsPlain name) (hfits : Path.fits name = true)
    (here : Path) :
    disk.follow here [name]
      = match disk.at? (here ++ [name]) with
        | none => .error .missing
        | some entry => .ok (here ++ [name], entry) := by
  rw [follow_plain hname, if_pos hfits]
  cases disk.at? (here ++ [name]) with
  | none => rfl
  | some entry => cases entry <;> rfl

/-- A way that ends at a file goes to a directory and from there down to the name of the file. -/
theorem follow_file {way : List String} {here place : Path} {text : String}
    (h : disk.follow here way = .ok (place, .file text)) :
    ∃ before name home, way = before ++ [name] ∧ disk.follow here before = .ok (home, .directory) ∧
      place = home ++ [name] ∧ disk.at? place = some (.file text) ∧ Path.IsPlain name ∧
      Path.fits name = true := by
  induction way generalizing here with
  | nil => exact absurd h (by simp [follow])
  | cons part rest ih =>
    rcases disk.follow_cases here part with ⟨next, hnext⟩ | ⟨failure, hfailure⟩ | ⟨other, hfile⟩
    · rw [hnext] at h
      obtain ⟨before, name, home, hrest, hhome, hplace⟩ := ih h
      exact ⟨part :: before, name, home, by rw [hrest, List.cons_append], by rw [hnext, hhome],
        hplace⟩
    · rw [hfailure] at h
      exact absurd h (by simp)
    · obtain ⟨hplain, hfits, hentry, hfollow⟩ := hfile
      rw [hfollow] at h
      split_ifs at h with hrest
      have hplace := Except.ok.inj h
      rw [Prod.mk.injEq, DiskEntry.file.injEq] at hplace
      rw [List.isEmpty_iff] at hrest
      subst hrest
      refine ⟨[], part, here, rfl, rfl, hplace.1.symm, ?_, hplain, hfits⟩
      rw [← hplace.1, ← hplace.2, hentry]

/-- A way to a directory leads there as long as the directories on it are there. -/
theorem follow_of_directories {disk' : Disk}
    (hkept : ∀ place, disk.at? place = some .directory → disk'.at? place = some .directory)
    {way : List String} {here place : Path}
    (hway : disk.follow here way = .ok (place, .directory)) :
    disk'.follow here way = .ok (place, .directory) := by
  induction way generalizing here with
  | nil => exact hway
  | cons part rest ih =>
    rcases Path.part_cases part with hstays | rfl | rfl | hplain
    · rw [follow_stays hstays] at hway ⊢
      exact ih hway
    · rw [follow_root] at hway ⊢
      exact ih hway
    · rw [follow_upwards] at hway ⊢
      exact ih hway
    · rw [follow_plain hplain] at hway ⊢
      by_cases hfits : Path.fits part = true
      · rw [if_pos hfits] at hway ⊢
        cases hentry : disk.at? (here ++ [part]) with
        | none =>
          rw [hentry] at hway
          exact absurd hway (by simp)
        | some entry =>
          rw [hentry] at hway
          cases entry with
          | directory =>
            rw [hkept _ hentry]
            exact ih hway
          | file text =>
            simp only at hway
            split_ifs at hway
            exact absurd (Except.ok.inj hway) (by simp)
      · rw [if_neg hfits] at hway
        exact absurd hway (by simp)

theorem locate_eq_ok {path : Path} {found : Path × DiskEntry} (h : disk.locate path = .ok found) :
    path.isSound = true ∧ disk.follow [] path = .ok found := by
  unfold locate at h
  split_ifs at h with hsound
  exact ⟨hsound, h⟩

/-- The way to a name in a directory. -/
theorem locate_append {before : Path} {name : String} (hsound : (before ++ [name]).isSound = true)
    (hname : Path.IsPlain name) (hfits : Path.fits name = true) {home : Path}
    (hhome : disk.locate before = .ok (home, .directory)) :
    disk.locate (before ++ [name])
      = match disk.at? (home ++ [name]) with
        | none => .error .missing
        | some entry => .ok (home ++ [name], entry) := by
  rw [locate, if_pos hsound, follow_append before [] (List.cons_ne_nil _ _),
    (locate_eq_ok hhome).2]
  exact follow_name hname hfits home

theorem locate_file {path place : Path} {text : String}
    (h : disk.locate path = .ok (place, .file text)) :
    ∃ before name home, path = before ++ [name] ∧ disk.locate before = .ok (home, .directory) ∧
      place = home ++ [name] ∧ disk.at? place = some (.file text) ∧ Path.IsPlain name ∧
      Path.fits name = true := by
  obtain ⟨hsound, hfollow⟩ := locate_eq_ok h
  obtain ⟨before, name, home, hpath, hhome, hplace⟩ := follow_file hfollow
  refine ⟨before, name, home, hpath, ?_, hplace⟩
  rw [locate, if_pos (Path.isSound_of_append (hpath ▸ hsound)), hhome]

theorem locate_directory {before place : Path} {name : String} (hname : Path.IsPlain name)
    (h : disk.locate (before ++ [name]) = .ok (place, .directory)) :
    ∃ home, disk.locate before = .ok (home, .directory) ∧ place = home ++ [name] ∧
      disk.at? place = some .directory ∧ Path.fits name = true := by
  obtain ⟨hsound, hfollow⟩ := locate_eq_ok h
  rw [follow_append before [] (List.cons_ne_nil _ _)] at hfollow
  cases hbefore : disk.follow [] before with
  | error failure =>
    rw [hbefore] at hfollow
    exact absurd hfollow (by simp [Except.bind])
  | ok found =>
    obtain ⟨home, entry⟩ := found
    rw [hbefore] at hfollow
    cases entry with
    | file text => exact absurd hfollow (by simp [Except.bind])
    | directory =>
      change disk.follow home [name] = _ at hfollow
      have hfits : Path.fits name = true := by
        cases hfits : Path.fits name with
        | true => rfl
        | false =>
          rw [follow_plain hname, if_neg (by simp [hfits])] at hfollow
          exact absurd hfollow (by simp)
      rw [follow_name hname hfits] at hfollow
      cases hentry : disk.at? (home ++ [name]) with
      | none =>
        rw [hentry] at hfollow
        exact absurd hfollow (by simp)
      | some entry =>
        rw [hentry] at hfollow
        have hplace := Except.ok.inj hfollow
        rw [Prod.mk.injEq] at hplace
        obtain ⟨rfl, rfl⟩ := hplace
        refine ⟨home, ?_, rfl, hentry, hfits⟩
        rw [locate, if_pos (Path.isSound_of_append hsound), hbefore]

/-- What is found at a name lies in a directory. -/
theorem locate_name {before place : Path} {name : String} {entry : DiskEntry}
    (hname : Path.IsPlain name) (h : disk.locate (before ++ [name]) = .ok (place, entry)) :
    ∃ home, disk.locate before = .ok (home, .directory) ∧ place = home ++ [name] ∧
      disk.at? place = some entry ∧ Path.fits name = true := by
  cases entry with
  | directory => exact locate_directory hname h
  | file text =>
    obtain ⟨front, last, home, hpath, hhome, rfl, hentry, -, hfits⟩ := locate_file h
    obtain ⟨rfl, hlast⟩ := List.append_inj' hpath rfl
    obtain rfl : name = last := (List.cons.inj hlast).1
    exact ⟨home, hhome, rfl, hentry, hfits⟩

/-! ### Texts -/

theorem textAt_eq_ok {path : Path} {text : String} :
    disk.textAt path = .ok text ↔ ∃ place, disk.locate path = .ok (place, .file text) := by
  unfold textAt entryAt
  cases hlocate : disk.locate path with
  | error failure => simp [Except.map]
  | ok found =>
    obtain ⟨place, entry⟩ := found
    cases entry <;> simp [Except.map]

theorem textOr_eq_ok {path : Path} {missing : Error} {text : String} :
    disk.textOr missing path = .ok text ↔ disk.textAt path = .ok text := by
  unfold textOr
  cases disk.textAt path with
  | ok other => simp
  | error failure => cases failure <;> simp

/-! ### Growth -/

/-- What may become of a disk: directories at places `made` where nothing was, and texts of files at
places `written` where no directory is. -/
def Grows (made written : Path → Prop) (disk disk' : Disk) : Prop :=
  ∀ place, disk'.at? place = disk.at? place ∨
    (made place ∧ disk.at? place = none ∧ disk'.at? place = some .directory) ∨
    (written place ∧ disk.at? place ≠ some .directory ∧ ∃ text, disk'.at? place = some (.file text))

variable {made written : Path → Prop} {disk' : Disk}

instance : IsPreorder Disk (Grows made written) where
  refl _ _ := .inl rfl
  trans first second third h h' place := by
    rcases h' place with hsame | ⟨hmade, hnone, hdirectory⟩ | ⟨hwritten, hno, hfile⟩
    · rw [hsame]
      exact h place
    · rcases h place with hsame | ⟨-, -, hother⟩ | ⟨-, -, text, hother⟩
      · exact .inr (.inl ⟨hmade, hsame ▸ hnone, hdirectory⟩)
      · exact absurd (hnone.symm.trans hother) (by simp)
      · exact absurd (hnone.symm.trans hother) (by simp)
    · rcases h place with hsame | ⟨-, -, hother⟩ | ⟨-, hbefore, -⟩
      · exact .inr (.inr ⟨hwritten, hsame ▸ hno, hfile⟩)
      · exact absurd hother hno
      · exact .inr (.inr ⟨hwritten, hbefore, hfile⟩)

theorem Grows.mono {made' written' : Path → Prop} (h : Grows made written disk disk')
    (hmade : ∀ place, made place → made' place)
    (hwritten : ∀ place, written place → written' place) : Grows made' written' disk disk' := by
  intro place
  rcases h place with h | ⟨h, hrest⟩ | ⟨h, hrest⟩
  · exact .inl h
  · exact .inr (.inl ⟨hmade place h, hrest⟩)
  · exact .inr (.inr ⟨hwritten place h, hrest⟩)

theorem Grows.and {made' written' : Path → Prop} (h : Grows made written disk disk')
    (h' : Grows made' written' disk disk') :
    Grows (fun place => made place ∧ made' place) (fun place => written place ∧ written' place) disk
      disk' := by
  intro place
  rcases h place with hsame | ⟨hmade, hnone, hdirectory⟩ | ⟨hwritten, hno, text, hfile⟩
  · exact .inl hsame
  · rcases h' place with hsame | ⟨hmade', -, -⟩ | ⟨-, -, text, hfile⟩
    · exact .inl hsame
    · exact .inr (.inl ⟨⟨hmade, hmade'⟩, hnone, hdirectory⟩)
    · exact absurd (hdirectory.symm.trans hfile) (by simp)
  · rcases h' place with hsame | ⟨-, -, hdirectory⟩ | ⟨hwritten', -, -⟩
    · exact .inl hsame
    · exact absurd (hdirectory.symm.trans hfile) (by simp)
    · exact .inr (.inr ⟨⟨hwritten, hwritten'⟩, hno, text, hfile⟩)

theorem Grows.directory (h : Grows made written disk disk') {place : Path}
    (hplace : disk.at? place = some .directory) : disk'.at? place = some .directory := by
  rcases h place with h | ⟨-, h, -⟩ | ⟨-, h, -⟩
  · rw [h, hplace]
  · exact absurd (hplace.symm.trans h) (by simp)
  · exact absurd hplace h

theorem Grows.file (h : Grows made written disk disk') {place : Path} {text : String}
    (hplace : disk.at? place = some (.file text)) :
    ∃ text', disk'.at? place = some (.file text') := by
  rcases h place with h | ⟨-, h, -⟩ | ⟨-, -, h⟩
  · exact ⟨text, by rw [h, hplace]⟩
  · exact absurd (hplace.symm.trans h) (by simp)
  · exact h

theorem Grows.unwritten (h : Grows made written disk disk') {place : Path}
    (hwritten : ¬written place) {text : String} :
    disk'.at? place = some (.file text) ↔ disk.at? place = some (.file text) := by
  rcases h place with h | ⟨-, hnone, hdirectory⟩ | ⟨h, -, -⟩
  · rw [h]
  · rw [hnone, hdirectory]
    simp
  · exact absurd h hwritten

theorem Grows.unmade (h : Grows made written disk disk') {place : Path} (hmade : ¬made place) :
    disk'.at? place = some .directory ↔ disk.at? place = some .directory := by
  rcases h place with h | ⟨h, -, -⟩ | ⟨-, hno, text, hfile⟩
  · rw [h]
  · exact absurd h hmade
  · rw [hfile]
    exact ⟨fun h => absurd h (by simp), fun h => absurd h hno⟩

/-- A way to a directory leads there ever after. -/
theorem Grows.missing (h : Grows made written disk disk') {place : Path}
    (hnone : disk'.at? place = none) : disk.at? place = none := by
  rcases h place with hsame | ⟨-, hbefore, -⟩ | ⟨-, -, file, hfile⟩
  · rw [← hsame, hnone]
  · exact hbefore
  · exact absurd (hnone.symm.trans hfile) (by simp)

theorem Grows.locate (h : Grows made written disk disk') {path place : Path}
    (hpath : disk.locate path = .ok (place, .directory)) :
    disk'.locate path = .ok (place, .directory) := by
  obtain ⟨hsound, hfollow⟩ := locate_eq_ok hpath
  rw [Disk.locate, if_pos hsound, follow_of_directories (fun _ => h.directory) hfollow]

theorem Grows.locate_file (h : Grows made written disk disk') {path place : Path} {text : String}
    (hpath : disk.locate path = .ok (place, .file text)) :
    ∃ text', disk'.locate path = .ok (place, .file text') ∧ disk'.at? place = some (.file text') := by
  obtain ⟨before, name, home, rfl, hhome, rfl, hentry, hplain, hfits⟩ := Disk.locate_file hpath
  obtain ⟨text', htext'⟩ := h.file hentry
  refine ⟨text', ?_, htext'⟩
  rw [locate_append (locate_eq_ok hpath).1 hplain hfits (h.locate hhome), htext']

/-- A text that was not written over is read ever after. -/
theorem Grows.textAt (h : Grows made written disk disk') {path : Path} {text : String}
    (hpath : disk.textAt path = .ok text)
    (hwritten : ∀ place, place.getLast? = path.getLast? → ¬written place) :
    disk'.textAt path = .ok text := by
  obtain ⟨place, hplace⟩ := textAt_eq_ok.1 hpath
  obtain ⟨text', hlocate, htext'⟩ := h.locate_file hplace
  obtain ⟨before, name, home, rfl, -, rfl, hentry, -⟩ := Disk.locate_file hplace
  have hsame := (h.unwritten (hwritten (home ++ [name]) (by simp))).1 htext'
  rw [hentry, Option.some.injEq, DiskEntry.file.injEq] at hsame
  exact textAt_eq_ok.2 ⟨_, hsame ▸ hlocate⟩

/-! ### Writing files -/

theorem grows_put_file {place : Path} (hwritten : written place)
    (hplace : disk.at? place ≠ some .directory) (text : String) :
    Grows made written disk (disk.put place (.file text)) := by
  intro other
  rw [at?_put]
  by_cases h : other = place
  · subst h
    exact .inr (.inr ⟨hwritten, hplace, text, by simp⟩)
  · exact .inl (by simp [h])

theorem grows_put_directory {place : Path} (hmade : made place)
    (hplace : disk.at? place = none) : Grows made written disk (disk.put place .directory) := by
  intro other
  rw [at?_put]
  by_cases h : other = place
  · subst h
    exact .inr (.inl ⟨hmade, hplace, by simp⟩)
  · exact .inl (by simp [h])

/-- A file is written at a name in a directory that is there. -/
theorem filePlace?_eq_some {path place : Path} (h : disk.filePlace? path = some place) :
    ∃ before name home, path = before ++ [name] ∧ path.isSound = true ∧
      disk.locate before = .ok (home, .directory) ∧ place = home ++ [name] ∧
      Path.IsPlain name ∧ Path.fits name = true ∧ disk.at? place ≠ some .directory := by
  unfold filePlace? at h
  split at h
  · rename_i name home hname hhome
    obtain ⟨before, rfl⟩ := List.getLast?_eq_some_iff.1 hname
    rw [List.dropLast_concat] at hhome
    split_ifs at h with hchecks
    have hplace := Option.some.inj h
    simp only [Bool.and_eq_true, Bool.not_eq_true', Path.isName, bne_iff_ne] at hchecks
    obtain ⟨⟨hsound, ⟨hstays, hup⟩, hfits⟩, hdirectory⟩ := hchecks
    have hroot : name ≠ Path.root := by
      rintro rfl
      have hfound : disk.locate (before ++ [Path.root]) = .ok ([Path.root], .directory) := by
        rw [locate, if_pos hsound, follow_append before [] (List.cons_ne_nil _ _),
          (locate_eq_ok hhome).2]
        exact follow_root home []
      rw [hasDirectory, entryAt, hfound] at hdirectory
      exact absurd hdirectory (by decide)
    have hplain : Path.IsPlain name := ⟨hstays, hroot, hup⟩
    refine ⟨before, name, home, rfl, hsound, hhome, hplace.symm, hplain, hfits, ?_⟩
    intro hthere
    rw [← hplace] at hthere
    rw [hasDirectory, entryAt, locate_append hsound hplain hfits hhome, hthere] at hdirectory
    exact absurd hdirectory (by simp [Except.map])
  · exact absurd h (by simp)

theorem filePlace?_append {before : Path} {name : String} {home : Path}
    (hsound : (before ++ [name]).isSound = true) (hplain : Path.IsPlain name)
    (hfits : Path.fits name = true) (hhome : disk.locate before = .ok (home, .directory))
    (hplace : disk.at? (home ++ [name]) ≠ some .directory) :
    disk.filePlace? (before ++ [name]) = some (home ++ [name]) := by
  have hdirectory : disk.hasDirectory (before ++ [name]) = false := by
    rw [hasDirectory, entryAt, locate_append hsound hplain hfits hhome]
    cases hentry : disk.at? (home ++ [name]) with
    | none => rfl
    | some entry =>
      cases entry with
      | directory => exact absurd hentry hplace
      | file text => rfl
  unfold filePlace?
  rw [List.getLast?_concat, List.dropLast_concat, hhome]
  simp only
  rw [if_pos (by simp [hsound, hplain.isName hfits, hdirectory])]

/-- A file that is there can be written. -/
theorem filePlace?_of_file {path place : Path} {text : String}
    (h : disk.locate path = .ok (place, .file text)) : disk.filePlace? path = some place := by
  obtain ⟨before, name, home, rfl, hhome, rfl, hentry, hplain, hfits⟩ := locate_file h
  exact filePlace?_append (locate_eq_ok h).1 hplain hfits hhome (by rw [hentry]; simp)

theorem writeFile_cases (path : Path) (text : String) (disk : Disk) :
    writeFile path text disk = (.error .fileFailure, disk) ∨
      ∃ place, disk.filePlace? path = some place ∧
        writeFile path text disk = (.ok (), disk.put place (.file text)) := by
  unfold writeFile
  cases disk.filePlace? path with
  | none => exact .inl rfl
  | some place => exact .inr ⟨place, rfl, rfl⟩

theorem writeFile_of_place {path place : Path} (h : disk.filePlace? path = some place)
    (text : String) : writeFile path text disk = (.ok (), disk.put place (.file text)) := by
  unfold writeFile
  rw [h]

/-- What was written is found at its path. -/
theorem locate_put {path place : Path} (h : disk.filePlace? path = some place) (text : String) :
    (disk.put place (.file text)).locate path = .ok (place, .file text) := by
  obtain ⟨before, name, home, rfl, hsound, hhome, rfl, hplain, hfits, hfree⟩ := filePlace?_eq_some h
  have hgrows : Grows (fun _ => False) (fun _ => True) disk
      (disk.put (home ++ [name]) (.file text)) := grows_put_file trivial hfree text
  rw [locate_append hsound hplain hfits (hgrows.locate hhome), at?_put]
  simp

theorem within_writeFile {path : Path} (text : String)
    (h : ∀ place, place.getLast? = path.getLast? → written place) :
    Action.Within (Grows made written) (writeFile path text) := by
  intro disk
  rcases writeFile_cases path text disk with hwrite | ⟨place, hplace, hwrite⟩
  · rw [hwrite]
    exact refl disk
  · obtain ⟨before, name, home, rfl, -, -, rfl, -, -, hfree⟩ := filePlace?_eq_some hplace
    rw [hwrite]
    exact grows_put_file (h _ (by simp)) hfree text

theorem within_appendFile {missing : Error} {path : Path} (text : String)
    (h : ∀ place, place.getLast? = path.getLast? → written place) :
    Action.Within (Grows made written) (appendFile missing path text) :=
  .bind (.read _) fun _ => within_writeFile _ h

/-! ### Making directories -/

theorem makeDirectoriesFrom_stays {part : String} (h : Path.stays part = true) (here : Path)
    (rest : List String) (disk : Disk) :
    makeDirectoriesFrom here (part :: rest) disk = makeDirectoriesFrom here rest disk := by
  conv => lhs; unfold makeDirectoriesFrom
  exact if_pos h

theorem makeDirectoriesFrom_root (here : Path) (rest : List String) (disk : Disk) :
    makeDirectoriesFrom here (Path.root :: rest) disk
      = makeDirectoriesFrom [Path.root] rest disk := by
  conv => lhs; unfold makeDirectoriesFrom
  exact (if_neg (by decide)).trans (if_pos (by decide))

theorem makeDirectoriesFrom_upwards (here : Path) (rest : List String) (disk : Disk) :
    makeDirectoriesFrom here (Path.upwards :: rest) disk
      = makeDirectoriesFrom (Path.above here) rest disk := by
  conv => lhs; unfold makeDirectoriesFrom
  exact (if_neg (by decide)).trans ((if_neg (by decide)).trans (if_pos (by decide)))

theorem makeDirectoriesFrom_plain {part : String} (h : Path.IsPlain part) (here : Path)
    (rest : List String) (disk : Disk) :
    makeDirectoriesFrom here (part :: rest) disk
      = match disk.at? (here ++ [part]) with
        | some .directory => makeDirectoriesFrom (here ++ [part]) rest disk
        | some (.file _) => (.error .fileFailure, disk)
        | none =>
          if Path.fits part && !endsInPoint rest then
            makeDirectoriesFrom (here ++ [part]) rest (disk.put (here ++ [part]) .directory)
          else (.error .fileFailure, disk) := by
  have hroot : ¬(part == Path.root) = true := by simpa using h.root
  have hup : ¬(part == Path.upwards) = true := by simpa using h.upwards
  conv => lhs; unfold makeDirectoriesFrom
  exact (if_neg (by simp [h.stays])).trans ((if_neg hroot).trans (if_neg hup))

/-- Only names on the way are made into directories. -/
theorem within_makeDirectoriesFrom {way : List String} (here : Path)
    (h : ∀ name ∈ way, Path.IsPlain name → ∀ place, place.getLast? = some name → made place) :
    Action.Within (Grows made written) (makeDirectoriesFrom here way) := by
  induction way generalizing here with
  | nil => exact .pure ()
  | cons part rest ih =>
    have hrest (here : Path) : Action.Within (Grows made written) (makeDirectoriesFrom here rest) :=
      ih here fun name hname => h name (List.mem_cons_of_mem _ hname)
    intro disk
    rcases Path.part_cases part with hstays | rfl | rfl | hplain
    · rw [makeDirectoriesFrom_stays hstays]
      exact hrest here disk
    · rw [makeDirectoriesFrom_root]
      exact hrest _ disk
    · rw [makeDirectoriesFrom_upwards]
      exact hrest _ disk
    · rw [makeDirectoriesFrom_plain hplain]
      cases hentry : disk.at? (here ++ [part]) with
      | none =>
        simp only
        split_ifs
        · have hmade : made (here ++ [part]) := h part (by simp) hplain _ (by simp)
          exact IsTrans.trans _ _ _ (grows_put_directory hmade hentry) (hrest _ _)
        · exact refl disk
      | some entry =>
        cases entry with
        | directory => exact hrest _ disk
        | file text => exact refl disk

theorem within_makeDirectories {path : Path}
    (h : ∀ name ∈ path, Path.IsPlain name → ∀ place, place.getLast? = some name → made place) :
    Action.Within (Grows made written) (makeDirectories path) := by
  unfold makeDirectories
  exact .ite (fun _ => within_makeDirectoriesFrom [] h) fun _ => .throw _

/-- Directories fail to be made only where the file system fails. -/
theorem makeDirectoriesFrom_failure {way : List String} {here : Path} {disk disk' : Disk}
    {failure : Error} (h : makeDirectoriesFrom here way disk = (.error failure, disk')) :
    failure = .fileFailure := by
  induction way generalizing here disk with
  | nil => exact nomatch congrArg Prod.fst h
  | cons part rest ih =>
    rcases Path.part_cases part with hstays | rfl | rfl | hplain
    · rw [makeDirectoriesFrom_stays hstays] at h
      exact ih h
    · rw [makeDirectoriesFrom_root] at h
      exact ih h
    · rw [makeDirectoriesFrom_upwards] at h
      exact ih h
    · rw [makeDirectoriesFrom_plain hplain] at h
      split at h
      · exact ih h
      · exact (Except.error.inj (congrArg Prod.fst h)).symm
      · split_ifs at h
        · exact ih h
        · exact (Except.error.inj (congrArg Prod.fst h)).symm

theorem makeDirectories_failure {path : Path} {disk disk' : Disk} {failure : Error}
    (h : makeDirectories path disk = (.error failure, disk')) : failure = .fileFailure := by
  unfold makeDirectories at h
  split_ifs at h
  · exact makeDirectoriesFrom_failure h
  · exact (Except.error.inj (congrArg Prod.fst h)).symm

/-- What is there is not made. -/
theorem makeDirectoriesFrom_append {first : List String} (second : List String)
    {here place : Path} (h : disk.follow here first = .ok (place, .directory)) :
    makeDirectoriesFrom here (first ++ second) disk = makeDirectoriesFrom place second disk := by
  induction first generalizing here with
  | nil =>
    have hplace := Except.ok.inj h
    rw [Prod.mk.injEq] at hplace
    rw [List.nil_append, hplace.1]
  | cons part rest ih =>
    rw [List.cons_append]
    rcases Path.part_cases part with hstays | rfl | rfl | hplain
    · rw [follow_stays hstays] at h
      rw [makeDirectoriesFrom_stays hstays, ih h]
    · rw [follow_root] at h
      rw [makeDirectoriesFrom_root, ih h]
    · rw [follow_upwards] at h
      rw [makeDirectoriesFrom_upwards, ih h]
    · rw [follow_plain hplain] at h
      rw [makeDirectoriesFrom_plain hplain]
      by_cases hfits : Path.fits part = true
      · rw [if_pos hfits] at h
        cases hentry : disk.at? (here ++ [part]) with
        | none =>
          rw [hentry] at h
          exact absurd h (by simp)
        | some entry =>
          rw [hentry] at h
          cases entry with
          | directory => exact ih h
          | file text =>
            simp only at h
            split_ifs at h
            exact absurd (Except.ok.inj h) (by simp)
      · rw [if_neg hfits] at h
        exact absurd h (by simp)

/-- Below a directory that is there, only the last name is made. -/
theorem makeDirectories_below {before : Path} {name : String} {home : Path}
    (hhome : disk.locate before = .ok (home, .directory))
    (hmade : ∀ place, place.getLast? = some name → made place) :
    Grows made written disk (makeDirectories (before ++ [name]) disk).2 := by
  unfold makeDirectories
  split_ifs
  · rw [makeDirectoriesFrom_append [name] (locate_eq_ok hhome).2]
    refine within_makeDirectoriesFrom home ?_ disk
    intro other hother _
    rw [List.mem_singleton.1 hother]
    exact hmade
  · exact refl disk

/-- Around a file that is there, no directory is made. -/
theorem makeDirectories_holder {path : Path} {text : String} (h : disk.textAt path = .ok text) :
    makeDirectories path.holder disk = (.ok (), disk) := by
  obtain ⟨found, hlocate⟩ := textAt_eq_ok.1 h
  obtain ⟨before, name, home, hpath, -, -, -, hplain, -⟩ := locate_file hlocate
  obtain ⟨hsound, hfollow⟩ := locate_eq_ok hlocate
  have hholder : path.holder = before.trimmed := by
    rw [Path.holder, hpath, Path.trimmed_append hplain, List.dropLast_concat]
  obtain ⟨stay, hbefore⟩ := Path.trimmed_prefix before
  rw [hpath, ← hbefore, List.append_assoc] at hsound hfollow
  rw [follow_append _ _ (by simp)] at hfollow
  rw [hholder, makeDirectories, if_pos (Path.isSound_of_append hsound)]
  cases hway : disk.follow [] before.trimmed with
  | error failure =>
    rw [hway] at hfollow
    cases hfollow
  | ok reached =>
    obtain ⟨place, entry⟩ := reached
    rw [hway] at hfollow
    cases entry with
    | file other => cases hfollow
    | directory =>
      have hmade := makeDirectoriesFrom_append [] hway
      rwa [List.append_nil] at hmade

end Disk

end FlatFileDb
