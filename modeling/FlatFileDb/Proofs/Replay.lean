import FlatFileDb.Proofs.Application

/-!
# Changes made one by one

An update or a deletion outside of a transaction changes all matching rows where they stand. In a
transaction it leaves one entry for each of them, and the commit looks each row up again by its
identifier. There are always enough rows for all entries, so the commit succeeds; it changes the same
rows if each of them is the first of its identifier when its turn comes.
-/

namespace FlatFileDb

namespace Table

/-- Whether every row that is changed is the first of its identifier when its turn comes, the rows
before it having been changed already. -/
def findsAgain (fits : String → Bool) (image : String → List String) :
    List String → List String → Bool
  | _, [] => true
  | done, row :: rest =>
    if fits row then
      (done.all fun other => Row.id other != Row.id row)
        && findsAgain fits image (done ++ (image row).filter Text.isFilled) rest
    else findsAgain fits image (done ++ [row]) rest

/-- The rows with those that fit replaced by their images where they stand. -/
def replaceFitting (fits : String → Bool) (image : String → List String) (rows : List String) :
    List String :=
  rows.flatMap fun row => if fits row then (image row).filter Text.isFilled else [row]

variable {fits : String → Bool} {image : String → List String}

/-- Identifiers that differ and are kept lead back to their rows. -/
theorem findsAgain_of_nodup {done rest : List String}
    (hnodup : ((done ++ rest).map Row.id).Nodup)
    (himage : ∀ row ∈ rest, image row = [] ∨ ∃ after, image row = [after] ∧ Row.id after = Row.id row) :
    findsAgain fits image done rest = true := by
  induction rest generalizing done with
  | nil => rfl
  | cons row rest ih =>
    have hrest := fun other hother => himage other (List.mem_cons_of_mem row hother)
    have hnext {middle : List String} (hmiddle : (middle.map Row.id).Sublist [Row.id row]) :
        (((done ++ middle) ++ rest).map Row.id).Nodup := by
      refine List.Nodup.sublist ?_ hnodup
      simp only [List.map_append, List.map_cons, List.append_assoc]
      exact (hmiddle.append_right (rest.map Row.id)).append_left (done.map Row.id)
    rw [findsAgain]
    split
    · rw [Bool.and_eq_true, List.all_eq_true]
      constructor
      · intro other hother
        rw [List.map_append, List.map_cons] at hnodup
        have hne := (List.nodup_append.1 hnodup).2.2 (Row.id other) (List.mem_map_of_mem hother)
          (Row.id row) (by simp)
        simpa using hne
      · refine ih (hnext ?_) hrest
        rcases himage row (by simp) with hnone | ⟨after, hafter, hid⟩
        · rw [hnone]
          exact List.nil_sublist _
        · rw [hafter]
          refine (List.filter_sublist.map Row.id).trans ?_
          rw [List.map_singleton, hid]
    · exact ih (hnext (by simp)) hrest

end Table

namespace Log.Entry

/-- The rows of a table after entries of that table, each applied to the rows that the ones before it
left; none if one of them does not find its row. -/
def replay? : List Entry → List String → Option (List String)
  | [], rows => some rows
  | entry :: rest, rows =>
    (entry.change? rows).bind fun after => replay? rest (after.filter Text.isFilled)

variable {fits : String → Bool} {image : String → List String}

/-- There is a row for every entry as long as no identifier is looked for more often than it is
there. -/
theorem isSome_replay? {entries : List Entry} {rows : List String}
    (hchange : ∀ entry ∈ entries, ∃ f, ∀ rows,
      entry.change? rows = Table.changeFirst? entry.rowId f rows)
    (hrows : ∀ row ∈ rows, Text.isFilled row = true)
    (hcount : ∀ id, (entries.map rowId).count id ≤ (rows.map Row.id).count id) :
    (replay? entries rows).isSome = true := by
  induction entries generalizing rows with
  | nil => rfl
  | cons entry rest ih =>
    obtain ⟨f, hf⟩ := hchange entry (by simp)
    have hone := hcount entry.rowId
    rw [List.map_cons, List.count_cons_self] at hone
    have hmem : entry.rowId ∈ rows.map Row.id := List.count_pos_iff.1 (by omega)
    obtain ⟨row, hrow, hid⟩ := List.mem_map.1 hmem
    cases hafter : Table.changeFirst? entry.rowId f rows with
    | none => exact absurd hid (Table.changeFirst?_eq_none.1 hafter row hrow)
    | some after =>
    obtain ⟨front, found, behind, rfl, hfound, -, rfl⟩ := Table.changeFirst?_eq_some hafter
    rw [replay?, hf, hafter, Option.bind_some]
    refine ih (fun other hother => hchange other (List.mem_cons_of_mem _ hother))
      (fun other hother => (List.mem_filter.1 hother).2) fun id => ?_
    have hbehind := hcount id
    have hfront : front.filter Text.isFilled = front :=
      List.filter_eq_self.2 fun other hother => hrows other (by simp [hother])
    have hbehind' : behind.filter Text.isFilled = behind :=
      List.filter_eq_self.2 fun other hother => hrows other (by simp [hother])
    simp only [List.filter_append, hfront, hbehind', List.map_cons, List.count_cons,
      List.map_append, List.count_append, hfound] at hbehind ⊢
    omega

/-- Entries that find their rows again replace them where they stand. -/
theorem replay?_of_findsAgain {entryOf : String → Entry} {done rest : List String}
    (hchange : ∀ row rows,
      (entryOf row).change? rows = Table.changeFirst? (Row.id row) (fun _ => image row) rows)
    (hdone : ∀ row ∈ done, Text.isFilled row = true)
    (hrest : ∀ row ∈ rest, Text.isFilled row = true)
    (hfinds : Table.findsAgain fits image done rest = true) :
    replay? ((rest.filter fits).map entryOf) (done ++ rest)
      = some (done ++ Table.replaceFitting fits image rest) := by
  induction rest generalizing done with
  | nil => simp [replay?, Table.replaceFitting]
  | cons row rest ih =>
    have hrest' : ∀ other ∈ rest, Text.isFilled other = true :=
      fun other hother => hrest other (List.mem_cons_of_mem row hother)
    have hsplit : Table.replaceFitting fits image (row :: rest)
        = (if fits row then (image row).filter Text.isFilled else [row])
          ++ Table.replaceFitting fits image rest := List.flatMap_cons
    rw [Table.findsAgain] at hfinds
    by_cases hfits : fits row = true
    · rw [if_pos hfits, Bool.and_eq_true, List.all_eq_true] at hfinds
      have hfirst : ∀ other ∈ done, Row.id other ≠ Row.id row := by
        intro other hother
        simpa using hfinds.1 other hother
      have hkept : (done ++ image row ++ rest).filter Text.isFilled
          = done ++ (image row).filter Text.isFilled ++ rest := by
        rw [List.filter_append, List.filter_append, List.filter_eq_self.2 hdone,
          List.filter_eq_self.2 hrest']
      rw [hsplit, if_pos hfits, List.filter_cons_of_pos hfits, List.map_cons, replay?, hchange,
        Table.changeFirst?_append hfirst rfl, Option.bind_some, hkept,
        ih ?_ hrest' hfinds.2, List.append_assoc]
      intro other hother
      rw [List.mem_append, List.mem_filter] at hother
      rcases hother with hother | hother
      · exact hdone other hother
      · exact hother.2
    · rw [if_neg hfits] at hfinds
      rw [hsplit, if_neg hfits, List.filter_cons_of_neg hfits, List.append_cons,
        ih ?_ hrest' hfinds, List.append_assoc]
      intro other hother
      rw [List.mem_append, List.mem_singleton] at hother
      rcases hother with hother | rfl
      · exact hdone other hother
      · exact hrest other (by simp)

/-! ### On the disk -/

theorem replay?_numbered (first : Nat) (entries : List Entry) (rows : List String) :
    replay? (Log.numbered first entries) rows = replay? entries rows := by
  induction entries generalizing first rows with
  | nil => rfl
  | cons entry rest ih =>
    rw [Log.numbered, replay?, replay?]
    exact congrArg _ (funext fun after => ih _ _)

/-- Entries of one table are all made if each finds its row, and write nothing but its file. -/
theorem performAll_of_replay? {entries : List Entry} {disk : Disk} {database table text : String}
    {place : Path} {after : List String} (hdisk : disk.IsCatalogued)
    (hentries : ∀ entry ∈ entries, entry.IsSound)
    (htable : ∀ entry ∈ entries, entry.database = database ∧ entry.table = table)
    (hlocate : disk.locate (Path.table database table) = .ok (place, .file text))
    (hreplay : replay? entries (Text.filledLines text) = some after) :
    ∃ disk' text', performAll entries disk = ((entries, none), disk') ∧
      disk'.locate (Path.table database table) = .ok (place, .file text') ∧
      Text.filledLines text' = after ∧ Disk.Rewrites (· = place) disk disk' := by
  induction entries generalizing disk text with
  | nil => exact ⟨disk, text, rfl, hlocate, Option.some.inj hreplay, refl disk⟩
  | cons entry rest ih =>
    obtain ⟨rows, hchange, hrest⟩ := Option.bind_eq_some_iff.1 hreplay
    obtain ⟨rfl, rfl⟩ := htable entry (by simp)
    have hsound := hentries entry (by simp)
    rcases perform_of_locate hdisk hsound hlocate with
      ⟨rows', text', hchange', htext', hperform⟩ | ⟨hnone, -⟩
    · obtain rfl := Option.some.inj (hchange.symm.trans hchange')
      have hkeeps : Disk.Keeps True disk (disk.put place (.file text')) :=
        (keeps_perform hsound).after hperform
      rw [← htext'] at hrest
      obtain ⟨disk', text'', hall, hlocate', hafter, hrewrites⟩ :=
        ih (hkeeps.isCatalogued hdisk) (fun other hother => hentries other (by simp [hother]))
          (fun other hother => htable other (by simp [hother]))
          (Disk.locate_put (Disk.filePlace?_of_file hlocate) text') hrest
      obtain ⟨-, -, -, -, -, -, hthere, -⟩ := Disk.locate_file hlocate
      have hput : Disk.Rewrites (· = place) disk (disk.put place (.file text')) :=
        @Disk.rewrites_put (· = place) disk place text rfl hthere text'
      refine ⟨disk', text'', ?_, hlocate', hafter, IsTrans.trans _ _ _ hput hrewrites⟩
      rw [performAll, hperform]
      dsimp only
      rw [hall]
    · exact absurd (hchange.symm.trans hnone) (by simp)

end Log.Entry

end FlatFileDb
