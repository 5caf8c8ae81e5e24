import FlatFileDb.Index.Data
import FlatFileDb.Proofs.Rows
import FlatFileDb.Proofs.Schema
import Mathlib.Data.Set.Basic

/-!
# What an index lists

Of an index it matters which identifiers it lists under which keys, in whatever order. Built from rows
it lists every row under each of its keys. A patch takes one identifier away or adds one row; patches
can be made again over an index that was built from the rows that they led to, and it lists the same as
before. That is what lets patches wait while indexes are built anew.
-/

namespace FlatFileDb

theorem Keyed.nodup_alterEntries {κ α : Type} [BEq κ] [LawfulBEq κ] (key : κ) (f : Option α → α)
    {entries : List (κ × α)} (h : (entries.map Prod.fst).Nodup) :
    ((alterEntries key f entries).map Prod.fst).Nodup := by
  by_cases hkey : key ∈ entries.map Prod.fst
  · rw [keys_alterEntries_of_mem f hkey]
    exact h
  · rw [alterEntries_of_not_mem key f entries hkey, List.map_append]
    refine List.nodup_append.2 ⟨h, by simp, fun other hother last hlast => ?_⟩
    obtain rfl := List.mem_singleton.1 hlast
    rintro rfl
    exact hkey hother

theorem Keyed.exists_of_mem_keys {κ α : Type} [BEq κ] [LawfulBEq κ] {m : Keyed κ α} {key : κ}
    (h : key ∈ m.keys) : ∃ value, m.get? key = some value := by
  rw [← Option.ne_none_iff_exists', Keyed.get?, ne_eq, List.lookup_eq_none_iff]
  obtain ⟨entry, hentry, rfl⟩ := List.mem_map.1 h
  exact fun hno => absurd (hno entry hentry) (by simp)

/-- Altering leaves other entries alone. -/
theorem Keyed.mem_alterEntries {κ α : Type} [BEq κ] {key : κ} {f : Option α → α}
    {entries : List (κ × α)} {entry : κ × α} (h : entry ∈ alterEntries key f entries) :
    entry ∈ entries ∨ ∃ old, entry.2 = f old := by
  induction entries with
  | nil => exact .inr ⟨none, by rw [List.mem_singleton.1 h]⟩
  | cons first rest ih =>
    obtain ⟨k, v⟩ := first
    rw [alterEntries] at h
    split at h
    · rcases List.mem_cons.1 h with rfl | hrest
      · exact .inr ⟨some v, rfl⟩
      · exact .inl (List.mem_cons_of_mem _ hrest)
    · rcases List.mem_cons.1 h with rfl | hrest
      · exact .inl (by simp)
      · exact (ih hrest).imp_left (List.mem_cons_of_mem _)

/-! ### White space has no words -/

namespace Text

/-- The code points of white space. -/
def blankCodes : List Nat :=
  [9, 10, 11, 12, 13, 0x20, 0x85, 0xa0, 0x1680, 0x2000, 0x2001, 0x2002, 0x2003, 0x2004, 0x2005,
    0x2006, 0x2007, 0x2008, 0x2009, 0x200a, 0x2028, 0x2029, 0x202f, 0x205f, 0x3000]

theorem toNat_mem_blankCodes {c : Char} (h : isBlank c = true) : c.toNat ∈ blankCodes := by
  unfold isBlank at h
  simp only [Bool.or_eq_true, Bool.and_eq_true, decide_eq_true_eq, beq_iff_eq] at h
  simp only [blankCodes, List.mem_cons, List.not_mem_nil]
  omega

/-- White space is neither a letter nor a numeral, and has one case only. -/
theorem lowerChar_of_isBlank {c : Char} (h : isBlank c = true) :
    lowerChar c = [c] ∧ isAlphanumeric c = false := by
  have hall : ∀ code ∈ blankCodes, lowerChar (Char.ofNat code) = [Char.ofNat code] ∧
      isAlphanumeric (Char.ofNat code) = false := by
    decide +kernel
  have hcode := hall c.toNat (toNat_mem_blankCodes h)
  rwa [Char.ofNat_toNat] at hcode

/-- A text stays as it is where each of its characters does. -/
theorem lowerFrom_of_forall {s : List Char} (h : ∀ c ∈ s, c ≠ 'Σ' ∧ lowerChar c = [c]) (after : Bool) :
    lowerFrom after s = s := by
  induction s generalizing after with
  | nil => rfl
  | cons c rest ih =>
    obtain ⟨hsigma, hsmall⟩ := h c (by simp)
    rw [lowerFrom, ih fun other hother => h other (List.mem_cons_of_mem c hother),
      beq_eq_false_iff_ne.2 hsigma, hsmall]
    rfl

theorem lower_of_isBlank {s : List Char} (h : ∀ c ∈ s, isBlank c = true) : lower s = s := by
  refine lowerFrom_of_forall (fun c hc => ⟨?_, (lowerChar_of_isBlank (h c hc)).1⟩) false
  rintro rfl
  exact absurd (h _ hc) (by decide)

theorem splitOnP_of_forall {α : Type} {p : α → Bool} {s : List α} (h : ∀ a ∈ s, p a = true) :
    ∀ piece ∈ s.splitOnP p, piece = [] := by
  induction s with
  | nil => simp [List.splitOnP_nil]
  | cons a rest ih =>
    rw [List.splitOnP_cons_eq_if_modifyHead, if_pos (h a (by simp))]
    exact List.forall_mem_cons.2 ⟨rfl, ih fun other hother => h other (List.mem_cons_of_mem a hother)⟩

end Text

theorem IndexKind.wordsOf_of_isBlank {field : String} (h : ∀ c ∈ field.toList, Text.isBlank c = true) :
    wordsOf field = [] := by
  have hpieces : ∀ piece ∈ (Text.lower field.toList).splitOnP (fun c => !Text.isAlphanumeric c),
      piece = [] := by
    rw [Text.lower_of_isBlank h]
    exact Text.splitOnP_of_forall fun c hc => by simp [(Text.lowerChar_of_isBlank (h c hc)).2]
  have hnone : (((Text.lower field.toList).splitOnP fun c => !Text.isAlphanumeric c).filter
      fun piece => 2 < piece.length) = [] :=
    List.filter_eq_nil_iff.2 fun piece hpiece => by simp [hpieces piece hpiece]
  rw [wordsOf, hnone]
  rfl

namespace IndexData

/-- Every key stands once, with at least one identifier. -/
structure IsProper (data : IndexData) : Prop where
  distinct : (data.entries.map Prod.fst).Nodup
  filled : ∀ entry ∈ data.entries, entry.2 ≠ []

/-- The keys with the identifiers under them. -/
def listed (data : IndexData) : Set (String × String) :=
  {pair | pair.2 ∈ data.idsAt pair.1}

/-- The keys of rows by the field at a position, with the identifiers of the rows. -/
def filed (kind : IndexKind) (position : Nat) (rows : List String) : Set (String × String) :=
  {pair | pair ∈ rows.flatMap (filings kind position)}

variable {data : IndexData} {kind : IndexKind} {position : Nat} {rows others : List String}
  {key id row field : String} {pair : String × String}

theorem mem_listed : pair ∈ data.listed ↔ pair.2 ∈ data.idsAt pair.1 := Iff.rfl

theorem mem_filed :
    pair ∈ filed kind position rows ↔ ∃ row ∈ rows, pair ∈ filings kind position row :=
  List.mem_flatMap

theorem filed_append :
    filed kind position (rows ++ others) = filed kind position rows ∪ filed kind position others := by
  ext pair
  simp only [Set.mem_union, mem_filed, List.mem_append, or_and_right, exists_or]

theorem id_of_mem_filings (h : pair ∈ filings kind position row) : pair.2 = Row.id row := by
  unfold filings at h
  split at h
  · exact absurd h (by simp)
  · obtain ⟨key, -, rfl⟩ := List.mem_map.1 h
    rfl

/-- A blank row has no words, and no field but the first. -/
theorem filings_of_blank (h : Text.isFilled row = false) (hkind : kind = .exact → position ≠ 0) :
    filings kind position row = [] := by
  have hblank : ∀ c ∈ row.toList, Text.isBlank c = true := by
    rw [Text.isFilled, Bool.not_eq_false', List.all_eq_true] at h
    exact h
  have hfields : Row.fields row = [row] :=
    Row.fields_of_not_mem fun hmem => absurd (hblank _ hmem) (by decide)
  rw [filings, hfields]
  cases hposition : position with
  | succ position => rfl
  | zero =>
    cases kind with
    | exact => exact absurd hposition (hkind rfl)
    | words =>
      change (IndexKind.wordsOf row).map _ = []
      rw [IndexKind.wordsOf_of_isBlank hblank, List.map_nil]

/-- Rows that are not read back from their file matter to exact indexes on the first column only. -/
theorem filed_filter (h : ∀ row ∈ rows, kind = .exact → position = 0 → Text.isFilled row = true) :
    filed kind position (rows.filter Text.isFilled) = filed kind position rows := by
  ext pair
  rw [mem_filed, mem_filed]
  constructor
  · rintro ⟨row, hrow, hpair⟩
    exact ⟨row, (List.mem_filter.1 hrow).1, hpair⟩
  · rintro ⟨row, hrow, hpair⟩
    refine ⟨row, List.mem_filter.2 ⟨hrow, ?_⟩, hpair⟩
    by_contra hblank
    rw [filings_of_blank (Bool.eq_false_iff.2 hblank) fun hkind hposition =>
      hblank (h row hrow hkind hposition)] at hpair
    exact absurd hpair (by simp)

/-! ### The stored form -/

theorem isWhole_toJson (data : IndexData) : data.toJson.isWhole = true := by
  have hlist (ids : List String) : (Json.array (ids.map Json.string)).isWhole = true := by
    rw [Json.isWhole, Json.areWhole_map, List.all_eq_true]
    exact fun _ _ => rfl
  rw [toJson, Json.isWhole, Json.membersAreWhole_map, List.all_eq_true]
  exact fun entry _ => hlist entry.2

theorem ofJson?_toJson (h : (data.entries.map Prod.fst).Nodup) :
    ofJson? data.toJson = some data := by
  have hlist (ids : List String) : (Json.array (ids.map Json.string)).list? Json.string? = some ids :=
    Json.list?_map fun _ _ => rfl
  have hentries (entries : List (String × List String)) :
      (entries.map fun entry => (entry.1, Json.array (entry.2.map Json.string))).mapM
        (fun member => do return (member.1, ← member.2.list? Json.string?)) = some entries := by
    induction entries with
    | nil => rfl
    | cons entry rest ih =>
      rw [List.map_cons, List.mapM_cons, ih, hlist]
      rfl
  rw [toJson, ofJson?]
  simp only [hentries]
  change some (ofEntries data.entries) = some data
  rw [ofEntries_eq, Keyed.ofList_of_nodup _ h]

/-- An index is read back from its file. -/
theorem ofText_compact (h : data.IsProper) :
    (Json.ofText? data.toJson.compact).bind ofJson? = some data := by
  rw [Json.ofText?_compact data.isWhole_toJson, Option.bind_some, ofJson?_toJson h.distinct]

/-! ### Building -/

theorem get?_build (kind : IndexKind) (position : Nat) (rows : List String) (key : String) :
    (build kind position rows).get? key
      = if key ∈ (rows.flatMap (filings kind position)).map Prod.fst then
          some (((rows.flatMap (filings kind position)).filter fun filed => filed.1 == key).map Prod.snd)
        else none := by
  rw [build, groupBy_eq, List.map_map]
  split
  · rename_i hkey
    exact List.lookup_graph (fun s => ((rows.flatMap (filings kind position)).filter fun filed =>
      filed.1 == s).map Prod.snd) (Text.mem_firstOccurrences.2 hkey)
  · rename_i hkey
    refine List.lookup_eq_none_iff.2 fun entry hentry => ?_
    obtain ⟨other, hother, rfl⟩ := List.mem_map.1 hentry
    rw [Text.mem_firstOccurrences] at hother
    rw [bne_iff_ne]
    rintro rfl
    exact hkey hother

theorem listed_build (kind : IndexKind) (position : Nat) (rows : List String) :
    (build kind position rows).listed = filed kind position rows := by
  ext ⟨key, id⟩
  rw [mem_listed, idsAt, get?_build]
  change _ ↔ (key, id) ∈ rows.flatMap (filings kind position)
  split
  · simp
  · rename_i hkey
    refine iff_of_false (by simp) fun hmem => hkey (List.mem_map.2 ⟨_, hmem, rfl⟩)

theorem isProper_build (kind : IndexKind) (position : Nat) (rows : List String) :
    (build kind position rows).IsProper where
  distinct := by
    rw [build, groupBy_eq, List.map_map, List.map_map]
    have hkeys := Text.nodup_firstOccurrences ((rows.flatMap (filings kind position)).map Prod.fst)
    exact (List.map_id _).symm ▸ hkeys
  filled entry hentry := by
    rw [build, groupBy_eq, List.map_map] at hentry
    obtain ⟨key, hkey, rfl⟩ := List.mem_map.1 hentry
    obtain ⟨pair, hpair, rfl⟩ := List.mem_map.1 (Text.mem_firstOccurrences.1 hkey)
    exact List.ne_nil_of_mem (List.mem_map.2 ⟨pair, List.mem_filter.2 ⟨hpair, by simp⟩, rfl⟩)

/-! ### Patching -/

theorem mem_listed_file :
    pair ∈ (file id data key).listed ↔ pair ∈ data.listed ∨ pair = (key, id) := by
  obtain ⟨other, found⟩ := pair
  rw [mem_listed, mem_listed, idsAt, idsAt, file, Keyed.get?_alter]
  by_cases hkey : other = key
  · subst hkey
    by_cases hid : id ∈ (data.get? other).getD []
    · simp only [beq_self_eq_true, if_true, Option.getD_some, List.contains_iff_mem, hid,
        Prod.mk.injEq, true_and]
      refine ⟨.inl, fun h => h.elim (fun hfound => hfound) ?_⟩
      rintro rfl
      exact hid
    · simp [hid]
  · simp [hkey]

theorem IsProper.file (h : data.IsProper) (id key : String) : (file id data key).IsProper where
  distinct := Keyed.nodup_alterEntries key _ h.distinct
  filled entry hentry := by
    rcases Keyed.mem_alterEntries hentry with hold | ⟨old, hnew⟩
    · exact h.filled entry hold
    · rw [hnew]
      dsimp only
      split
      · rename_i hthere
        exact List.ne_nil_of_mem (List.contains_iff_mem.1 hthere)
      · simp

theorem foldl_file (id : String) (keys : List String) (h : data.IsProper) :
    (keys.foldl (IndexData.file id) data).IsProper ∧
      (keys.foldl (IndexData.file id) data).listed = data.listed ∪ {pair | pair.1 ∈ keys ∧ pair.2 = id} := by
  induction keys generalizing data with
  | nil => simp [h]
  | cons key rest ih =>
    obtain ⟨hproper, hlisted⟩ := ih (h.file id key)
    refine ⟨hproper, ?_⟩
    rw [List.foldl_cons, hlisted]
    ext ⟨other, found⟩
    simp only [Set.mem_union, mem_listed_file, Set.mem_ofPred_eq, List.mem_cons, Prod.mk.injEq]
    tauto

theorem IsProper.addRow (h : data.IsProper) (kind : IndexKind) (id field : String) :
    (data.addRow kind id field).IsProper :=
  (foldl_file id _ h).1

theorem listed_addRow (h : data.IsProper) (kind : IndexKind) (id field : String) :
    (data.addRow kind id field).listed = data.listed ∪ {pair | pair.1 ∈ kind.keys field ∧ pair.2 = id} :=
  (foldl_file id _ h).2

/-- What is left of entries without an identifier. -/
theorem lookup_without (id key : String) {entries : List (String × List String)}
    (h : (entries.map Prod.fst).Nodup) :
    (((entries.map fun entry => (entry.1, entry.2.filter fun other => other != id)).filter
        fun entry => !entry.2.isEmpty).lookup key).getD []
      = ((entries.lookup key).getD []).filter fun other => other != id := by
  induction entries with
  | nil => rfl
  | cons entry rest ih =>
    obtain ⟨k, ids⟩ := entry
    rw [List.map_cons, List.nodup_cons] at h
    have hrest := ih h.2
    rw [List.map_cons, List.filter_cons, List.lookup_cons]
    dsimp only
    by_cases hkey : key = k
    · -- The key stands nowhere else, so that it is gone if nothing is left under it.
      subst hkey
      have hnone : rest.lookup key = none :=
        List.lookup_eq_none_iff.2 fun entry hentry => by
          rw [bne_iff_ne]
          exact fun hsame => h.1 (List.mem_map.2 ⟨entry, hentry, hsame.symm⟩)
      rw [hnone] at hrest
      cases hids : ids.filter fun other => other != id with
      | nil => simpa [hids] using hrest
      | cons first others => simp [hids]
    · have hother : (key == k) = false := beq_eq_false_iff_ne.2 hkey
      rw [hother, ← hrest]
      split
      · rw [List.lookup_cons, hother]
      · rfl

theorem IsProper.removeId (h : data.IsProper) (id : String) : (data.removeId id).IsProper where
  distinct := by
    refine (List.Sublist.map _ List.filter_sublist).nodup ?_
    rw [List.map_map]
    exact h.distinct
  filled entry hentry := by
    have hfilled := (List.mem_filter.1 hentry).2
    rintro hnil
    rw [hnil] at hfilled
    exact absurd hfilled (by simp)

theorem idsAt_removeId (h : data.IsProper) (id key : String) :
    (data.removeId id).idsAt key = (data.idsAt key).filter fun other => other != id :=
  lookup_without id key h.distinct

theorem listed_removeId (h : data.IsProper) (id : String) :
    (data.removeId id).listed = {pair ∈ data.listed | pair.2 ≠ id} := by
  ext pair
  rw [mem_listed, idsAt_removeId h, List.mem_filter, bne_iff_ne]
  rfl

theorem size_without (id : String) (entries : List (String × List String)) :
    (IndexData.removeId id ⟨entries⟩).size ≤ size ⟨entries⟩ ∧
      ((IndexData.removeId id ⟨entries⟩).size = size ⟨entries⟩ → ∀ entry ∈ entries, id ∉ entry.2) := by
  induction entries with
  | nil => exact ⟨le_refl _, fun _ _ h => absurd h (by simp)⟩
  | cons entry rest ih =>
    have hcons : size ⟨entry :: rest⟩ = entry.2.length + size ⟨rest⟩ := rfl
    have hremoved : (IndexData.removeId id ⟨entry :: rest⟩).size
        = (entry.2.filter fun other => other != id).length + (IndexData.removeId id ⟨rest⟩).size := by
      unfold IndexData.removeId
      rw [List.map_cons, List.filter_cons]
      split
      · rfl
      · rename_i hempty
        have hnil : (entry.2.filter fun other => other != id) = [] := by simpa using hempty
        rw [hnil]
        simp
    have hlength := List.length_filter_le (fun other => other != id) entry.2
    rw [hcons, hremoved]
    refine ⟨by omega, fun hsame => List.forall_mem_cons.2 ⟨fun hmem => ?_, ih.2 (by omega)⟩⟩
    have hall := List.length_filter_eq_length_iff.1
      (by omega : (entry.2.filter fun other => other != id).length = entry.2.length)
    exact absurd (hall id hmem) (by simp)

/-- Where no identifier was taken away, none was there. -/
theorem listed_of_size_removeId {id : String} (hsize : (data.removeId id).size = data.size) :
    {pair ∈ data.listed | pair.2 ≠ id} = data.listed := by
  ext ⟨key, found⟩
  refine ⟨And.left, fun hmem => ⟨hmem, ?_⟩⟩
  rintro rfl
  rw [mem_listed, idsAt] at hmem
  cases hkey : data.get? key with
  | none =>
    rw [hkey] at hmem
    exact absurd hmem (by simp)
  | some ids =>
    rw [hkey] at hmem
    obtain ⟨front, behind, hentries, -⟩ := List.lookup_eq_some_iff.1 hkey
    exact (size_without found data.entries).2 hsize (key, ids) (by rw [hentries]; simp) hmem

end IndexData

/-! ### Patches -/

/-- A change of an index on account of one row. -/
inductive Patch where
  | remove (id : String)
  | add (row : String)

namespace Patch

variable {kind : IndexKind} {position : Nat} {patches others : List Patch}
  {listed : Set (String × String)} {pair : String × String}

/-- What an index lists after a patch. -/
def effect (kind : IndexKind) (position : Nat) (listed : Set (String × String)) :
    Patch → Set (String × String)
  | remove id => {pair ∈ listed | pair.2 ≠ id}
  | add row => listed ∪ {pair | pair ∈ IndexData.filings kind position row}

/-- A row is added under each key of its field. -/
theorem effect_add {row field : String} (h : (Row.fields row)[position]? = some field) :
    effect kind position listed (.add row)
      = listed ∪ {pair | pair.1 ∈ kind.keys field ∧ pair.2 = Row.id row} := by
  rw [effect, IndexData.filings, h]
  refine congrArg (listed ∪ ·) (Set.ext fun ⟨key, id⟩ => ?_)
  simp only [Set.mem_ofPred_eq, List.mem_map, Prod.mk.injEq]
  constructor
  · rintro ⟨other, hother, rfl, rfl⟩
    exact ⟨hother, rfl⟩
  · rintro ⟨hkey, rfl⟩
    exact ⟨key, hkey, rfl, rfl⟩

theorem effect_add_of_none {row : String} (h : (Row.fields row)[position]? = none) :
    effect kind position listed (.add row) = listed := by
  rw [effect, IndexData.filings, h]
  simp

/-- What an index lists after some patches. -/
def effects (kind : IndexKind) (position : Nat) (patches : List Patch)
    (listed : Set (String × String)) : Set (String × String) :=
  patches.foldl (effect kind position) listed

/-- The identifiers that patches take away. -/
def removed (patches : List Patch) : List String :=
  patches.filterMap fun
    | remove id => some id
    | add _ => none

@[simp] theorem effects_nil : effects kind position [] listed = listed := rfl

theorem effects_append : effects kind position (patches ++ others) listed
    = effects kind position others (effects kind position patches listed) :=
  List.foldl_append

/-- What was listed before stays unless it is taken away; what is added does not depend on it. -/
theorem mem_effects : pair ∈ effects kind position patches listed ↔
    (pair ∈ listed ∧ pair.2 ∉ removed patches) ∨ pair ∈ effects kind position patches ∅ := by
  induction patches using List.reverseRecOn with
  | nil => simp [removed]
  | append_singleton patches patch ih =>
    rw [effects_append, effects_append, removed, List.filterMap_append, ← removed]
    cases patch with
    | remove id =>
      change (pair ∈ effects kind position patches listed ∧ pair.2 ≠ id) ↔ _ ∨
        (pair ∈ effects kind position patches ∅ ∧ pair.2 ≠ id)
      rw [ih]
      simp only [List.filterMap_cons, List.filterMap_nil, List.mem_append, List.mem_singleton]
      tauto
    | add row =>
      change (pair ∈ effects kind position patches listed ∨ _) ↔ _ ∨
        (pair ∈ effects kind position patches ∅ ∨ _)
      rw [ih]
      simp only [List.filterMap_cons, List.filterMap_nil, List.append_nil]
      tauto

theorem effects_remove (ids : List String) :
    effects kind position (ids.map remove) listed = {pair ∈ listed | pair.2 ∉ ids} := by
  induction ids generalizing listed with
  | nil => simp
  | cons id rest ih =>
    change effects kind position (rest.map remove) {pair ∈ listed | pair.2 ≠ id} = _
    rw [ih]
    ext pair
    simp only [Set.mem_ofPred_eq, List.mem_cons, not_or, and_assoc]

theorem effects_add (rows : List String) :
    effects kind position (rows.map add) listed = listed ∪ IndexData.filed kind position rows := by
  induction rows generalizing listed with
  | nil =>
    ext pair
    simp [IndexData.mem_filed]
  | cons row rest ih =>
    change effects kind position (rest.map add) (listed ∪ _) = _
    rw [ih]
    ext pair
    simp only [Set.mem_union, Set.mem_ofPred_eq, IndexData.mem_filed, List.mem_cons, or_and_right,
      exists_or, exists_eq_left, or_assoc]

/-- Patches that can be made again over what is listed still can after more of them. -/
theorem effects_again (h : effects kind position patches listed = listed) :
    effects kind position (patches ++ others) (effects kind position others listed)
      = effects kind position others listed := by
  ext pair
  have hpair : pair ∈ effects kind position patches listed ↔ pair ∈ listed := by rw [h]
  rw [mem_effects] at hpair
  rw [effects_append, mem_effects, @mem_effects _ _ patches, @mem_effects _ _ others listed]
  tauto

/-- A patch that is made again changes nothing. -/
theorem effect_again (patch : Patch) :
    effect kind position (effect kind position listed patch) patch
      = effect kind position listed patch :=
  @effects_again kind position [] [patch] listed rfl

end Patch

end FlatFileDb
