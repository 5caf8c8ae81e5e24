/-!
# Keyed entries in order of first appearance

A finite map that keeps its entries in the order in which their keys first came. Writing to a key
that is there already changes its value and not its place; a removed key that comes again comes at
the end.
-/

namespace FlatFileDb

/-- Entries with their keys, in the order in which the keys first came. -/
structure Keyed (κ α : Type) where
  entries : List (κ × α)
  deriving DecidableEq, Repr

namespace Keyed

variable {κ α β : Type} [BEq κ]

/-- No entries. -/
def empty : Keyed κ α := ⟨[]⟩

instance : Inhabited (Keyed κ α) := ⟨empty⟩

/-- The keys in order. -/
def keys (m : Keyed κ α) : List κ :=
  m.entries.map Prod.fst

/-- The values in the order of their keys. -/
def values (m : Keyed κ α) : List α :=
  m.entries.map Prod.snd

/-- The value at a key. -/
def get? (m : Keyed κ α) (key : κ) : Option α :=
  m.entries.lookup key

/-- Whether there is an entry at the key. -/
def contains (m : Keyed κ α) (key : κ) : Bool :=
  (m.get? key).isSome

/-- The entries with the value at `key` replaced by what `f` makes of it; a new key comes last. -/
def alterEntries (key : κ) (f : Option α → α) : List (κ × α) → List (κ × α)
  | [] => [(key, f none)]
  | (k, v) :: rest => if key == k then (k, f (some v)) :: rest else (k, v) :: alterEntries key f rest

/-- Replaces the value at a key by what `f` makes of it; a new key comes last. -/
def alter (m : Keyed κ α) (key : κ) (f : Option α → α) : Keyed κ α :=
  ⟨alterEntries key f m.entries⟩

/-- Writes a value to a key. -/
def insert (m : Keyed κ α) (key : κ) (value : α) : Keyed κ α :=
  m.alter key fun _ => value

/-- Removes the entry at a key. -/
def erase (m : Keyed κ α) (key : κ) : Keyed κ α :=
  ⟨m.entries.filter fun entry => !(key == entry.1)⟩

/-- Writes pairs one after the other, from the first to the last. -/
def ofList (pairs : List (κ × α)) : Keyed κ α :=
  pairs.foldl (fun m pair => m.insert pair.1 pair.2) empty

@[simp] theorem get?_empty (key : κ) : (empty : Keyed κ α).get? key = none := rfl

theorem lookup_alterEntries [LawfulBEq κ] (key other : κ) (f : Option α → α)
    (entries : List (κ × α)) :
    (alterEntries key f entries).lookup other
      = if other == key then some (f (entries.lookup key)) else entries.lookup other := by
  induction entries with
  | nil => simp only [alterEntries, List.lookup_nil, List.lookup_cons]; split <;> simp_all
  | cons entry rest ih =>
    obtain ⟨k, v⟩ := entry
    by_cases hk : key = k <;> by_cases ho : other = k <;> by_cases hok : other = key <;>
      simp_all [alterEntries, List.lookup_cons] <;> grind

@[simp] theorem get?_alter [LawfulBEq κ] (m : Keyed κ α) (key other : κ) (f : Option α → α) :
    (m.alter key f).get? other = if other == key then some (f (m.get? key)) else m.get? other :=
  lookup_alterEntries key other f m.entries

@[simp] theorem get?_insert [LawfulBEq κ] (m : Keyed κ α) (key other : κ) (value : α) :
    (m.insert key value).get? other = if other == key then some value else m.get? other :=
  get?_alter m key other fun _ => value

@[simp] theorem get?_erase [LawfulBEq κ] (m : Keyed κ α) (key other : κ) :
    (m.erase key).get? other = if other == key then none else m.get? other := by
  obtain ⟨entries⟩ := m
  simp only [get?, erase]
  induction entries with
  | nil => simp
  | cons entry rest ih =>
    obtain ⟨k, v⟩ := entry
    by_cases hk : key = k <;> by_cases ho : other = k <;> by_cases hok : other = key <;>
      simp_all [List.lookup_cons] <;> grind

theorem alterEntries_of_lookup [LawfulBEq κ] {key : κ} {value : α} {f : Option α → α}
    {entries : List (κ × α)} (h : entries.lookup key = some value) (hf : f (some value) = value) :
    alterEntries key f entries = entries := by
  induction entries with
  | nil => exact absurd h (by simp)
  | cons entry rest ih =>
    obtain ⟨k, v⟩ := entry
    rw [List.lookup_cons] at h
    cases hk : key == k with
    | true =>
      rw [hk] at h
      rw [alterEntries, if_pos hk, Option.some.inj h, hf]
    | false =>
      rw [hk] at h
      rw [alterEntries, if_neg (by simp [hk]), ih h]

/-- Writing what is there changes nothing. -/
theorem insert_of_get? [LawfulBEq κ] {m : Keyed κ α} {key : κ} {value : α}
    (h : m.get? key = some value) : m.insert key value = m := by
  rw [insert, alter, alterEntries_of_lookup h rfl]

theorem keys_alterEntries_of_mem [LawfulBEq κ] {key : κ} (f : Option α → α)
    {entries : List (κ × α)} (h : key ∈ entries.map Prod.fst) :
    (alterEntries key f entries).map Prod.fst = entries.map Prod.fst := by
  induction entries with
  | nil => exact absurd h (by simp)
  | cons entry rest ih =>
    obtain ⟨k, v⟩ := entry
    by_cases hk : (key == k) = true
    · rw [alterEntries, if_pos hk, List.map_cons, List.map_cons]
    · have hrest : key ∈ rest.map Prod.fst := by
        rw [List.map_cons, List.mem_cons] at h
        exact h.elim (fun hsame => absurd (beq_iff_eq.2 hsame) hk) id
      rw [alterEntries, if_neg hk, List.map_cons, List.map_cons, ih hrest]

theorem mem_keys_of_get? [LawfulBEq κ] {m : Keyed κ α} {key : κ} {value : α}
    (h : m.get? key = some value) : key ∈ m.keys := by
  obtain ⟨entries⟩ := m
  simp only [get?, keys] at *
  induction entries with
  | nil => exact absurd h (by simp)
  | cons entry rest ih =>
    obtain ⟨k, v⟩ := entry
    rw [List.map_cons, List.mem_cons]
    rw [List.lookup_cons] at h
    cases hk : key == k with
    | true => exact .inl (eq_of_beq hk)
    | false =>
      rw [hk] at h
      exact .inr (ih h)

/-- Writing to a key that is there keeps the keys as they stand. -/
theorem keys_insert_of_get? [LawfulBEq κ] {m : Keyed κ α} {key : κ} {old : α}
    (h : m.get? key = some old) (value : α) : (m.insert key value).keys = m.keys :=
  keys_alterEntries_of_mem _ (mem_keys_of_get? h)

theorem alterEntries_alterEntries [LawfulBEq κ] (key : κ) (f g : Option α → α)
    (entries : List (κ × α)) :
    alterEntries key g (alterEntries key f entries)
      = alterEntries key (fun value => g (some (f value))) entries := by
  induction entries with
  | nil => simp [alterEntries]
  | cons entry rest ih =>
    obtain ⟨k, v⟩ := entry
    by_cases hk : (key == k) = true
    · simp only [alterEntries, if_pos hk]
    · simp only [alterEntries, if_neg hk, ih]

/-- Of two values written to one key the second stays. -/
theorem insert_insert [LawfulBEq κ] (m : Keyed κ α) (key : κ) (first second : α) :
    (m.insert key first).insert key second = m.insert key second := by
  simp only [insert, alter, alterEntries_alterEntries]

theorem alterEntries_of_not_mem [LawfulBEq κ] (key : κ) (f : Option α → α)
    (entries : List (κ × α)) (h : key ∉ entries.map Prod.fst) :
    alterEntries key f entries = entries ++ [(key, f none)] := by
  induction entries with
  | nil => rfl
  | cons entry rest ih =>
    simp only [List.map_cons, List.mem_cons, not_or] at h
    simp [alterEntries, h.1, ih h.2]

/-- Pairs with keys that differ are the entries as they stand. -/
theorem ofList_of_nodup [LawfulBEq κ] (pairs : List (κ × α)) (h : (pairs.map Prod.fst).Nodup) :
    ofList pairs = ⟨pairs⟩ := by
  suffices ∀ found : List (κ × α), ((found ++ pairs).map Prod.fst).Nodup →
      pairs.foldl (fun m pair => m.insert pair.1 pair.2) (⟨found⟩ : Keyed κ α)
        = ⟨found ++ pairs⟩ from this [] (by simpa using h)
  intro found hfound
  induction pairs generalizing found with
  | nil => simp
  | cons pair rest ih =>
    have hnew : pair.1 ∉ found.map Prod.fst := by
      rw [List.map_append, List.nodup_append] at hfound
      exact fun hmem => hfound.2.2 _ hmem _ (by simp) rfl
    have hnext : insert (⟨found⟩ : Keyed κ α) pair.1 pair.2 = ⟨found ++ [pair]⟩ := by
      simp [insert, alter, alterEntries_of_not_mem _ _ _ hnew]
    rw [List.foldl_cons, hnext, ih (by simp_all) _ (by simpa using hfound)]
    simp

end Keyed

end FlatFileDb
