/-!
# Sorting

Two stable sorts: elements of which none comes before the other keep their order. The names in a
directory are few and are put in one by one. Rows may be many and are sorted by a key that is dear to
find: the key of each row is found once.
-/

namespace FlatFileDb

variable {α κ : Type}

/-- Puts an element into a sorted list, behind those that come before it. -/
def putInOrder (comesBefore : α → α → Bool) (x : α) : List α → List α
  | [] => [x]
  | y :: rest => if comesBefore y x then y :: putInOrder comesBefore x rest else x :: y :: rest

/-- Sorts by a strict order. -/
def sortBy (comesBefore : α → α → Bool) : List α → List α
  | [] => []
  | x :: rest => putInOrder comesBefore x (sortBy comesBefore rest)

theorem perm_putInOrder (comesBefore : α → α → Bool) (x : α) (xs : List α) :
    (putInOrder comesBefore x xs).Perm (x :: xs) := by
  induction xs with
  | nil => exact .refl _
  | cons y rest ih =>
    rw [putInOrder]
    split
    · exact (ih.cons y).trans (.swap x y rest)
    · exact .refl _

theorem perm_sortBy (comesBefore : α → α → Bool) (xs : List α) :
    (sortBy comesBefore xs).Perm xs := by
  induction xs with
  | nil => exact .refl _
  | cons x rest ih => exact (perm_putInOrder comesBefore x _).trans (ih.cons x)

@[simp] theorem mem_sortBy {comesBefore : α → α → Bool} {xs : List α} {x : α} :
    x ∈ sortBy comesBefore xs ↔ x ∈ xs :=
  (perm_sortBy comesBefore xs).mem_iff

/-- Sorts by a strict order of keys. -/
def sortOn (key : α → κ) (comesBefore : κ → κ → Bool) (xs : List α) : List α :=
  ((xs.map fun x => (key x, x)).mergeSort fun a b => !comesBefore b.1 a.1).map Prod.snd

/-- Finding the keys first makes no difference. -/
theorem sortOn_eq (key : α → κ) (comesBefore : κ → κ → Bool) (xs : List α) :
    sortOn key comesBefore xs = xs.mergeSort fun a b => !comesBefore (key b) (key a) := by
  have keyed : ∀ entry ∈ xs.map fun x => (key x, x), entry.1 = key entry.2 := by
    intro entry h
    obtain ⟨x, -, rfl⟩ := List.mem_map.1 h
    rfl
  rw [sortOn, List.map_mergeSort, List.map_map]
  · exact congrArg (List.mergeSort · _) (List.map_id xs)
  · intro a ha b hb
    rw [keyed a ha, keyed b hb]

theorem perm_sortOn (key : α → κ) (comesBefore : κ → κ → Bool) (xs : List α) :
    (sortOn key comesBefore xs).Perm xs :=
  sortOn_eq key comesBefore xs ▸ List.mergeSort_perm xs _

/-- Texts in ascending order. -/
def sortTexts (texts : List String) : List String :=
  sortBy (fun a b => a < b) texts

@[simp] theorem mem_sortTexts {texts : List String} {s : String} : s ∈ sortTexts texts ↔ s ∈ texts :=
  mem_sortBy

end FlatFileDb
