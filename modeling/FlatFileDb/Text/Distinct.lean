import Std.Data.TreeSet.Lemmas

/-!
# First occurrences

A list of texts without its later repetitions. The texts that have come already are kept in a search
tree, so that each further one is looked up in a few steps. The result does not depend on the tree:
the first text stands first, and the rest follows without it.
-/

namespace FlatFileDb.Text

/-- The texts of a list that are not among those seen before, without later repetitions. -/
def firstNew (seen : Std.TreeSet String) : List String → List String
  | [] => []
  | s :: rest =>
    let (known, seen) := seen.containsThenInsert s
    if known then firstNew seen rest else s :: firstNew seen rest

/-- The texts of a list without later repetitions. -/
def firstOccurrences (texts : List String) : List String :=
  firstNew ∅ texts

/-- Whether no text stands twice in a list. -/
def areDistinct (texts : List String) : Bool :=
  firstOccurrences texts == texts

theorem firstNew_nil (seen : Std.TreeSet String) : firstNew seen [] = [] := rfl

theorem firstNew_cons (seen : Std.TreeSet String) (s : String) (rest : List String) :
    firstNew seen (s :: rest)
      = if seen.contains s then firstNew (seen.insert s) rest
        else s :: firstNew (seen.insert s) rest := by
  simp only [firstNew, Std.TreeSet.containsThenInsert_fst, Std.TreeSet.containsThenInsert_snd]

/-- Seeing more texts before filters the new ones. -/
theorem firstNew_filter {seen more : Std.TreeSet String} {p : String → Bool}
    (h : ∀ s, more.contains s = (seen.contains s || !p s)) (texts : List String) :
    firstNew more texts = (firstNew seen texts).filter p := by
  induction texts generalizing seen more with
  | nil => rfl
  | cons s rest ih =>
    rw [firstNew_cons, firstNew_cons, @ih (seen.insert s) (more.insert s)
      fun t => by simp only [Std.TreeSet.contains_insert, h, Bool.or_assoc]]
    cases hseen : seen.contains s <;> cases hp : p s <;> simp [h, hseen, hp]

@[simp] theorem firstOccurrences_nil : firstOccurrences [] = [] := rfl

theorem firstOccurrences_cons (s : String) (rest : List String) :
    firstOccurrences (s :: rest) = s :: (firstOccurrences rest).filter fun t => t != s := by
  have later : firstNew ((∅ : Std.TreeSet String).insert s) rest
      = (firstNew ∅ rest).filter fun t => t != s := by
    refine firstNew_filter (fun t => ?_) rest
    rw [Std.TreeSet.contains_insert, Std.LawfulBEqOrd.compare_beq_eq_beq, bne, BEq.comm]
    simp
  simp [firstOccurrences, firstNew_cons, later]

@[simp] theorem mem_firstOccurrences {s : String} {texts : List String} :
    s ∈ firstOccurrences texts ↔ s ∈ texts := by
  induction texts with
  | nil => simp
  | cons t rest ih =>
    by_cases hst : s = t <;> simp [firstOccurrences_cons, ih, hst]

theorem nodup_firstOccurrences (texts : List String) : (firstOccurrences texts).Nodup := by
  induction texts with
  | nil => simp
  | cons s rest ih =>
    rw [firstOccurrences_cons, List.nodup_cons]
    exact ⟨by simp, ih.filter _⟩

theorem firstOccurrences_of_nodup {texts : List String} (h : texts.Nodup) :
    firstOccurrences texts = texts := by
  induction texts with
  | nil => rfl
  | cons s rest ih =>
    rw [List.nodup_cons] at h
    rw [firstOccurrences_cons, ih h.2, List.filter_eq_self.2]
    grind

@[simp] theorem areDistinct_iff {texts : List String} : areDistinct texts ↔ texts.Nodup := by
  rw [areDistinct, beq_iff_eq]
  exact ⟨fun h => h ▸ nodup_firstOccurrences texts, firstOccurrences_of_nodup⟩

end FlatFileDb.Text
