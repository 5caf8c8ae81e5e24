import FlatFileDb.Text.Distinct
import Std.Data.TreeMap.Lemmas

/-!
# Grouping

The elements of a list by a name that each of them has. The groups stand in the order in which their
names first appear, and in a group the elements keep their order.
-/

namespace FlatFileDb

/-- The elements under each name. -/
def gather {α : Type} (name : α → String) (xs : List α) : Std.TreeMap String (List α) :=
  xs.foldr (fun x found => found.alter (name x) fun group => some (x :: group.getD [])) ∅

/-- The elements that have the same name, under this name. -/
def groupBy {α : Type} (name : α → String) (xs : List α) : List (String × List α) :=
  let found := gather name xs
  (Text.firstOccurrences (xs.map name)).map fun s => (s, found.getD s [])

theorem getD_gather {α : Type} (name : α → String) (xs : List α) (s : String) :
    (gather name xs).getD s [] = xs.filter fun x => name x == s := by
  induction xs with
  | nil => simp [gather]
  | cons x rest ih =>
    rw [gather] at ih ⊢
    rw [List.foldr_cons, Std.TreeMap.getD_alter, List.filter_cons]
    by_cases h : name x = s
    · simp [h, ← ih, Std.TreeMap.getD_eq_getD_getElem?]
    · simp [h, ih]

/-- There is one group for each name, which holds the elements of this name. -/
theorem groupBy_eq {α : Type} (name : α → String) (xs : List α) :
    groupBy name xs
      = (Text.firstOccurrences (xs.map name)).map fun s => (s, xs.filter fun x => name x == s) := by
  simp only [groupBy, getD_gather]

end FlatFileDb
