import FlatFileDb.Proofs.Single
import FlatFileDb.Proofs.Width

/-!
# Ordered rows and their pages

An ordered query shows the rows of the same query without an order, sorted by one column. Texts of
unknown type compare as numbers if both are numbers, else as texts, and this need not be transitive. On
values on which it is, the rows come out in order, and rows that compare equal keep the order that they
had, in a descending order as well as in an ascending one. A page cuts a part out of these rows. Pages of
one length, one behind the other, give all rows.
-/

namespace FlatFileDb

/-! ### Stable sorting -/

section Sorting

variable {α : Type} {cmp : α → α → Ordering} {xs ys : List α}

/-- Whether a list holds the elements of another one in order, and those that compare equal as they
stand there. -/
structure SortsStably (cmp : α → α → Ordering) (xs ys : List α) : Prop where
  perm : ys.Perm xs
  sorted : ys.Pairwise fun a b => (cmp a b).isLE
  stable : ∀ a ∈ xs, (ys.filter fun b => cmp a b == .eq) = xs.filter fun b => cmp a b == .eq

/-- Whether an order is transitive on some elements. -/
def IsTransitiveOn (cmp : α → α → Ordering) (xs : List α) : Prop :=
  ∀ a ∈ xs, ∀ b ∈ xs, ∀ c ∈ xs, (cmp a b).isLE → (cmp b c).isLE → (cmp a c).isLE

/-- Sorting a list looks at its own elements only. -/
theorem map_mergeSort_attach (le : α → α → Bool) (xs : List α) :
    (xs.attach.mergeSort fun a b => le a.1 b.1).map Subtype.val = xs.mergeSort le := by
  have hvalues : xs.attach.map Subtype.val = xs := List.attach_map_subtype_val xs
  refine (@List.map_mergeSort _ _ _ le Subtype.val xs.attach fun _ _ _ _ => rfl).trans ?_
  rw [hvalues]

variable [Std.OrientedCmp cmp]

theorem isLE_total (a b : α) : ((cmp a b).isLE || (cmp b a).isLE) = true := by
  rw [@Std.OrientedCmp.eq_swap α cmp _ b a]
  cases cmp a b <;> rfl

section Transitive

variable (h : IsTransitiveOn cmp xs)
include h

theorem pairwise_mergeSort_of_transitive :
    (xs.mergeSort fun a b => (cmp a b).isLE).Pairwise fun a b => (cmp a b).isLE := by
  rw [← map_mergeSort_attach, List.pairwise_map]
  exact List.pairwise_mergeSort (fun a b c => h a.1 a.2 b.1 b.2 c.1 c.2) (fun a b => isLE_total a.1 b.1)
    xs.attach

/-- What stands in order already keeps its order. -/
theorem sublist_mergeSort_of_transitive (hsublist : ys.Sublist xs)
    (hsorted : ys.Pairwise fun a b => (cmp a b).isLE) :
    ys.Sublist (xs.mergeSort fun a b => (cmp a b).isLE) := by
  rw [← List.attach_map_subtype_val xs, List.sublist_map_iff] at hsublist
  obtain ⟨part, hpart, rfl⟩ := hsublist
  rw [← map_mergeSort_attach]
  refine List.Sublist.map _ (List.sublist_mergeSort ?_ (fun a b => isLE_total a.1 b.1) ?_ hpart)
  · exact fun a b c => h a.1 a.2 b.1 b.2 c.1 c.2
  · exact List.pairwise_map.1 hsorted

theorem sortsStably_mergeSort :
    SortsStably cmp xs (xs.mergeSort fun a b => (cmp a b).isLE) where
  perm := List.mergeSort_perm xs _
  sorted := pairwise_mergeSort_of_transitive h
  stable := by
    intro a ha
    have hequal : (xs.filter fun b => cmp a b == .eq).Pairwise fun b c => (cmp b c).isLE := by
      rw [List.pairwise_filter]
      refine List.pairwise_of_forall_mem_list fun b hb c hc hab hac => h b hb a ha c hc ?_ ?_
      · rw [@Std.OrientedCmp.eq_swap α cmp _ b a, eq_of_beq hab]
        rfl
      · rw [eq_of_beq hac]
        rfl
    have hkept := (sublist_mergeSort_of_transitive h List.filter_sublist hequal).filter
      fun b => cmp a b == .eq
    rw [List.filter_filter] at hkept
    simp only [Bool.and_self] at hkept
    have hlength := ((List.mergeSort_perm xs fun a b => (cmp a b).isLE).filter
      fun b => cmp a b == .eq).length_eq
    exact (hkept.eq_of_length hlength.symm).symm

end Transitive

end Sorting

/-! ### Pages -/

/-- Pages of one length, one behind the other, are what they reach to. -/
theorem flatMap_pages {α : Type} (xs : List α) (size count : Nat) :
    ((List.range count).flatMap fun k => (xs.drop (k * size)).take size) = xs.take (count * size) := by
  induction count with
  | zero => simp
  | succ count ih =>
    rw [List.range_succ, List.flatMap_append, ih, Nat.succ_mul, List.take_add]
    simp

/-! ### The order of texts -/

theorem Number.Binary64.compare?_swap (x y : Number.Binary64) :
    x.compare? y = (y.compare? x).map Ordering.swap := by
  cases x with
  | nan => cases y <;> rfl
  | finite a =>
    cases y with
    | nan => rfl
    | finite b => exact congrArg some Std.OrientedCmp.eq_swap
    | infinity negative => cases negative <;> rfl
  | infinity negative =>
    cases y with
    | nan => rfl
    | finite b => cases negative <;> rfl
    | infinity other => exact congrArg some Std.OrientedCmp.eq_swap

instance : Std.OrientedCmp compareLoose where
  eq_swap {a b} := by
    unfold compareLoose Loose.compare
    cases (Loose.ofText a).number? <;> cases (Loose.ofText b).number?
    case some.some x y =>
      dsimp only
      rw [Number.Binary64.compare?_swap]
      cases y.compare? x <;> rfl
    all_goals exact @Std.OrientedCmp.eq_swap String Ord.compare _ _ _

/-- How an ordered query compares two rows by a column. -/
def OrderBy.compare (key : OrderBy) (index : Nat) (a b : List String) : Ordering :=
  let ordering := compareLoose (Relation.fieldAt a index) (Relation.fieldAt b index)
  if key.descending then ordering.swap else ordering

instance (key : OrderBy) (index : Nat) : Std.OrientedCmp (key.compare index) where
  eq_swap {a b} := by
    unfold OrderBy.compare
    dsimp only
    rw [@Std.OrientedCmp.eq_swap String compareLoose]
    cases key.descending <;> rfl

theorem OrderBy.isTransitiveOn {key : OrderBy} {index : Nat} {rows : List (List String)}
    (h : IsTransitiveOn compareLoose (rows.map fun row => Relation.fieldAt row index)) :
    IsTransitiveOn (key.compare index) rows := by
  intro a ha b hb c hc
  have hforth := h _ (List.mem_map_of_mem ha) _ (List.mem_map_of_mem hb) _ (List.mem_map_of_mem hc)
  have hback := h _ (List.mem_map_of_mem hc) _ (List.mem_map_of_mem hb) _ (List.mem_map_of_mem ha)
  unfold OrderBy.compare
  cases key.descending with
  | false => exact hforth
  | true =>
    dsimp only
    simp only [if_true, ← @Std.OrientedCmp.eq_swap String compareLoose]
    exact fun hab hbc => hback hbc hab

namespace Query

/-- A query without its order, all its rows on one page. -/
def unordered (query : Query) : Query :=
  { query with orderBy := none, limit := -1, offset := 0 }

/-- A query with another limit and another offset. -/
def page (query : Query) (limit offset : Int) : Query :=
  { query with limit, offset }

end Query

namespace Relation

/-- The rows of an ordered query are sorted by the column. -/
theorem sortOn_eq_mergeSort (key : OrderBy) (index : Nat) (rows : List (List String)) :
    sortOn (fun row => Loose.ofText (fieldAt row index)) (comesBefore key.descending) rows
      = rows.mergeSort fun a b => (key.compare index a b).isLE := by
  rw [sortOn_eq]
  congr 1
  funext a b
  unfold OrderBy.compare comesBefore
  rw [@Std.OrientedCmp.eq_swap String compareLoose]
  change (!(compareLoose (fieldAt b index) (fieldAt a index)
    == if key.descending then Ordering.gt else Ordering.lt)) = _
  cases key.descending <;> cases compareLoose (fieldAt b index) (fieldAt a index) <;> rfl

variable {relation : Relation} {query : Query} {key : OrderBy} {index : Nat} {unordered : Outcome}

/-- A page of an ordered query is cut out of what the query without an order answers, sorted. -/
theorem answer_page (hkey : query.orderBy = some key)
    (h : relation.answer query.unordered = .ok unordered)
    (hindex : shownColumn? unordered.columns key.column = some index) (limit offset : Int) :
    relation.answer (query.page limit offset)
      = .ok (.ofRows unordered.columns (paginate limit offset
          (unordered.rows.mergeSort fun a b => (key.compare index a b).isLE))) := by
  obtain ⟨⟨columns, rows⟩, hproject, h⟩ := Action.of_bind_eq_ok h
  obtain rfl := Except.ok.inj h
  change shownColumn? columns key.column = some index at hindex
  have hsorted : order query.table columns rows query.orderBy
      = .ok (rows.mergeSort fun a b => (key.compare index a b).isLE) := by
    rw [hkey, ← sortOn_eq_mergeSort, order, hindex]
  change ((relation.select query.conditions).project query >>= fun found =>
    order query.table found.1 found.2 query.orderBy >>= fun rows =>
      pure (Outcome.ofRows found.1 (paginate limit offset rows))) = _
  change (relation.select query.conditions).project query = _ at hproject
  rw [hproject]
  change (order query.table columns rows query.orderBy >>= fun rows =>
    pure (Outcome.ofRows columns (paginate limit offset rows))) = _
  rw [hsorted]
  rfl

/-- What limits and offsets show of some rows. -/
structure IsPaged (rows : List (List String)) (shown : Int → Int → List (List String)) : Prop where
  /-- A limit that is not positive keeps everything behind the offset. -/
  unlimited : ∀ limit offset, limit ≤ 0 → shown limit offset = rows.drop offset.toNat
  /-- A positive limit keeps as many rows behind the offset, if there are so many. -/
  limited : ∀ limit offset, 0 < limit →
    shown limit offset = (rows.drop offset.toNat).take limit.toNat
  /-- An offset that is not positive skips nothing. -/
  unskipped : ∀ limit offset, offset ≤ 0 → shown limit offset = shown limit 0
  /-- Pages of one length give all rows, if there are enough of them. -/
  pages : ∀ size count : Nat, 0 < size → rows.length ≤ count * size →
    ((List.range count).flatMap fun k => shown size (k * size : Nat)) = rows

theorem isPaged_paginate (rows : List (List String)) :
    IsPaged rows fun limit offset => paginate limit offset rows where
  unlimited := fun _ _ hlimit => if_neg (by omega)
  limited := fun _ _ hlimit => if_pos hlimit
  unskipped := by
    intro limit offset hoffset
    unfold paginate
    rw [Int.toNat_eq_zero.2 hoffset, Int.toNat_zero]
  pages := by
    intro size count hsize hcount
    have hpage (k : Nat) : paginate size (k * size : Nat) rows = (rows.drop (k * size)).take size := by
      unfold paginate
      rw [if_pos (by omega), Int.toNat_natCast, Int.toNat_natCast]
    simp only [hpage]
    rw [flatMap_pages, List.take_of_length_le hcount]

end Relation

namespace Engine

variable {who : Identity} {e : Engine} {query : Query} {key : OrderBy} {index : Nat}
  {unordered : Outcome}

/-- The sources of a query, joined. -/
def joinedSources (executing : Executing) (who : Identity) (query : Query) :
    Action Engine Relation := do
  let database ← Action.ofExcept who.requireDatabase
  let first ← source executing who database query.table (narrowing? query)
  joinSources executing who database first query.joins

theorem executeAs_select (who : Identity) (query : Query) (e : Engine) :
    (executeAs who (.select query) e).1
      = (joinedSources (executeWithin e.settings.nestingLimit) who query e).1
        >>= fun relation => relation.answer query := by
  change (executeWithin (e.settings.nestingLimit + 1) who (.select query) e).1 = _
  rw [executeWithin, perform_select]
  have hselect : (Action.ofExcept who.requireDatabase >>= fun database =>
      select (executeWithin e.settings.nestingLimit) who database query)
      = joinedSources (executeWithin e.settings.nestingLimit) who query
        >>= fun relation => Action.ofExcept (relation.answer query) := by
    unfold joinedSources select
    simp only [bind_assoc]
  rw [hselect, Action.bind_apply]
  rcases joinedSources (executeWithin e.settings.nestingLimit) who query e with ⟨failure | found, after⟩
  · rfl
  · rfl

/-- In every state, an ordered query shows what the same query shows without an order, sorted stably by
the column, if its values have a transitive order; and all its pages are cut out of these rows. -/
theorem select_ordered (hkey : query.orderBy = some key)
    (h : (executeAs who (.select query.unordered) e).1 = .ok unordered)
    (hindex : Relation.shownColumn? unordered.columns key.column = some index)
    (htransitive : IsTransitiveOn compareLoose
      (unordered.rows.map fun row => Relation.fieldAt row index)) :
    ∃ ordered shown, SortsStably (key.compare index) unordered.rows ordered ∧
      Relation.IsPaged ordered shown ∧
      ∀ limit offset, (executeAs who (.select (query.page limit offset)) e).1
        = .ok (.ofRows unordered.columns (shown limit offset)) := by
  rw [executeAs_select] at h
  obtain ⟨relation, hrelation, hanswer⟩ := Action.of_bind_eq_ok h
  refine ⟨_, _, sortsStably_mergeSort (OrderBy.isTransitiveOn htransitive),
    Relation.isPaged_paginate _, fun limit offset => ?_⟩
  rw [executeAs_select]
  change (joinedSources (executeWithin e.settings.nestingLimit) who query e).1 >>= _ = _
  change (joinedSources (executeWithin e.settings.nestingLimit) who query e).1 = _ at hrelation
  rw [hrelation]
  exact Relation.answer_page hkey hanswer hindex limit offset

end Engine

namespace Run

/-- Points, two of them of one value in different spellings, and one without a value. -/
def points : Run :=
  .script "asep" "kantor" ["CREATE TABLE t id:INT, nilai:STRING", "INSERT t 1|2", "INSERT t 2|1.0",
    "INSERT t 3|10", "INSERT t 4|1", "INSERT t 5|"]

/-- The points from the highest to the lowest. -/
def pointQuery : Query :=
  { Query.all "t" with fields := ["t.nilai", "id"], orderBy := some ⟨"nilai", true⟩ }

theorem select_ordered_points :
    (Engine.executeAs author (.select pointQuery.unordered) points.last).1
        = .ok (.ofRows ["t.nilai", "id"] [["2", "1"], ["1.0", "2"], ["10", "3"], ["1", "4"], ["", "5"]]) ∧
      Relation.shownColumn? ["t.nilai", "id"] "nilai" = some 0 ∧
      IsTransitiveOn compareLoose ["2", "1.0", "10", "1", ""] ∧
      ∃ ordered shown, SortsStably (OrderBy.compare ⟨"nilai", true⟩ 0)
          [["2", "1"], ["1.0", "2"], ["10", "3"], ["1", "4"], ["", "5"]] ordered ∧
        Relation.IsPaged ordered shown ∧
        ∀ limit offset, (Engine.executeAs author (.select (pointQuery.page limit offset)) points.last).1
          = .ok (.ofRows ["t.nilai", "id"] (shown limit offset)) := by
  have hunordered : (Engine.executeAs author (.select pointQuery.unordered) points.last).1
      = .ok (.ofRows ["t.nilai", "id"]
          [["2", "1"], ["1.0", "2"], ["10", "3"], ["1", "4"], ["", "5"]]) := by
    decide +kernel
  have hindex : Relation.shownColumn? ["t.nilai", "id"] "nilai" = some 0 := by decide
  have htransitive : IsTransitiveOn compareLoose ["2", "1.0", "10", "1", ""] := by
    unfold IsTransitiveOn
    decide +kernel
  obtain ⟨ordered, shown, hordered, hpaged, hshown⟩ :=
    @Engine.select_ordered author points.last pointQuery ⟨"nilai", true⟩ 0 _ rfl hunordered hindex
      htransitive
  refine ⟨hunordered, hindex, htransitive, ordered, shown, hordered, hpaged, hshown⟩

end Run

end FlatFileDb
