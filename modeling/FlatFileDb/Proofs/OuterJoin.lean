import FlatFileDb.Proofs.Width
import Mathlib.Data.List.Flatten
import Mathlib.Data.List.Perm.Basic
import Mathlib.Data.List.ProdSigma

/-!
# The laws of the four joins

A join goes through the rows of the left side and notes on the way which rows of the right side have
found a partner. What comes out can be said without this order of steps. The inner join are the pairs of
rows with the same key. An outer join adds the rows without a partner, filled up with nulls, of the left
side, of the right side, or of both. And a right join is a left join seen from the other side: the same
rows with their halves exchanged, though not in the same order.
-/

namespace FlatFileDb

/-- The condition of a join read from the other side. -/
def Join.swapped (clause : Join) : Join :=
  { clause with left := clause.right, right := clause.left }

namespace Relation

variable {left right : Relation} {leftColumn rightColumn : Nat} {l r : List String}

/-! ### Rows with the same key -/

/-- Whether two rows hold the same value in the columns of a join, and not a missing one. -/
def SharesKey (leftColumn rightColumn : Nat) (l r : List String) : Prop :=
  Field.isNull (fieldAt l leftColumn) = false ∧ fieldAt l leftColumn = fieldAt r rightColumn

instance : Decidable (SharesKey leftColumn rightColumn l r) :=
  inferInstanceAs (Decidable (_ ∧ _))

theorem keysMatch_eq_decide (leftColumn rightColumn : Nat) (l r : List String) :
    keysMatch (fieldAt l leftColumn) (fieldAt r rightColumn)
      = decide (SharesKey leftColumn rightColumn l r) := by
  rw [Bool.eq_iff_iff, decide_eq_true_iff, keysMatch, SharesKey, Bool.and_eq_true, beq_iff_eq]
  constructor
  · rintro ⟨hnull, hsame⟩
    rw [← hsame, Bool.and_self, Bool.not_eq_true'] at hnull
    exact ⟨hnull, hsame⟩
  · rintro ⟨hnull, hsame⟩
    rw [← hsame, hnull]
    exact ⟨rfl, rfl⟩

theorem sharesKey_comm :
    SharesKey leftColumn rightColumn l r ↔ SharesKey rightColumn leftColumn r l := by
  constructor
  · rintro ⟨hnull, hsame⟩
    exact ⟨hsame ▸ hnull, hsame.symm⟩
  · rintro ⟨hnull, hsame⟩
    exact ⟨hsame ▸ hnull, hsame.symm⟩

/-- The pairs of rows with the same key, those of the first row of the left side first. -/
def partners (left right : Relation) (leftColumn rightColumn : Nat) :
    List (List String × List String) :=
  (left.rows ×ˢ right.rows).filter fun pair => SharesKey leftColumn rightColumn pair.1 pair.2

/-- The rows that share their key with no row of another relation. -/
def alone (relation other : Relation) (column otherColumn : Nat) : List (List String) :=
  relation.rows.filter fun row => ∀ partner ∈ other.rows, ¬SharesKey column otherColumn row partner

/-- The two halves of a row, of which the first has the given width, exchanged. -/
def exchange (width : Nat) (row : List String) : List String :=
  row.drop width ++ row.take width

theorem exchange_append {width : Nat} (h : l.length = width) (r : List String) :
    exchange width (l ++ r) = r ++ l := by
  rw [exchange, ← h, List.drop_left, List.take_left]

/-! ### Lists of pairs -/

theorem perm_swap_product {α β : Type} (xs : List α) (ys : List β) :
    ((xs ×ˢ ys).map Prod.swap).Perm (ys ×ˢ xs) := by
  induction xs with
  | nil => simp
  | cons x rest ih =>
    rw [List.product_cons, List.map_append, List.map_map]
    refine (ih.append_left _).trans ?_
    exact List.map_append_flatMap_perm ys (fun y => (y, x)) fun y => rest.map (Prod.mk y)

theorem perm_swap_partners (left right : Relation) (leftColumn rightColumn : Nat) :
    ((partners left right leftColumn rightColumn).map Prod.swap).Perm
      (partners right left rightColumn leftColumn) := by
  refine List.Perm.trans ?_ ((perm_swap_product left.rows right.rows).filter _)
  rw [List.filter_map]
  refine List.Perm.of_eq (congrArg (List.map Prod.swap) (List.filter_congr fun pair _ => ?_))
  exact decide_eq_decide.2 sharesKey_comm

/-- Going through the rows of the left side, with all their partners, goes through the pairs. -/
theorem map_partners {α : Type} (f : List String → List String → α) :
    (partners left right leftColumn rightColumn).map (fun pair => f pair.1 pair.2)
      = left.rows.flatMap fun l =>
        (right.rows.filter fun r => SharesKey leftColumn rightColumn l r).map (f l) := by
  change ((left.rows.flatMap fun l => right.rows.map (Prod.mk l)).filter _).map _ = _
  rw [List.filter_flatMap, List.map_flatMap]
  refine List.flatMap_congr fun l _ => ?_
  rw [List.filter_map, List.map_map]
  rfl

theorem map_alone {α : Type} (f : List String → α) :
    (alone left right leftColumn rightColumn).map f
      = left.rows.flatMap fun l =>
        if ∀ r ∈ right.rows, ¬SharesKey leftColumn rightColumn l r then [f l] else [] := by
  unfold alone
  induction left.rows with
  | nil => rfl
  | cons l rest ih =>
    rw [List.filter_cons, List.flatMap_cons, ← ih]
    by_cases h : ∀ r ∈ right.rows, ¬SharesKey leftColumn rightColumn l r
    · rw [if_pos (decide_eq_true h), if_pos h]
      rfl
    · rw [if_neg (by rwa [decide_eq_true_iff]), if_neg h]
      rfl

/-! ### The rows of a join -/

/-- The part of a join that comes from the rows of the left side. -/
def fromLeft (keeps : Bool) (left right : Relation) (leftColumn rightColumn : Nat) :
    List (List String) :=
  left.rows.flatMap fun l =>
    (right.rows.filter fun r => SharesKey leftColumn rightColumn l r).map (l ++ ·)
      ++ if keeps ∧ ∀ r ∈ right.rows, ¬SharesKey leftColumn rightColumn l r
        then [l ++ nullRow right.attributes.length] else []

/-- A join are the rows that come from the left side, and behind them those of the right side that have
no partner, if they are kept. -/
theorem joinRows_eq (kind : JoinKind) (left right : Relation) (leftColumn rightColumn : Nat) :
    joinRows kind left right leftColumn rightColumn
      = fromLeft (keepsLeft kind) left right leftColumn rightColumn
        ++ if keepsRight kind then
          (alone right left rightColumn leftColumn).map (nullRow left.attributes.length ++ ·)
        else [] := by
  have hleft : (left.rows.flatMap fun l =>
      let found := right.rows.filter fun r =>
        keysMatch (fieldAt l leftColumn) (fieldAt r rightColumn)
      if found.isEmpty && keepsLeft kind then [l ++ nullRow right.attributes.length]
      else found.map (l ++ ·)) = fromLeft (keepsLeft kind) left right leftColumn rightColumn := by
    refine List.flatMap_congr fun l _ => ?_
    simp only [keysMatch_eq_decide]
    by_cases hnone : ∀ r ∈ right.rows, ¬SharesKey leftColumn rightColumn l r
    · rw [List.filter_eq_nil_iff.2 fun r hr => by simpa using hnone r hr]
      cases keepsLeft kind with
      | false => simp
      | true => simpa using hnone
    · have hsome : (right.rows.filter fun r => SharesKey leftColumn rightColumn l r).isEmpty
          = false := by
        rw [List.isEmpty_eq_false_iff, Ne, List.filter_eq_nil_iff]
        simpa using hnone
      rw [hsome, if_neg (by simp), if_neg fun h => hnone h.2, List.append_nil]
  have hright : (right.rows.filter fun r => !left.rows.any fun l =>
      keysMatch (fieldAt l leftColumn) (fieldAt r rightColumn))
      = alone right left rightColumn leftColumn := by
    refine List.filter_congr fun r _ => ?_
    rw [Bool.eq_iff_iff]
    simp [keysMatch_eq_decide, sharesKey_comm]
  unfold joinRows
  dsimp only at hleft ⊢
  rw [hleft, hright]
  cases keepsRight kind with
  | true => rfl
  | false => exact (List.append_nil _).symm

theorem fromLeft_false :
    fromLeft false left right leftColumn rightColumn
      = (partners left right leftColumn rightColumn).map fun pair => pair.1 ++ pair.2 := by
  rw [map_partners (· ++ ·), fromLeft]
  refine List.flatMap_congr fun l _ => ?_
  rw [if_neg (by simp), List.append_nil]

theorem fromLeft_true :
    fromLeft true left right leftColumn rightColumn
      = left.rows.flatMap fun l =>
        (right.rows.filter fun r => SharesKey leftColumn rightColumn l r).map (l ++ ·)
          ++ if ∀ r ∈ right.rows, ¬SharesKey leftColumn rightColumn l r
            then [l ++ nullRow right.attributes.length] else [] := by
  unfold fromLeft
  simp only [true_and]

/-- What the rows of both sides come to under each kind of join. -/
structure Joins (left right : Relation) (leftColumn rightColumn : Nat)
    (rows : JoinKind → List (List String)) : Prop where
  /-- The inner join puts together the rows with the same key. -/
  inner_eq : rows .inner
    = (partners left right leftColumn rightColumn).map fun pair => pair.1 ++ pair.2
  /-- The left join adds the rows of the left side without a partner. -/
  left_perm : (rows .left).Perm (rows .inner ++
    (alone left right leftColumn rightColumn).map (· ++ nullRow right.attributes.length))
  /-- In a left join the rows of the inner join stand in their order. -/
  inner_sublist : (rows .inner).Sublist (rows .left)
  /-- In a left join the rows without a partner stand in their order. -/
  alone_sublist : ((alone left right leftColumn rightColumn).map
    (· ++ nullRow right.attributes.length)).Sublist (rows .left)
  /-- The right join adds the rows of the right side without a partner at the end. -/
  right_eq : rows .right = rows .inner ++
    (alone right left rightColumn leftColumn).map (nullRow left.attributes.length ++ ·)
  /-- The full join adds them to the left join. -/
  full_eq : rows .full = rows .left ++
    (alone right left rightColumn leftColumn).map (nullRow left.attributes.length ++ ·)

theorem joins_joinRows (left right : Relation) (leftColumn rightColumn : Nat) :
    Joins left right leftColumn rightColumn
      fun kind => joinRows kind left right leftColumn rightColumn := by
  have hinner : joinRows .inner left right leftColumn rightColumn
      = (partners left right leftColumn rightColumn).map fun pair => pair.1 ++ pair.2 := by
    rw [joinRows_eq, ← fromLeft_false]
    exact List.append_nil _
  have hleft : joinRows .left left right leftColumn rightColumn
      = fromLeft true left right leftColumn rightColumn := by
    rw [joinRows_eq]
    exact List.append_nil _
  have hright : joinRows .right left right leftColumn rightColumn
      = joinRows .inner left right leftColumn rightColumn
        ++ (alone right left rightColumn leftColumn).map (nullRow left.attributes.length ++ ·) := by
    rw [hinner, ← fromLeft_false, joinRows_eq]
    rfl
  have hfull : joinRows .full left right leftColumn rightColumn
      = joinRows .left left right leftColumn rightColumn
        ++ (alone right left rightColumn leftColumn).map (nullRow left.attributes.length ++ ·) := by
    rw [hleft, joinRows_eq]
    rfl
  refine ⟨hinner, ?_, ?_, ?_, hright, hfull⟩
  · rw [hleft, hinner, fromLeft_true, map_partners (· ++ ·), map_alone]
    exact (List.flatMap_append_perm _ _ _).symm
  · rw [hleft, hinner, fromLeft_true, map_partners (· ++ ·)]
    exact List.Sublist.flatMap_right _ fun l _ => List.sublist_append_left _ _
  · rw [hleft, fromLeft_true, map_alone]
    exact List.Sublist.flatMap_right _ fun l _ => List.sublist_append_right _ _

/-- The rows of a right join are those of a left join from the other side. -/
theorem Joins.perm_exchange {rows mirrored : JoinKind → List (List String)}
    (h : Joins left right leftColumn rightColumn rows)
    (hmirrored : Joins right left rightColumn leftColumn mirrored) (hwide : left.IsWide) :
    ((rows .right).map (exchange left.attributes.length)).Perm (mirrored .left) := by
  have hpairs : ((partners left right leftColumn rightColumn).map fun pair =>
      pair.1 ++ pair.2).map (exchange left.attributes.length)
      = ((partners left right leftColumn rightColumn).map Prod.swap).map
        fun pair => pair.1 ++ pair.2 := by
    rw [List.map_map, List.map_map]
    refine List.map_congr_left fun pair hpair => exchange_append (hwide pair.1 ?_) pair.2
    exact (List.mem_product.1 (List.mem_filter.1 hpair).1).1
  have halone : ((alone right left rightColumn leftColumn).map
      (nullRow left.attributes.length ++ ·)).map (exchange left.attributes.length)
      = (alone right left rightColumn leftColumn).map
        (· ++ nullRow left.attributes.length) := by
    rw [List.map_map]
    exact List.map_congr_left fun r _ => exchange_append List.length_replicate r
  rw [h.right_eq, h.inner_eq, List.map_append, hpairs, halone]
  refine List.Perm.trans ?_ hmirrored.left_perm.symm
  rw [hmirrored.inner_eq]
  exact ((perm_swap_partners left right leftColumn rightColumn).map _).append_right _

/-! ### Joins by a condition -/

theorem joinColumns_of_resolve? {clause : Join} (hleft : left.resolve? clause.left = some leftColumn)
    (hright : right.resolve? clause.right = some rightColumn) :
    joinColumns left right clause = .ok (leftColumn, rightColumn) := by
  rw [joinColumns, hleft, hright]

theorem rows_join {clause : Join} (hleft : left.resolve? clause.left = some leftColumn)
    (hright : right.resolve? clause.right = some rightColumn) :
    (left.join right clause).map Relation.rows
      = .ok (joinRows clause.kind left right leftColumn rightColumn) := by
  rw [join, joinColumns_of_resolve? hleft hright]
  rfl

/-- Where the first name in the condition is one of the left side and the second one of the right side,
all four joins are there, their rows are related as the kinds of join say, and the right join has the
rows of the left join from the other side, with their halves exchanged. -/
theorem join_obeys {clause : Join} (hwide : left.IsWide)
    (hleft : left.resolve? clause.left = some leftColumn)
    (hright : right.resolve? clause.right = some rightColumn) :
    ∃ rows mirrored : JoinKind → List (List String),
      (∀ kind, (left.join right { clause with kind }).map Relation.rows = .ok (rows kind)) ∧
      (∀ kind, (right.join left { clause.swapped with kind }).map Relation.rows
        = .ok (mirrored kind)) ∧
      Joins left right leftColumn rightColumn rows ∧
      ((rows .right).map (exchange left.attributes.length)).Perm (mirrored .left) := by
  have hjoins := joins_joinRows left right leftColumn rightColumn
  have hmirrored := joins_joinRows right left rightColumn leftColumn
  refine ⟨_, _, fun kind => ?_, fun kind => ?_, hjoins, hjoins.perm_exchange hmirrored hwide⟩
  · exact @rows_join left right leftColumn rightColumn { clause with kind } hleft hright
  · exact @rows_join right left rightColumn leftColumn { clause.swapped with kind } hright hleft

/-- Employees, two of them with the same number and one without. -/
def employees : Relation where
  name := "pegawai"
  attributes := [⟨"id", "pegawai.id", .int⟩, ⟨"nama", "pegawai.nama", .string⟩]
  rows := [["1", "ani"], ["2", "budi"], ["", "cecep"], ["2", "dewi"]]

/-- Wages, two of them of one number, one of nobody and one without a number. -/
def wages : Relation where
  name := "gaji"
  attributes := [⟨"pid", "gaji.pid", .int⟩, ⟨"jumlah", "gaji.jumlah", .int⟩]
  rows := [["2", "500"], ["3", "700"], ["2", "900"], ["NULL", "100"]]

theorem join_obeys_employees :
    employees.IsWide ∧ employees.resolve? "pegawai.id" = some 0 ∧ wages.resolve? "pid" = some 0 ∧
      ∃ rows mirrored : JoinKind → List (List String),
        (∀ kind, (employees.join wages ⟨kind, "gaji", "pegawai.id", "pid"⟩).map Relation.rows
          = .ok (rows kind)) ∧
        (∀ kind, (wages.join employees ⟨kind, "gaji", "pid", "pegawai.id"⟩).map Relation.rows
          = .ok (mirrored kind)) ∧
        Joins employees wages 0 0 rows ∧
        ((rows .right).map (exchange 2)).Perm (mirrored .left) ∧
        rows .full = [["1", "ani", "NULL", "NULL"], ["2", "budi", "2", "500"],
          ["2", "budi", "2", "900"], ["", "cecep", "NULL", "NULL"], ["2", "dewi", "2", "500"],
          ["2", "dewi", "2", "900"], ["NULL", "NULL", "3", "700"], ["NULL", "NULL", "NULL", "100"]] := by
  have hwide : employees.IsWide := by
    unfold IsWide
    decide
  have hleft : employees.resolve? "pegawai.id" = some 0 := by decide
  have hright : wages.resolve? "pid" = some 0 := by decide
  obtain ⟨rows, mirrored, hrows, hmirrored, hjoins, hperm⟩ :=
    @join_obeys employees wages 0 0 ⟨.full, "gaji", "pegawai.id", "pid"⟩ hwide hleft hright
  refine ⟨hwide, hleft, hright, rows, mirrored, hrows, hmirrored, hjoins, hperm, ?_⟩
  refine (Except.ok.inj (Eq.trans ?_ (hrows .full))).symm
  decide

end Relation

end FlatFileDb
