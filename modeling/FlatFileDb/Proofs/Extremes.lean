import FlatFileDb.Proofs.Agreement
import FlatFileDb.Proofs.Paging
import FlatFileDb.Proofs.Partition

/-!
# The least and the greatest value of a column

The least value of a column is looked for from the first row to the last and given up only for a smaller
one, the greatest is given up for one that is not smaller. So among values that compare equal the first is
the least, and the last the greatest. Sorted stably, these are the values at the two ends. Turned round,
the greatest is the least of the values read backwards, and one argument serves for both.
-/

namespace FlatFileDb

section Extremes

variable {α : Type} {cmp : α → α → Ordering} {xs ys : List α} {m n : α}

/-! ### The first among the smallest -/

/-- Whether an element is the first among the smallest of a list. -/
structure IsFirstLeast (cmp : α → α → Ordering) (xs : List α) (m : α) : Prop where
  least : ∀ x ∈ xs, (cmp m x).isLE
  first : xs.find? (fun x => cmp m x == .eq) = some m

namespace IsFirstLeast

theorem mem (h : IsFirstLeast cmp xs m) : m ∈ xs :=
  List.mem_of_find?_eq_some h.first

/-! What is not smaller does not take the place behind the list, what is greater not in front of it. -/

theorem concat_of_isLE (h : IsFirstLeast cmp xs m) (hle : (cmp m n).isLE) :
    IsFirstLeast cmp (xs ++ [n]) m where
  least := by
    intro x hx
    rcases List.mem_append.1 hx with hx | hx
    · exact h.least x hx
    · rwa [List.mem_singleton.1 hx]
  first := by rw [List.find?_append, h.first, Option.some_or]

theorem cons_of_lt (h : IsFirstLeast cmp xs m) (hlt : cmp m n = .lt) :
    IsFirstLeast cmp (n :: xs) m where
  least := by
    intro x hx
    rcases List.mem_cons.1 hx with rfl | hx
    · rw [hlt]
      rfl
    · exact h.least x hx
  first := by
    rw [List.find?_cons_of_neg, h.first]
    rw [hlt]
    decide

variable [Std.OrientedCmp cmp]

theorem singleton (m : α) : IsFirstLeast cmp [m] m where
  least := by
    intro x hx
    rw [List.mem_singleton.1 hx]
    exact Std.ReflCmp.isLE_rfl
  first := by
    rw [List.find?_cons_of_pos]
    exact beq_iff_eq.2 Std.ReflCmp.compare_self

/-- What compares equal to one of the smallest compares equal to the other ones. -/
theorem eq_of_eq (htransitive : IsTransitiveOn cmp xs) (hm : IsFirstLeast cmp xs m)
    (hn : IsFirstLeast cmp xs n) {x : α} (hx : x ∈ xs) (h : cmp m x = .eq) : cmp n x = .eq := by
  refine Std.OrientedCmp.isLE_antisymm (hn.least x hx) (htransitive x hx m hm.mem n hn.mem ?_ ?_)
  · rw [Std.OrientedCmp.eq_symm h]
    rfl
  · exact hm.least n hn.mem

theorem unique (htransitive : IsTransitiveOn cmp xs) (hm : IsFirstLeast cmp xs m)
    (hn : IsFirstLeast cmp xs n) : m = n := by
  have hsame : xs.filter (fun x => cmp m x == .eq) = xs.filter fun x => cmp n x == .eq := by
    refine List.filter_congr fun x hx => ?_
    rw [Bool.eq_iff_iff, beq_iff_eq, beq_iff_eq]
    exact ⟨eq_of_eq htransitive hm hn hx, eq_of_eq htransitive hn hm hx⟩
  have hfirst := hm.first
  rw [← List.head?_filter, hsame, List.head?_filter, hn.first] at hfirst
  exact (Option.some.inj hfirst).symm

/-! What is smaller takes the place behind the list, what is not greater in front of it. -/

theorem concat_of_gt (h : IsFirstLeast cmp xs m) (htransitive : IsTransitiveOn cmp (xs ++ [n]))
    (hgt : cmp m n = .gt) : IsFirstLeast cmp (xs ++ [n]) n := by
  have hn : n ∈ xs ++ [n] := by simp
  have hinside {x : α} (hx : x ∈ xs) : x ∈ xs ++ [n] := List.mem_append_left _ hx
  have hnm : cmp n m = .lt := Std.OrientedCmp.gt_iff_lt.1 hgt
  have hle {x : α} (hx : x ∈ xs) : (cmp n x).isLE :=
    htransitive n hn m (hinside h.mem) x (hinside hx) (by rw [hnm]; rfl) (h.least x hx)
  have hnone : xs.find? (fun x => cmp n x == .eq) = none := by
    rw [List.find?_eq_none]
    intro x hx hequal
    -- Then `m` would not be greater than what stands behind the list.
    have hxn : (cmp x n).isLE := by
      rw [Std.OrientedCmp.eq_symm (eq_of_beq hequal)]
      rfl
    have hmn := htransitive m (hinside h.mem) x (hinside hx) n hn (h.least x hx) hxn
    rw [hgt] at hmn
    exact absurd hmn (by decide)
  constructor
  · intro x hx
    rcases List.mem_append.1 hx with hx | hx
    · exact hle hx
    · rw [List.mem_singleton.1 hx]
      exact Std.ReflCmp.isLE_rfl
  · rw [List.find?_append, hnone, Option.none_or]
    exact (singleton n).first

theorem cons_of_isLE (h : IsFirstLeast cmp xs m) (htransitive : IsTransitiveOn cmp (n :: xs))
    (hle : (cmp n m).isLE) : IsFirstLeast cmp (n :: xs) n where
  least := by
    intro x hx
    rcases List.mem_cons.1 hx with rfl | hin
    · exact Std.ReflCmp.isLE_rfl
    · exact htransitive n (by simp) m (List.mem_cons_of_mem _ h.mem) x hx hle (h.least x hin)
  first := List.find?_cons_of_pos (beq_iff_eq.2 Std.ReflCmp.compare_self)

end IsFirstLeast

theorem IsTransitiveOn.subset (h : IsTransitiveOn cmp xs) (hsubset : ys ⊆ xs) : IsTransitiveOn cmp ys :=
  fun a ha b hb c hc => h a (hsubset ha) b (hsubset hb) c (hsubset hc)

theorem IsTransitiveOn.reverse (h : IsTransitiveOn cmp xs) :
    IsTransitiveOn (fun a b => cmp b a) xs.reverse :=
  fun a ha b hb c hc hab hbc => h c (List.mem_reverse.1 hc) b (List.mem_reverse.1 hb) a
    (List.mem_reverse.1 ha) hbc hab

/-! ### The ends of a sorted list -/

namespace SortsStably

variable [Std.OrientedCmp cmp]

/-- The first of a sorted list is the first among the smallest. -/
theorem isFirstLeast (h : SortsStably cmp xs (m :: ys)) : IsFirstLeast cmp xs m where
  least := by
    intro x hx
    rcases List.mem_cons.1 (h.perm.mem_iff.2 hx) with rfl | hx
    · exact Std.ReflCmp.isLE_rfl
    · exact List.rel_of_pairwise_cons h.sorted hx
  first := by
    have hm : m ∈ xs := h.perm.mem_iff.1 List.mem_cons_self
    rw [← List.head?_filter, ← h.stable m hm, List.head?_filter]
    exact List.find?_cons_of_pos (beq_iff_eq.2 Std.ReflCmp.compare_self)

/-- There is only one way to sort a list stably. -/
theorem unique {zs : List α} (hy : SortsStably cmp xs ys) (hz : SortsStably cmp xs zs) : ys = zs := by
  have hperm : ys.Perm zs := hy.perm.trans hz.perm.symm
  have hclasses : ∀ a ∈ ys, (ys.filter fun b => cmp a b == .eq) = zs.filter fun b => cmp a b == .eq :=
    fun a ha => (hy.stable a (hy.perm.mem_iff.1 ha)).trans (hz.stable a (hy.perm.mem_iff.1 ha)).symm
  have hysorted := hy.sorted
  have hzsorted := hz.sorted
  clear hy hz
  induction ys generalizing zs with
  | nil => exact (List.nil_perm.1 hperm).symm
  | cons y ys ih =>
    cases zs with
    | nil => exact absurd hperm.length_eq (by simp)
    | cons z zs =>
      have hle : (cmp y z).isLE := by
        rcases List.mem_cons.1 (hperm.mem_iff.2 (List.mem_cons_self : z ∈ z :: zs)) with rfl | hz
        · exact Std.ReflCmp.isLE_rfl
        · exact List.rel_of_pairwise_cons hysorted hz
      have hge : (cmp z y).isLE := by
        rcases List.mem_cons.1 (hperm.mem_iff.1 (List.mem_cons_self : y ∈ y :: ys)) with rfl | hy
        · exact Std.ReflCmp.isLE_rfl
        · exact List.rel_of_pairwise_cons hzsorted hy
      -- The two heads compare equal, so both are the first of one class.
      have hself : cmp y y = .eq := Std.ReflCmp.compare_self
      have hequal : cmp y z = .eq := Std.OrientedCmp.isLE_antisymm hle hge
      have hclass := hclasses y List.mem_cons_self
      rw [List.filter_cons_of_pos (by rw [hself]; rfl), List.filter_cons_of_pos (by rw [hequal]; rfl)]
        at hclass
      obtain rfl := (List.cons.inj hclass).1
      refine congrArg (List.cons y) (ih hperm.cons_inv ?_ hysorted.of_cons hzsorted.of_cons)
      intro a ha
      have hrest := hclasses a (List.mem_cons_of_mem y ha)
      rw [List.filter_cons, List.filter_cons] at hrest
      split at hrest
      · exact (List.cons.inj hrest).2
      · exact hrest

/-- Read backwards, a sorted list is sorted the other way. -/
theorem reverse (h : SortsStably cmp xs ys) :
    SortsStably (fun a b => cmp b a) xs.reverse ys.reverse where
  perm := (List.reverse_perm ys).trans (h.perm.trans (List.reverse_perm xs).symm)
  sorted := List.pairwise_reverse.2 h.sorted
  stable := by
    intro a ha
    have hturned (zs : List α) : zs.reverse.filter (fun b => cmp b a == .eq)
        = (zs.filter fun b => cmp a b == .eq).reverse := by
      rw [← List.filter_reverse]
      refine List.filter_congr fun b _ => ?_
      rw [Bool.eq_iff_iff, beq_iff_eq, beq_iff_eq]
      exact Std.OrientedCmp.eq_comm
    rw [hturned, hturned, h.stable a (List.mem_reverse.1 ha)]

end SortsStably

/-! ### Looking for the least and the greatest -/

variable [Std.OrientedCmp cmp]

/-- Given up only for a smaller one. -/
theorem isFirstLeast_foldl (first : α) (rest : List α) (h : IsTransitiveOn cmp (first :: rest)) :
    IsFirstLeast cmp (first :: rest)
      (rest.foldl (fun best next => if cmp best next == .gt then next else best) first) := by
  induction rest using List.reverseRecOn with
  | nil => exact .singleton first
  | append_singleton rest next ih =>
    have hbefore := ih (h.subset (by simp))
    rw [List.foldl_append, List.foldl_cons, List.foldl_nil, ← List.cons_append]
    cases hcompared : cmp (rest.foldl _ first) next with
    | gt =>
      rw [if_pos (beq_self_eq_true _)]
      exact hbefore.concat_of_gt h hcompared
    | lt | eq =>
      rw [if_neg (by decide)]
      exact hbefore.concat_of_isLE (by rw [hcompared]; rfl)

/-- Given up for one that is not smaller. -/
theorem isFirstLeast_foldl_reverse (first : α) (rest : List α)
    (h : IsTransitiveOn cmp (first :: rest)) :
    IsFirstLeast (fun a b => cmp b a) (first :: rest).reverse
      (rest.foldl (fun best next => if cmp best next == .gt then best else next) first) := by
  have := @Std.OrientedCmp.opposite α cmp _
  induction rest using List.reverseRecOn with
  | nil => exact .singleton first
  | append_singleton rest next ih =>
    have hbefore := ih (h.subset (by simp))
    have hreverse : (first :: (rest ++ [next])).reverse = next :: (first :: rest).reverse := by simp
    have htransitive := h.reverse
    rw [hreverse] at htransitive ⊢
    rw [List.foldl_append, List.foldl_cons, List.foldl_nil]
    cases hcompared : cmp (rest.foldl _ first) next with
    | gt =>
      rw [if_pos (beq_self_eq_true _)]
      exact hbefore.cons_of_lt (Std.OrientedCmp.gt_iff_lt.1 hcompared)
    | lt | eq =>
      rw [if_neg (by decide)]
      exact hbefore.cons_of_isLE htransitive (by rw [hcompared]; rfl)

end Extremes

namespace Aggregate

variable {values sorted : List String} {value : String}

theorem least?_ofText (first : String) (rest : List String) :
    (least? ((first :: rest).map Loose.ofText)).map Loose.text
      = some (rest.foldl (fun best next => if compareLoose best next == .gt then next else best) first) := by
  rw [List.map_cons, least?, List.foldl_map]
  refine congrArg (fun best => some best.text) (@List.foldl_hom _ _ _ Loose.ofText
    (fun best next => if compareLoose best next == .gt then next else best) _ _ _ fun best next => ?_)
  rw [compareLoose]
  exact (apply_ite Loose.ofText _ _ _).symm

theorem greatest?_ofText (first : String) (rest : List String) :
    (greatest? ((first :: rest).map Loose.ofText)).map Loose.text
      = some (rest.foldl (fun best next => if compareLoose best next == .gt then best else next) first) := by
  rw [List.map_cons, greatest?, List.foldl_map]
  refine congrArg (fun best => some best.text) (@List.foldl_hom _ _ _ Loose.ofText
    (fun best next => if compareLoose best next == .gt then best else next) _ _ _ fun best next => ?_)
  rw [compareLoose]
  exact (apply_ite Loose.ofText _ _ _).symm

/-- The least value is the first among the smallest. -/
theorem isFirstLeast_minimum (hne : values ≠ []) (htransitive : IsTransitiveOn compareLoose values) :
    IsFirstLeast compareLoose values (ofValues .minimum values) := by
  cases values with
  | nil => exact absurd rfl hne
  | cons first others =>
    change IsFirstLeast compareLoose (first :: others)
      (((least? ((first :: others).map Loose.ofText)).map Loose.text).getD Field.nullText)
    rw [least?_ofText, Option.getD_some]
    exact isFirstLeast_foldl first others htransitive

/-- The greatest value is the last among the greatest. -/
theorem isFirstLeast_maximum (hne : values ≠ []) (htransitive : IsTransitiveOn compareLoose values) :
    IsFirstLeast (fun a b => compareLoose b a) values.reverse (ofValues .maximum values) := by
  cases values with
  | nil => exact absurd rfl hne
  | cons first others =>
    change IsFirstLeast (fun a b => compareLoose b a) (first :: others).reverse
      (((greatest? ((first :: others).map Loose.ofText)).map Loose.text).getD Field.nullText)
    rw [greatest?_ofText, Option.getD_some]
    exact isFirstLeast_foldl_reverse first others htransitive

/-- The least value stands in front of the sorted ones. -/
theorem ofValues_minimum (htransitive : IsTransitiveOn compareLoose values)
    (h : SortsStably compareLoose values sorted) (hfirst : sorted.head? = some value) :
    ofValues .minimum values = value := by
  obtain ⟨rest, rfl⟩ := List.head?_eq_some_iff.1 hfirst
  have hne : values ≠ [] := List.ne_nil_of_mem (h.perm.mem_iff.1 List.mem_cons_self)
  exact (isFirstLeast_minimum hne htransitive).unique htransitive h.isFirstLeast

/-- The greatest value stands behind the sorted ones. -/
theorem ofValues_maximum (htransitive : IsTransitiveOn compareLoose values)
    (h : SortsStably compareLoose values sorted) (hlast : sorted.getLast? = some value) :
    ofValues .maximum values = value := by
  obtain ⟨rest, rfl⟩ := List.getLast?_eq_some_iff.1 hlast
  have hne : values ≠ [] := by
    rintro rfl
    exact absurd h.perm.length_eq (by simp)
  have hturned := h.reverse
  rw [List.reverse_append, List.reverse_singleton, List.singleton_append] at hturned
  have := @Std.OrientedCmp.opposite String compareLoose _
  exact (isFirstLeast_maximum hne htransitive).unique htransitive.reverse hturned.isFirstLeast

end Aggregate

/-! ### Names of columns in fields -/

namespace TableSchema

variable {schema : TableSchema} {column : Column} {name : String}

/-- Whether a name means a column of a table: its own, alone or behind the name of the table. -/
def Names (schema : TableSchema) (name : String) (column : Column) : Prop :=
  column ∈ schema.columns ∧
    (name = column.name ∨ name = Relation.qualify schema.name column.name)

/-- Besides the characters of names, only points stand in such a name. -/
theorem Names.isNameChar_or (hsound : schema.IsSound) (hname : Name.isValid schema.name = true)
    (h : schema.Names name column) {c : Char} (hc : c ∈ name.toList) :
    Text.isNameChar c = true ∨ c = '.' := by
  have hvalid := hsound.valid column h.1
  rcases h.2 with rfl | rfl
  · exact .inl (Name.isNameChar_of_mem hvalid hc)
  · rw [Relation.qualify, String.toList_append, String.toList_append, List.mem_append,
      List.mem_append] at hc
    rcases hc with (hc | hc) | hc
    · exact .inl (Name.isNameChar_of_mem hname hc)
    · exact .inr (by simpa using hc)
    · exact .inl (Name.isNameChar_of_mem hvalid hc)

theorem Names.not_mem (hsound : schema.IsSound) (hname : Name.isValid schema.name = true)
    (h : schema.Names name column) {c : Char} (hc : Text.isNameChar c = false) (hpoint : c ≠ '.') :
    c ∉ name.toList := by
  intro hmem
  rcases h.isNameChar_or hsound hname hmem with hchar | hchar
  · rw [hc] at hchar
    exact absurd hchar (by decide)
  · exact hpoint hchar

theorem Names.ne_nil (hsound : schema.IsSound) (h : schema.Names name column) : name.toList ≠ [] := by
  rcases h.2 with rfl | rfl
  · have hvalid := hsound.valid column h.1
    rw [Name.isValid, Bool.and_eq_true] at hvalid
    simpa using hvalid.1
  · simp [Relation.qualify]

/-- A relation finds the column under such a name. -/
theorem Names.resolve? (hsound : schema.IsSound) (h : schema.Names name column) (rows : List String) :
    ∃ index, (Relation.ofTable schema rows).resolve? name = some index := by
  obtain ⟨index, hindex⟩ := List.mem_iff_getElem?.1 h.1
  refine ⟨index, ?_⟩
  rw [Relation.resolve?_ofTable hsound.valid]
  have hcolumn : schema.conditionColumn name = column.name := by
    unfold conditionColumn
    rcases h.2 with rfl | rfl
    · cases hstart : Text.afterStart? (schema.name ++ ".").toList column.name.toList with
      | none => rfl
      | some rest =>
        have hpoint : '.' ∈ column.name.toList := by
          rw [Text.afterStart?_eq_some.1 hstart]
          simp
        exact absurd hpoint (Name.not_mem (hsound.valid column h.1) (by decide))
    · have hstart : Text.afterStart? (schema.name ++ ".").toList
          (Relation.qualify schema.name column.name).toList = some column.name.toList := by
        rw [Text.afterStart?_eq_some, Relation.qualify, String.toList_append, String.toList_append]
      rw [hstart]
      exact String.ofList_toList
  rw [hcolumn]
  exact columnIndex?_of_getElem? hsound hindex

end TableSchema

namespace Aggregate

variable {schema : TableSchema} {column : Column} {name : String}

theorem parts?_eq_none {s : List Char} (h : '(' ∉ s) : parts? s = none := by
  have hdrop : s.dropWhile (fun c => c != '(') = [] := by
    rw [List.dropWhile_eq_nil_iff]
    intro c hc
    rw [bne_iff_ne]
    rintro rfl
    exact h hc
  rw [parts?, hdrop]

/-- A name in front of parentheses and what stands in them. -/
theorem parts?_call {word argument : List Char} (h : '(' ∉ word) :
    parts? (word ++ '(' :: (argument ++ [')'])) = some (Text.trim word, Text.trim argument) := by
  have hword : ∀ c ∈ word, (c != '(') = true := by
    intro c hc
    rw [bne_iff_ne]
    rintro rfl
    exact h hc
  have hdrop : (word ++ '(' :: (argument ++ [')'])).dropWhile (fun c => c != '(')
      = '(' :: (argument ++ [')']) := by
    rw [List.dropWhile_append_of_pos hword]
    exact List.dropWhile_cons_of_neg (by decide)
  have htake : (word ++ '(' :: (argument ++ [')'])).takeWhile (fun c => c != '(') = word := by
    rw [List.takeWhile_append_of_pos hword, List.takeWhile_cons_of_neg (by decide), List.append_nil]
  rw [parts?, hdrop, htake]
  simp

/-- A name of a column is no aggregate. -/
theorem ofField?_name (hsound : schema.IsSound) (hname : Name.isValid schema.name = true)
    (h : schema.Names name column) : ofField? name = .ok none := by
  rw [ofField?, parts?_eq_none (h.not_mem hsound hname (by decide) (by decide))]

/-- A function is asked of a column by its name in parentheses. -/
theorem ofField?_call (hsound : schema.IsSound) (hname : Name.isValid schema.name = true)
    (h : schema.Names name column) {function : AggregateFunction} (word : List Char) (hword : '(' ∉ word)
    (hfunction : AggregateFunction.ofName? (String.ofList (Text.trim word)) = some function) :
    ofField? (String.ofList word ++ "(" ++ name ++ ")") = .ok (some ⟨function, name⟩) := by
  have htrim : Text.trim name.toList = name.toList := by
    refine Text.trim_of_forall fun c hc => ?_
    rcases h.isNameChar_or hsound hname hc with hchar | rfl
    · exact Name.isBlank_eq_false hchar
    · decide
  have hlist : (String.ofList word ++ "(" ++ name ++ ")").toList
      = word ++ '(' :: (name.toList ++ [')']) := by
    simp
  have hempty : name.toList.isEmpty = false := by
    rw [List.isEmpty_eq_false_iff]
    exact h.ne_nil hsound
  have hstar : (name.toList == ['*']) = false := by
    rw [beq_eq_false_iff_ne]
    intro hstar
    exact h.not_mem hsound hname (by decide) (by decide) (c := '*') (by rw [hstar]; simp)
  rw [ofField?, hlist, parts?_call hword, htrim]
  dsimp only
  rw [hfunction]
  dsimp only
  rw [hempty, if_neg Bool.false_ne_true, hstar, Bool.false_and, if_neg Bool.false_ne_true,
    String.ofList_toList]

end Aggregate

/-! ### Queries for one field -/

namespace Query

/-- A query for one field of a table. -/
def ofField (table field : String) (conditions : List Condition) : Query :=
  { all table with fields := [field], conditions }

/-- A query for one column of a table, from the least value to the greatest. -/
def ascending (table field : String) (conditions : List Condition) : Query :=
  { ofField table field conditions with orderBy := some ⟨field, false⟩ }

end Query

namespace Relation

variable {relation : Relation} {table field : String} {conditions : List Condition} {index : Nat}

theorem project_ofField (hstar : field ≠ "*") :
    relation.project (Query.ofField table field conditions) = (do
      let spelled ← Aggregate.ofField? field
      if spelled.isSome then
        let row ← relation.groupRow [] [(field, spelled)] relation.rows
        return ([field], row.toList)
      else
        let index ← relation.require field
        return ([field], relation.rows.map fun row => [fieldAt row index])) := by
  have hwildcard : (Query.ofField table field conditions).isWildcard = false := by
    rw [Query.isWildcard, beq_eq_false_iff_ne]
    exact fun h => hstar (List.cons.inj h).1
  unfold project
  rw [hwildcard, if_neg Bool.false_ne_true]
  change ([field].mapM readField >>= fun fields => _) = _
  rw [List.mapM_cons, List.mapM_nil, readField]
  cases Aggregate.ofField? field with
  | error failure => rfl
  | ok spelled =>
    cases spelled with
    | some aggregate => rfl
    | none =>
      change ([field].mapM relation.require >>= fun indices => _) = _
      rw [List.mapM_cons, List.mapM_nil]
      cases relation.require field <;> rfl

/-- A plain column shows its fields. -/
theorem answer_column (hstar : field ≠ "*") (hplain : Aggregate.ofField? field = .ok none)
    (hindex : relation.resolve? field = some index) :
    relation.answer (Query.ofField table field conditions)
      = .ok (.ofRows [field] (((relation.select conditions).rows.map fun row =>
          fieldAt row index).map fun value => [value])) := by
  have hrequire : (relation.select conditions).require field = .ok index := require_of_resolve? hindex
  change ((relation.select conditions).project (Query.ofField table field conditions) >>= _) = _
  rw [project_ofField hstar, hplain, List.map_map]
  dsimp only [bind, Except.bind]
  rw [hrequire]
  rfl

/-- An aggregate shows one row. -/
theorem answer_aggregate {aggregate : Aggregate} {value : String}
    (hspelled : Aggregate.ofField? field = .ok (some aggregate))
    (hvalue : aggregate.compute (relation.select conditions) (relation.select conditions).rows
      = .ok value) :
    relation.answer (Query.ofField table field conditions) = .ok (.ofRows [field] [[value]]) := by
  have hstar : field ≠ "*" := by
    rintro rfl
    have hplain : Aggregate.ofField? "*" = .ok none := by decide
    exact absurd (Except.ok.inj (hspelled.symm.trans hplain)) (by simp)
  have hshown : (relation.select conditions).groupField (relation.select conditions).rows
      (field, some aggregate) = .ok value := hvalue
  have hrow : (relation.select conditions).groupRow [] [(field, some aggregate)]
      (relation.select conditions).rows = .ok (some [value]) := by
    change ([(field, some aggregate)].mapM ((relation.select conditions).groupField
      (relation.select conditions).rows) >>= fun row => pure (some row)) = _
    rw [List.mapM_cons, List.mapM_nil, hshown]
    rfl
  change ((relation.select conditions).project (Query.ofField table field conditions) >>= _) = _
  rw [project_ofField hstar, hspelled]
  change ((relation.select conditions).groupRow [] [(field, some aggregate)]
    (relation.select conditions).rows >>= fun row => pure ([field], row.toList)) >>= _ = _
  rw [hrow]
  rfl

/-- The values of a column. -/
def valuesAt (relation : Relation) (index : Nat) : List String :=
  relation.rows.map fun row => fieldAt row index

/-- Where none is missing, all values of a column count in an aggregate. -/
theorem compute_of_column {name : String} (hwide : relation.IsWide) (hstar : name ≠ "*")
    (hindex : relation.resolve? name = some index)
    (hthere : ∀ value ∈ relation.valuesAt index, Field.isNull value = false)
    (function : AggregateFunction) :
    Aggregate.compute ⟨function, name⟩ relation relation.rows
      = .ok (Aggregate.ofValues function (relation.valuesAt index)) := by
  have hvalues : relation.rows.filterMap (fun row => row[index]?) = relation.valuesAt index := by
    rw [valuesAt, ← List.filterMap_eq_map]
    refine List.filterMap_congr fun row hrow => ?_
    have hbound : index < row.length := by
      rw [hwide row hrow]
      exact resolve?_lt hindex
    rw [Function.comp_apply, fieldAt, List.getElem?_eq_getElem hbound, Option.getD_some]
  have hkept : (relation.valuesAt index).filter (fun value => !Field.isNull value)
      = relation.valuesAt index :=
    List.filter_eq_self.2 fun value hvalue => by rw [hthere value hvalue]; rfl
  rw [Aggregate.compute, if_neg (by simpa using hstar), require_of_resolve? hindex]
  dsimp only [bind, Except.bind]
  rw [hvalues, hkept]
  rfl

/-- In order, a column shows its values sorted. -/
theorem answer_ascending (hstar : field ≠ "*") (hplain : Aggregate.ofField? field = .ok none)
    (hindex : relation.resolve? field = some index) :
    relation.answer (Query.ascending table field conditions)
      = .ok (.ofRows [field] ((((relation.select conditions).valuesAt index).mergeSort fun a b =>
          (compareLoose a b).isLE).map fun value => [value])) := by
  have hshown : shownColumn? [field] field = some 0 := by
    rw [shownColumn?, List.findIdx?_cons, beq_self_eq_true]
    rfl
  have hpage := @answer_page relation (Query.ascending table field conditions) _ 0 _ rfl
    (answer_column hstar hplain hindex) hshown (-1) 0
  refine hpage.trans (congrArg (fun rows => Except.ok (Outcome.ofRows [field] rows)) ?_)
  exact (List.map_mergeSort (f := fun value => [value]) fun _ _ _ _ => rfl).symm

/-- The least and the greatest value of a column are those at the ends of the column in order. -/
theorem answer_ends (table : String) (hwide : relation.IsWide) (hstar : field ≠ "*")
    (hplain : Aggregate.ofField? field = .ok none) (hindex : relation.resolve? field = some index)
    (hsome : (relation.select conditions).valuesAt index ≠ [])
    (hthere : ∀ value ∈ (relation.select conditions).valuesAt index, Field.isNull value = false)
    (htransitive : IsTransitiveOn compareLoose ((relation.select conditions).valuesAt index)) :
    ∃ ordered least greatest,
      relation.answer (.ascending table field conditions) = .ok (.ofRows [field] ordered) ∧
      ordered.head? = some [least] ∧ ordered.getLast? = some [greatest] ∧
      (∀ minimum, Aggregate.ofField? minimum = .ok (some ⟨.minimum, field⟩) →
        relation.answer (.ofField table minimum conditions) = .ok (.ofRows [minimum] [[least]])) ∧
      ∀ maximum, Aggregate.ofField? maximum = .ok (some ⟨.maximum, field⟩) →
        relation.answer (.ofField table maximum conditions) = .ok (.ofRows [maximum] [[greatest]]) := by
  have hsorted := sortsStably_mergeSort htransitive
  have hne : (((relation.select conditions).valuesAt index).mergeSort fun a b =>
      (compareLoose a b).isLE) ≠ [] := fun hnone => hsome (hnone ▸ hsorted.perm).symm.eq_nil
  obtain ⟨least, hleast⟩ := Option.isSome_iff_exists.1 (List.isSome_head?.2 hne)
  obtain ⟨greatest, hgreatest⟩ := Option.isSome_iff_exists.1 (List.getLast?_isSome.2 hne)
  have hvalue := compute_of_column (hwide.select conditions) hstar hindex hthere
  refine ⟨_, least, greatest, answer_ascending hstar hplain hindex, ?_, ?_, ?_, ?_⟩
  · rw [List.head?_map, hleast, Option.map_some]
  · rw [List.getLast?_map, hgreatest, Option.map_some]
  · intro minimum hspelled
    refine answer_aggregate hspelled ((hvalue .minimum).trans ?_)
    rw [Aggregate.ofValues_minimum htransitive hsorted hleast]
  · intro maximum hspelled
    refine answer_aggregate hspelled ((hvalue .maximum).trans ?_)
    rw [Aggregate.ofValues_maximum htransitive hsorted hgreatest]

end Relation

namespace Engine

variable {who : Identity} {database table name : String} {schema : TableSchema} {rows : List String}
  {column : Column} {e : Engine}

/-- In every sound state, the least value of a column of a table stands in the first row of the same query
in ascending order, and the greatest in the last row, if there are rows, none without a value, and the order
of the values is transitive. -/
theorem IsSound.select_ends (h : e.IsSound) (hdatabase : who.requireDatabase = .ok database)
    (htable : Name.isValid table = true) (hschema : Engine.readSchema e.disk database table = .ok schema)
    (hrole : who.role ∈ schema.permissions.read)
    (hrows : Table.rows e.disk database table = .ok rows) (hname : schema.Names name column)
    (conditions : List Condition) :
    ∃ values : List String,
      (executeAs who (.select (.ofField table name conditions)) e).1
        = .ok (.ofRows [name] (values.map fun value => [value])) ∧
      (values ≠ [] → (∀ value ∈ values, Field.isNull value = false) →
        IsTransitiveOn compareLoose values →
        ∃ ordered least greatest,
          (executeAs who (.select (.ascending table name conditions)) e).1
            = .ok (.ofRows [name] ordered) ∧
          ordered.head? = some [least] ∧ ordered.getLast? = some [greatest] ∧
          (executeAs who (.select (.ofField table ("MIN(" ++ name ++ ")") conditions)) e).1
            = .ok (.ofRows ["MIN(" ++ name ++ ")"] [[least]]) ∧
          (executeAs who (.select (.ofField table ("MAX(" ++ name ++ ")") conditions)) e).1
            = .ok (.ofRows ["MAX(" ++ name ++ ")"] [[greatest]])) := by
  obtain ⟨-, hsound, hschemaName⟩ := h.knownSchema htable (h.knownSchema_of_readSchema htable hschema)
  have hvalid : Name.isValid schema.name = true := by rwa [hschemaName]
  have hstar : name ≠ "*" := by
    rintro rfl
    exact hname.not_mem hsound hvalid (c := '*') (by decide) (by decide) (by decide)
  have hplain := Aggregate.ofField?_name hsound hvalid hname
  have hminimum : Aggregate.ofField? ("MIN(" ++ name ++ ")") = .ok (some ⟨.minimum, name⟩) :=
    Aggregate.ofField?_call hsound hvalid hname ['M', 'I', 'N'] (by decide) (by decide)
  have hmaximum : Aggregate.ofField? ("MAX(" ++ name ++ ")") = .ok (some ⟨.maximum, name⟩) :=
    Aggregate.ofField?_call hsound hvalid hname ['M', 'A', 'X'] (by decide) (by decide)
  let relation := Relation.ofTable schema
    (narrow e.disk database schema (narrowing? (.ofField table name conditions)) rows)
  obtain ⟨index, hindex⟩ := hname.resolve? hsound
    (narrow e.disk database schema (narrowing? (.ofField table name conditions)) rows)
  have hselect (field : String) (order : Option OrderBy) :
      (executeAs who (.select { Query.ofField table field conditions with orderBy := order }) e).1
        = relation.answer { Query.ofField table field conditions with orderBy := order } :=
    h.executeAs_select_table hdatabase htable hschema hrole hrows rfl
  refine ⟨(relation.select conditions).valuesAt index,
    (hselect name none).trans (Relation.answer_column hstar hplain hindex),
    fun hsome hthere htransitive => ?_⟩
  obtain ⟨ordered, least, greatest, hordered, hleast, hgreatest, hminima, hmaxima⟩ :=
    Relation.answer_ends table (Relation.isWide_ofTable schema _) hstar hplain hindex hsome
      hthere htransitive
  exact ⟨ordered, least, greatest, (hselect name (some ⟨name, false⟩)).trans hordered, hleast,
    hgreatest, (hselect _ none).trans (hminima _ hminimum), (hselect _ none).trans (hmaxima _ hmaximum)⟩

end Engine

namespace Run

/-- Points, each value twice in different spellings, and one row without any. -/
def spelledPoints : Run :=
  .script "asep" "kantor" ["CREATE TABLE t id:INT, nilai:STRING", "INSERT t 1|7", "INSERT t 2|10",
    "INSERT t 3|7.0", "INSERT t 4|10.0", "INSERT t 5|"]

def pointSchema : TableSchema where
  database := "kantor"
  name := "t"
  columns := [⟨"id", .int, false, false, false, none⟩, ⟨"nilai", .string, false, false, false, none⟩]
  permissions := .standard

/-- All rows but the last. -/
def beforeFifth : List Condition :=
  [⟨"id", .less, "5", none⟩]

theorem select_ends_spelledPoints :
    (Engine.executeAs author (.select (.ofField "t" "t.nilai" beforeFifth)) spelledPoints.last).1
        = .ok (.ofRows ["t.nilai"] [["7"], ["10"], ["7.0"], ["10.0"]]) ∧
      IsTransitiveOn compareLoose ["7", "10", "7.0", "10.0"] ∧
      ∃ ordered,
        (Engine.executeAs author (.select (.ascending "t" "t.nilai" beforeFifth)) spelledPoints.last).1
          = .ok (.ofRows ["t.nilai"] ordered) ∧
        ordered.head? = some ["7"] ∧ ordered.getLast? = some ["10.0"] ∧
        (Engine.executeAs author (.select (.ofField "t" "MIN(t.nilai)" beforeFifth)) spelledPoints.last).1
          = .ok (.ofRows ["MIN(t.nilai)"] [["7"]]) ∧
        (Engine.executeAs author (.select (.ofField "t" "MAX(t.nilai)" beforeFifth)) spelledPoints.last).1
          = .ok (.ofRows ["MAX(t.nilai)"] [["10.0"]]) := by
  have hrun : spelledPoints.last.knownSchema "kantor" "t" = .ok pointSchema ∧
      Table.rows spelledPoints.last.disk "kantor" "t" = .ok ["1|7", "2|10", "3|7.0", "4|10.0", "5|"] ∧
      (Engine.executeAs author (.select (.ofField "t" "t.nilai" beforeFifth)) spelledPoints.last).1
        = .ok (.ofRows ["t.nilai"] [["7"], ["10"], ["7.0"], ["10.0"]]) ∧
      (Engine.executeAs author (.select (.ofField "t" "MIN(t.nilai)" beforeFifth)) spelledPoints.last).1
        = .ok (.ofRows ["MIN(t.nilai)"] [["7"]]) ∧
      (Engine.executeAs author (.select (.ofField "t" "MAX(t.nilai)" beforeFifth)) spelledPoints.last).1
        = .ok (.ofRows ["MAX(t.nilai)"] [["10.0"]]) := by
    decide +kernel
  obtain ⟨hknown, hrows, hplain, hleast, hgreatest⟩ := hrun
  have htransitive : IsTransitiveOn compareLoose ["7", "10", "7.0", "10.0"] := by
    unfold IsTransitiveOn
    decide +kernel
  obtain ⟨values, hvalues, hends⟩ := @Engine.IsSound.select_ends author "kantor" "t" "t.nilai"
    pointSchema _ ⟨"nilai", .string, false, false, false, none⟩ _ spelledPoints.isSound_last rfl (by decide)
    (spelledPoints.isSound_last.readSchema (by decide) hknown) (by decide) hrows
    ⟨by decide, .inr (by decide)⟩ beforeFifth
  obtain rfl : values = ["7", "10", "7.0", "10.0"] := by
    have hshown := congrArg Outcome.rows (Except.ok.inj (hvalues.symm.trans hplain))
    exact List.map_injective_iff.2 (fun _ _ h => (List.cons.inj h).1) hshown
  obtain ⟨ordered, least, greatest, hordered, hfirst, hlast, hminimum, hmaximum⟩ :=
    hends (by decide) (by decide) htransitive
  have hleast := congrArg Outcome.rows (Except.ok.inj (hminimum.symm.trans hleast))
  have hgreatest := congrArg Outcome.rows (Except.ok.inj (hmaximum.symm.trans hgreatest))
  obtain rfl : least = "7" := (List.cons.inj (List.cons.inj hleast).1).1
  obtain rfl : greatest = "10.0" := (List.cons.inj (List.cons.inj hgreatest).1).1
  exact ⟨hplain, htransitive, ordered, hordered, hfirst, hlast, hminimum, hmaximum⟩

end Run

end FlatFileDb
