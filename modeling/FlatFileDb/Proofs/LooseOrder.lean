import FlatFileDb.Proofs.Extremes

/-!
# Numbers among other texts

Texts of unknown type compare by value where both spell numbers, else as texts. Turned round, two of them
compare the other way; but the order need not be transitive: `10` stands before `2x` and `2x` before `9`,
as texts, and `9` before `10`. It fails in two ways only. A text that is no number stands between two
numbers which are not in this order by value; or the number without a value, which equals every number,
stands between two of different values. Lists in which neither happens are orderly, and they are the lists
on which the order is transitive. A column of such values sorts the rows in one way only.
-/

namespace FlatFileDb

open Number

/-! ### The order of values -/

namespace Number.Binary64

/-- The side of all finite numbers on which a number stands. -/
def side : Binary64 → Int
  | infinity negative => if negative then -1 else 1
  | _ => 0

/-- The value of a finite number. -/
def units : Binary64 → Int
  | finite units => units
  | _ => 0

/-- Numbers that have a value are ordered by their sides and then by their values. -/
theorem compare?_eq {x y : Binary64} (hx : x ≠ nan) (hy : y ≠ nan) :
    x.compare? y = some (compareLex (compareOn side) (compareOn units) x y) := by
  cases x with
  | nan => exact absurd rfl hx
  | finite a =>
    cases y with
    | nan => exact absurd rfl hy
    | finite b => rfl
    | infinity negative => cases negative <;> rfl
  | infinity negative =>
    cases y with
    | nan => exact absurd rfl hy
    | finite b => cases negative <;> rfl
    | infinity other => cases negative <;> cases other <;> rfl

theorem compare?_nan (x : Binary64) : x.compare? nan = none := by
  cases x <;> rfl

/-- The order is transitive where a value stands in the middle. -/
theorem isLE_trans {x y z : Binary64} (hy : y ≠ nan) (hxy : ((x.compare? y).getD .eq).isLE = true)
    (hyz : ((y.compare? z).getD .eq).isLE = true) : ((x.compare? z).getD .eq).isLE = true := by
  by_cases hx : x = nan
  · rw [hx]
    rfl
  by_cases hz : z = nan
  · rw [hz, compare?_nan]
    rfl
  rw [compare?_eq hx hy, Option.getD_some] at hxy
  rw [compare?_eq hy hz, Option.getD_some] at hyz
  rw [compare?_eq hx hz, Option.getD_some]
  exact Std.TransCmp.isLE_trans hxy hyz

end Number.Binary64

/-! ### How two texts compare -/

namespace Text

/-- Whether a text spells a number. -/
def spellsNumber (s : String) : Bool :=
  (Binary64.ofString? s).isSome

/-- Whether a text spells the number that has no value. -/
def spellsNaN (s : String) : Bool :=
  Binary64.ofString? s == some .nan

end Text

open Text

variable {a b c : String}

theorem compareLoose_of_numbers {x y : Binary64} (ha : Binary64.ofString? a = some x)
    (hb : Binary64.ofString? b = some y) : compareLoose a b = (x.compare? y).getD .eq := by
  rw [compareLoose, Loose.compare, Loose.ofText, Loose.ofText, ha, hb]

theorem compareLoose_of_text (h : spellsNumber a = false ∨ spellsNumber b = false) :
    compareLoose a b = compare a b := by
  unfold spellsNumber at h
  rw [Option.isSome_eq_false_iff, Option.isSome_eq_false_iff, Option.isNone_iff_eq_none,
    Option.isNone_iff_eq_none] at h
  rw [compareLoose, Loose.compare, Loose.ofText, Loose.ofText]
  rcases h with ha | hb
  · rw [ha]
  · rw [hb]
    cases Binary64.ofString? a <;> rfl

/-- A number and another text are never the same. -/
theorem compare_eq_lt_of_isLE (hkind : spellsNumber a ≠ spellsNumber b)
    (h : (compareLoose a b).isLE = true) : compare a b = .lt := by
  have htext : spellsNumber a = false ∨ spellsNumber b = false := by
    cases ha : spellsNumber a with
    | false => exact .inl rfl
    | true => exact .inr (Bool.eq_false_iff.2 fun hb => hkind (ha.trans hb.symm))
  rw [compareLoose_of_text htext] at h
  cases hab : compare a b with
  | lt => rfl
  | eq => exact absurd (congrArg spellsNumber (Std.LawfulEqCmp.eq_of_compare hab)) hkind
  | gt => rw [hab] at h; exact absurd h (by decide)

theorem isLE_of_ne_lt (h : compareLoose a b ≠ .lt) : (compareLoose b a).isLE = true := by
  rw [@Std.OrientedCmp.eq_swap String compareLoose]
  cases hab : compareLoose a b with
  | lt => exact absurd hab h
  | eq => rfl
  | gt => rfl

theorem not_isLE_of_lt (h : compareLoose a b = .lt) : ¬(compareLoose b a).isLE = true := by
  rw [@Std.OrientedCmp.eq_swap String compareLoose, h]
  decide

/-! ### Orderly lists -/

/-- Whether the values of the numbers in a list agree with the places of the other texts among them. -/
structure IsOrderly (xs : List String) : Prop where
  /-- Two numbers with a text between them that is none stand in the same order by value. -/
  between : ∀ a ∈ xs, ∀ t ∈ xs, ∀ b ∈ xs, spellsNumber a = true → spellsNumber t = false →
    spellsNumber b = true → compare a t = .lt → compare t b = .lt → compareLoose a b = .lt
  /-- Beside a number without a value, all values are the same. -/
  valueless : ∀ n ∈ xs, spellsNaN n = true → ∀ a ∈ xs, ∀ b ∈ xs,
    spellsNumber a = true → spellsNaN a = false → spellsNumber b = true → spellsNaN b = false →
      compareLoose a b = .eq

namespace IsOrderly

variable {xs : List String}

theorem of_transitive (h : IsTransitiveOn compareLoose xs) : IsOrderly xs where
  between := by
    intro a ha t ht b hb _ htext _ hat htb
    by_contra hab
    have hba := isLE_of_ne_lt hab
    rw [← compareLoose_of_text (.inr htext)] at hat
    rw [← compareLoose_of_text (.inl htext)] at htb
    exact not_isLE_of_lt htb (h b hb a ha t ht hba (by rw [hat]; rfl))
  valueless := by
    intro n hn hnan a ha b hb hnumber _ hnumber' _
    obtain ⟨x, hx⟩ := Option.isSome_iff_exists.1 hnumber
    obtain ⟨y, hy⟩ := Option.isSome_iff_exists.1 hnumber'
    have hnan := eq_of_beq hnan
    have hequal {s : String} {z : Binary64} (hs : Binary64.ofString? s = some z) :
        compareLoose s n = .eq ∧ compareLoose n s = .eq := by
      rw [compareLoose_of_numbers hs hnan, compareLoose_of_numbers hnan hs, Binary64.compare?_nan]
      exact ⟨rfl, rfl⟩
    have hab := h a ha n hn b hb (by rw [(hequal hx).1]; rfl) (by rw [(hequal hy).2]; rfl)
    have hba := h b hb n hn a ha (by rw [(hequal hy).1]; rfl) (by rw [(hequal hx).2]; rfl)
    rw [@Std.OrientedCmp.eq_swap String compareLoose] at hba
    cases hcompared : compareLoose a b with
    | eq => rfl
    | lt => rw [hcompared] at hba; exact absurd hba (by decide)
    | gt => rw [hcompared] at hab; exact absurd hab (by decide)

/-- Three numbers of an orderly list. -/
theorem trans_numbers (h : IsOrderly xs) (ha : a ∈ xs) (hb : b ∈ xs) (hc : c ∈ xs)
    (hna : spellsNumber a = true) (hnb : spellsNumber b = true) (hnc : spellsNumber c = true)
    (hab : (compareLoose a b).isLE = true) (hbc : (compareLoose b c).isLE = true) :
    (compareLoose a c).isLE = true := by
  obtain ⟨x, hx⟩ := Option.isSome_iff_exists.1 hna
  obtain ⟨y, hy⟩ := Option.isSome_iff_exists.1 hnb
  obtain ⟨z, hz⟩ := Option.isSome_iff_exists.1 hnc
  rw [compareLoose_of_numbers hx hy] at hab
  rw [compareLoose_of_numbers hy hz] at hbc
  by_cases hvalue : y = .nan
  · by_cases hends : spellsNaN a = false ∧ spellsNaN c = false
    · have hnan : spellsNaN b = true := by rw [spellsNaN, hy, hvalue]; rfl
      rw [h.valueless b hb hnan a ha c hc hna hends.1 hnc hends.2]
      rfl
    · rw [compareLoose_of_numbers hx hz]
      have hnone : x.compare? z = none := by
        rw [not_and_or, Bool.not_eq_false, Bool.not_eq_false, spellsNaN, spellsNaN, hx, hz] at hends
        rcases hends with hx | hz
        · rw [Option.some.inj (eq_of_beq hx)]
          rfl
        · rw [Option.some.inj (eq_of_beq hz), Binary64.compare?_nan]
      rw [hnone]
      rfl
  · rw [compareLoose_of_numbers hx hz]
    exact Binary64.isLE_trans hvalue hab hbc

theorem isTransitiveOn (h : IsOrderly xs) : IsTransitiveOn compareLoose xs := by
  intro a ha b hb c hc hab hbc
  by_contra hac
  have hca : compareLoose c a = .lt := by
    by_contra hno
    exact hac (isLE_of_ne_lt hno)
  have hbefore {s t : String} (hkind : spellsNumber s ≠ spellsNumber t)
      (hst : compareLoose s t = .lt) : compare s t = .lt :=
    compare_eq_lt_of_isLE hkind (by rw [hst]; rfl)
  cases hna : spellsNumber a <;> cases hnb : spellsNumber b <;> cases hnc : spellsNumber c
  case true.true.true => exact hac (h.trans_numbers ha hb hc hna hnb hnc hab hbc)
  case true.true.false =>
    have hbc' := compare_eq_lt_of_isLE (by rw [hnb, hnc]; decide) hbc
    have hca' := hbefore (by rw [hnc, hna]; decide) hca
    exact not_isLE_of_lt (h.between b hb c hc a ha hnb hnc hna hbc' hca') hab
  case true.false.true =>
    have hab' := compare_eq_lt_of_isLE (by rw [hna, hnb]; decide) hab
    have hbc' := compare_eq_lt_of_isLE (by rw [hnb, hnc]; decide) hbc
    rw [h.between a ha b hb c hc hna hnb hnc hab' hbc'] at hac
    exact hac rfl
  case false.true.true =>
    have hab' := compare_eq_lt_of_isLE (by rw [hna, hnb]; decide) hab
    have hca' := hbefore (by rw [hnc, hna]; decide) hca
    exact not_isLE_of_lt (h.between c hc a ha b hb hnc hna hnb hca' hab') hbc
  -- With at most one number among the three, all of them compare as texts.
  all_goals
    rw [compareLoose_of_text (by simp [hna, hnb])] at hab
    rw [compareLoose_of_text (by simp [hnb, hnc])] at hbc
    rw [compareLoose_of_text (by simp [hna, hnc])] at hac
    exact hac (Std.TransCmp.isLE_trans hab hbc)

end IsOrderly

namespace Relation

variable {relation : Relation} {index : Nat}

/-- The values of a column that an aggregate takes into account. -/
def countedAt (relation : Relation) (index : Nat) : List String :=
  (relation.valuesAt index).filter fun value => !Field.isNull value

/-- Whether a column orders the rows, and has a least and a greatest value. -/
structure HasOrder (relation : Relation) (index : Nat) : Prop where
  /-- The rows are sorted, and there is no other way to sort them stably. -/
  sorts : ∀ (key : OrderBy) (ordered : List (List String)),
    SortsStably (key.compare index) relation.rows ordered ↔
      sortOn (fun row => Loose.ofText (fieldAt row index)) (comesBefore key.descending) relation.rows
        = ordered
  /-- The least value is one of the column, and none is smaller. -/
  least : ∀ value ∈ relation.countedAt index,
    Aggregate.ofValues .minimum (relation.countedAt index) ∈ relation.countedAt index ∧
      (compareLoose (Aggregate.ofValues .minimum (relation.countedAt index)) value).isLE
  /-- The greatest value is one of the column, and none is greater. -/
  greatest : ∀ value ∈ relation.countedAt index,
    Aggregate.ofValues .maximum (relation.countedAt index) ∈ relation.countedAt index ∧
      (compareLoose value (Aggregate.ofValues .maximum (relation.countedAt index))).isLE

theorem hasOrder_of_isOrderly (h : IsOrderly (relation.valuesAt index)) : relation.HasOrder index := by
  have htransitive := h.isTransitiveOn
  have hcounted : IsTransitiveOn compareLoose (relation.countedAt index) :=
    htransitive.subset (List.filter_subset_self _)
  constructor
  · intro key ordered
    have hrows : IsTransitiveOn (key.compare index) relation.rows := OrderBy.isTransitiveOn htransitive
    have hsorted := sortsStably_mergeSort hrows
    rw [sortOn_eq_mergeSort]
    exact ⟨hsorted.unique, fun hsame => hsame ▸ hsorted⟩
  · intro value hvalue
    have hleast := Aggregate.isFirstLeast_minimum (List.ne_nil_of_mem hvalue) hcounted
    exact ⟨hleast.mem, hleast.least value hvalue⟩
  · intro value hvalue
    have hgreatest := Aggregate.isFirstLeast_maximum (List.ne_nil_of_mem hvalue) hcounted
    exact ⟨List.mem_reverse.1 hgreatest.mem, hgreatest.least value (List.mem_reverse.2 hvalue)⟩

end Relation

/-- Texts of unknown type compare the other way when they are turned round. On exactly the orderly lists the
order is transitive; and a column whose values are orderly orders the rows and has a least and a greatest
value. -/
theorem compareLoose_isPreorderOn :
    (∀ a b, compareLoose a b = (compareLoose b a).swap) ∧
      (∀ xs, IsTransitiveOn compareLoose xs ↔ IsOrderly xs) ∧
      ∀ (relation : Relation) (index : Nat), IsOrderly (relation.valuesAt index) →
        relation.HasOrder index :=
  ⟨fun _ _ => Std.OrientedCmp.eq_swap, fun _ => ⟨.of_transitive, IsOrderly.isTransitiveOn⟩,
    fun _ _ => Relation.hasOrder_of_isOrderly⟩

/-- Not on all texts. -/
theorem not_compareLoose_isPreorder :
    ¬((∀ a b, compareLoose a b = (compareLoose b a).swap) ∧
      ∀ a b c, (compareLoose a b).isLE → (compareLoose b c).isLE → (compareLoose a c).isLE) := by
  rintro ⟨-, h⟩
  have hcompared : compareLoose "10" "2x" = .lt ∧ compareLoose "2x" "9" = .lt ∧
      compareLoose "10" "9" = .gt := by
    decide +kernel
  have hle := h "10" "2x" "9" (by rw [hcompared.1]; rfl) (by rw [hcompared.2.1]; rfl)
  rw [hcompared.2.2] at hle
  exact absurd hle (by decide)

end FlatFileDb
