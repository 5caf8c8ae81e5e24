import FlatFileDb.Proofs.Json
import FlatFileDb.Value

/-!
# Days in the calendar

Dates are compared as texts. That is the order in time where a date is written in full, with four, two and
two digits: then a day has one text only, and of two texts of one length the first digit in which they
differ decides. Besides a text in full a date may have a part that starts with a plus sign instead of a
zero. Such a text is of the same day as the one in full and still comes before it.
-/

namespace FlatFileDb

-- Powers and sums are those of the core library, as where dates are read.
attribute [local instance (2000)] instPowNat Zero.ofOfNat0

/-! ### Digits of a fixed number -/

namespace Number

variable {s : List Char} {c : Char} {width m n value limit : Nat}

/-- The last decimal digits of a number, zeros in front where it has fewer. -/
def fixedDigits : Nat → Nat → List Char
  | 0, _ => []
  | width + 1, n => fixedDigits width (n / 10) ++ [Nat.digitChar (n % 10)]

theorem length_fixedDigits (width n : Nat) : (fixedDigits width n).length = width := by
  induction width generalizing n with
  | zero => rfl
  | succ width ih => rw [fixedDigits, List.length_append, ih, List.length_singleton]

/-- What is known of the characters for digits. -/
theorem digitChar_isDigit (h : n < 10) :
    (Nat.digitChar n).isDigit = true ∧ (Nat.digitChar n).toNat - 48 = n := by
  have hall : ∀ n < 10, (Nat.digitChar n).isDigit = true ∧ (Nat.digitChar n).toNat - 48 = n := by
    decide
  exact hall n h

theorem digitChar_of_isDigit (h : c.isDigit = true) :
    c.toNat - 48 < 10 ∧ Nat.digitChar (c.toNat - 48) = c := by
  have hall : ∀ code < 58, 48 ≤ code →
      code - 48 < 10 ∧ Nat.digitChar (code - 48) = Char.ofNat code := by
    decide
  have hrange : 48 ≤ c.toNat ∧ c.toNat ≤ 57 := by
    simpa [Char.isDigit, UInt32.le_iff_toNat_le] using h
  have hcode := hall c.toNat (by omega) hrange.1
  rwa [Char.ofNat_toNat] at hcode

theorem isDigit_of_mem_fixedDigits (h : c ∈ fixedDigits width n) : c.isDigit = true := by
  induction width generalizing n with
  | zero => exact absurd h (by simp [fixedDigits])
  | succ width ih =>
    rw [fixedDigits, List.mem_append, List.mem_singleton] at h
    rcases h with h | rfl
    · exact ih h
    · exact (digitChar_isDigit (by omega)).1

theorem not_mem_fixedDigits (h : c.isDigit = false) : c ∉ fixedDigits width n :=
  fun hmem => absurd (isDigit_of_mem_fixedDigits hmem) (by simp [h])

/-- Where a digit is to spare, a zero stands in front. -/
theorem fixedDigits_succ (h : n < 10 ^ width) :
    fixedDigits (width + 1) n = '0' :: fixedDigits width n := by
  induction width generalizing n with
  | zero =>
    obtain rfl : n = 0 := by simpa using h
    rfl
  | succ width ih =>
    rw [fixedDigits, ih (by rw [Nat.pow_succ] at h; omega)]
    rfl

theorem lt_append_of_lt {α : Type} [LT α] {s t u v : List α} (hlength : s.length = t.length)
    (h : s < t) : s ++ u < t ++ v := by
  induction s generalizing t with
  | nil =>
    obtain rfl := List.eq_nil_of_length_eq_zero hlength.symm
    exact absurd h (by simp)
  | cons a s ih =>
    obtain ⟨b, t, rfl⟩ := List.exists_cons_of_length_eq_add_one hlength.symm
    rw [List.cons_append, List.cons_append, List.cons_lt_cons_iff]
    rcases List.cons_lt_cons_iff.1 h with hfirst | ⟨hsame, hrest⟩
    · exact .inl hfirst
    · exact .inr ⟨hsame, ih (by simpa using hlength) hrest⟩

/-- Of two numbers with as many digits the smaller one comes first as a text. -/
theorem fixedDigits_lt (hn : n < 10 ^ width) (h : m < n) :
    fixedDigits width m < fixedDigits width n := by
  induction width generalizing m n with
  | zero =>
    rw [Nat.pow_zero] at hn
    omega
  | succ width ih =>
    have hdigits : ∀ a < 10, ∀ b < 10, a < b → [Nat.digitChar a] < [Nat.digitChar b] := by decide
    rw [Nat.pow_succ] at hn
    rw [fixedDigits, fixedDigits]
    rcases (by omega : m / 10 < n / 10 ∨ m / 10 = n / 10 ∧ m % 10 < n % 10) with hfront | ⟨hfront, hlast⟩
    · exact lt_append_of_lt (by rw [length_fixedDigits, length_fixedDigits]) (ih (by omega) hfront)
    · rw [hfront]
      exact List.append_left_lt (hdigits _ (by omega) _ (by omega) hlast)

theorem digitsFrom_append (value : Nat) (s t : List Char) :
    digitsFrom value (s ++ t) = (digitsFrom value s).bind fun n => digitsFrom n t := by
  induction s generalizing value with
  | nil => rfl
  | cons c s ih =>
    rw [List.cons_append, digitsFrom, digitsFrom]
    split
    · exact ih _
    · rfl

theorem digitsFrom_fixedDigits (h : n < 10 ^ width) : digitsFrom 0 (fixedDigits width n) = some n := by
  induction width generalizing n with
  | zero =>
    obtain rfl : n = 0 := by simpa using h
    rfl
  | succ width ih =>
    rw [Nat.pow_succ] at h
    obtain ⟨hdigit, hvalue⟩ := @digitChar_isDigit (n % 10) (by omega)
    rw [fixedDigits, digitsFrom_append, ih (by omega), Option.bind_some, digitsFrom, if_pos hdigit,
      hvalue, digitsFrom]
    exact congrArg some (by omega)

/-- Digits are read as the number that they are the digits of. -/
theorem eq_fixedDigits (h : digitsFrom 0 s = some n) :
    n < 10 ^ s.length ∧ s = fixedDigits s.length n := by
  induction s using List.reverseRecOn generalizing n with
  | nil =>
    obtain rfl := Option.some.inj h
    exact ⟨by simp, rfl⟩
  | append_singleton s c ih =>
    rw [digitsFrom_append] at h
    obtain ⟨front, hfront, hlast⟩ := Option.bind_eq_some_iff.1 h
    rw [digitsFrom] at hlast
    split at hlast
    · rename_i hdigit
      obtain rfl := Option.some.inj hlast
      obtain ⟨hbound, hsame⟩ := ih hfront
      obtain ⟨hten, hchar⟩ := digitChar_of_isDigit hdigit
      rw [List.length_append, List.length_singleton, Nat.pow_succ, fixedDigits]
      refine ⟨by omega, ?_⟩
      rw [show (front * 10 + (c.toNat - 48)) / 10 = front by omega,
        show (front * 10 + (c.toNat - 48)) % 10 = c.toNat - 48 by omega, hchar, ← hsame]
    · exact absurd hlast (by simp)

theorem utf8Size_of_isDigit (h : c.isDigit = true) : c.utf8Size = 1 := by
  have hrange : c.toNat ≤ 57 := by
    have hboth : 48 ≤ c.toNat ∧ c.toNat ≤ 57 := by
      simpa [Char.isDigit, UInt32.le_iff_toNat_le] using h
    exact hboth.2
  exact Char.utf8Size_eq_one_iff.2 (UInt32.le_iff_toNat_le.2 (Nat.le_trans hrange (by decide)))

theorem sum_utf8Size (h : ∀ c ∈ s, c.isDigit = true) : (s.map Char.utf8Size).sum = s.length := by
  induction s with
  | nil => rfl
  | cons c s ih =>
    rw [List.map_cons, List.sum_cons, utf8Size_of_isDigit (h c (by simp)),
      ih fun other hother => h other (List.mem_cons_of_mem c hother), List.length_cons, Nat.add_comm]

theorem sum_utf8Size_fixedDigits (width n : Nat) :
    ((fixedDigits width n).map Char.utf8Size).sum = width := by
  rw [sum_utf8Size fun c hc => isDigit_of_mem_fixedDigits hc, length_fixedDigits]

theorem readNatural?_fixedDigits (hwidth : 0 < width) (hbound : n < 10 ^ width) (hlimit : n < limit) :
    readNatural? limit (fixedDigits width n) = some n := by
  have hdigits : readDigits? (fixedDigits width n) = some n := by
    rw [readDigits?, if_neg, digitsFrom_fixedDigits hbound]
    rw [List.isEmpty_iff, ← List.length_eq_zero_iff, length_fixedDigits]
    omega
  unfold readNatural?
  split
  · rename_i hplus
    have hmem : '+' ∈ fixedDigits width n := hplus ▸ List.mem_cons_self
    exact absurd hmem (not_mem_fixedDigits (by decide))
  · dsimp only
    rw [hdigits, Option.filter_some, if_pos (decide_eq_true hlimit)]

/-- A number of a given size is written with as many digits, or with a plus sign in the stead of a zero. -/
theorem readNatural?_cases (hsize : (s.map Char.utf8Size).sum = width)
    (h : readNatural? limit s = some n) :
    n < 10 ^ width ∧ s.length = width ∧
      (s = fixedDigits width n ∨ '+' ∈ s ∧ s < fixedDigits width n) := by
  unfold readNatural? at h
  have hread := Option.eq_some_of_filter_eq_some h
  have hdigits {rest : List Char} (hrest : readDigits? rest = some n) :
      n < 10 ^ rest.length ∧ rest = fixedDigits rest.length n := by
    unfold readDigits? at hrest
    split at hrest
    · exact absurd hrest (by simp)
    · exact eq_fixedDigits hrest
  split at hread
  · rename_i rest
    obtain ⟨hbound, hsame⟩ := hdigits hread
    have hwidth : width = rest.length + 1 := by
      rw [← hsize, List.map_cons, List.sum_cons, sum_utf8Size, Nat.add_comm]
      · rfl
      · intro c hc
        rw [hsame] at hc
        exact isDigit_of_mem_fixedDigits hc
    subst hwidth
    refine ⟨?_, rfl, .inr ⟨List.mem_cons_self, ?_⟩⟩
    · rw [Nat.pow_succ]
      omega
    · rw [fixedDigits_succ hbound, List.cons_lt_cons_iff]
      exact .inl (by decide)
  · obtain ⟨hbound, hsame⟩ := hdigits hread
    have hwidth : width = s.length := by
      rw [← hsize, sum_utf8Size]
      intro c hc
      rw [hsame] at hc
      exact isDigit_of_mem_fixedDigits hc
    subst hwidth
    exact ⟨hbound, rfl, .inl hsame⟩

end Number

namespace DataType

open Number

variable {x y : Nat × Nat × Nat} {s : List Char} {a b : String}

/-! ### Days -/

/-- A day of the calendar in a year of four digits: its year, its month and its day in the month. -/
structure IsDay (x : Nat × Nat × Nat) : Prop where
  year : x.1 < 10 ^ 4
  inMonth : ∃ last, daysInMonth? x.1 x.2.1 = some last ∧ 1 ≤ x.2.2 ∧ x.2.2 ≤ last

/-- A day written in full. -/
def dayText (x : Nat × Nat × Nat) : List Char :=
  fixedDigits 4 x.1 ++ '-' :: (fixedDigits 2 x.2.1 ++ '-' :: fixedDigits 2 x.2.2)

/-- The order of days in time. -/
def compareDays (x y : Nat × Nat × Nat) : Ordering :=
  (compare x.1 y.1).then ((compare x.2.1 y.2.1).then (compare x.2.2 y.2.2))

theorem daysInMonth?_le {year month last : Nat} (h : daysInMonth? year month = some last) :
    month ≤ 12 ∧ last ≤ 31 := by
  unfold daysInMonth? at h
  split at h
  · obtain rfl := Option.some.inj h
    split <;> omega
  · split at h
    · obtain rfl := Option.some.inj h
      omega
    · split at h
      · obtain rfl := Option.some.inj h
        omega
      · exact absurd h (by simp)

theorem IsDay.bounds (h : IsDay x) : x.2.1 < 10 ^ 2 ∧ x.2.2 < 10 ^ 2 := by
  obtain ⟨last, hlast, -, hday⟩ := h.inMonth
  have hle := daysInMonth?_le hlast
  constructor <;> omega

theorem not_mem_dayText : '+' ∉ dayText x := by
  have hdigits (width n : Nat) : '+' ∉ fixedDigits width n := not_mem_fixedDigits (by decide)
  simp [dayText, hdigits]

/-- A day written in full is read. -/
theorem calendarDate?_dayText (h : IsDay x) : calendarDate? (dayText x) = some x := by
  obtain ⟨last, hlast, hday⟩ := h.inMonth
  obtain ⟨hmonth, hbound⟩ := h.bounds
  have hyear := h.year
  have hline (width n : Nat) : '-' ∉ fixedDigits width n := not_mem_fixedDigits (by decide)
  have hsplit : (dayText x).splitOn '-'
      = [fixedDigits 4 x.1, fixedDigits 2 x.2.1, fixedDigits 2 x.2.2] := by
    rw [dayText, List.splitOn_append_cons_self_of_not_mem (hline _ _),
      List.splitOn_append_cons_self_of_not_mem (hline _ _), List.splitOn_eq_singleton (hline _ _)]
  unfold calendarDate?
  rw [hsplit]
  dsimp only
  rw [if_pos ⟨sum_utf8Size_fixedDigits 4 _, sum_utf8Size_fixedDigits 2 _, sum_utf8Size_fixedDigits 2 _⟩,
    readNatural?_fixedDigits (by decide) hyear (by omega),
    readNatural?_fixedDigits (by decide) hmonth (by omega),
    readNatural?_fixedDigits (by decide) hbound (by omega)]
  dsimp only [bind, Option.bind]
  rw [hlast]
  exact if_pos hday

/-- A date is a day, written in full or with a plus sign and then before the text in full. -/
theorem of_calendarDate? (h : calendarDate? s = some x) :
    IsDay x ∧ (s = dayText x ∨ '+' ∈ s ∧ s < dayText x) := by
  unfold calendarDate? at h
  split at h
  next year month day hsplit =>
    have hs : s = year ++ '-' :: (month ++ '-' :: day) := by
      have hjoined : ['-'].intercalate (s.splitOn '-') = s := List.intercalate_splitOn '-'
      rw [← hjoined, hsplit]
      simp [List.intercalate]
    split at h
    next hsizes =>
      obtain ⟨hyearSize, hmonthSize, hdaySize⟩ := hsizes
      simp only [Option.bind_eq_bind, Option.bind_eq_some_iff] at h
      obtain ⟨y, hyear, m, hmonth, d, hday, last, hlast, h⟩ := h
      split at h
      next hbounds =>
        obtain rfl := Option.some.inj h
        obtain ⟨hyearBound, hyearLength, hyear⟩ := readNatural?_cases hyearSize hyear
        obtain ⟨-, hmonthLength, hmonth⟩ := readNatural?_cases hmonthSize hmonth
        obtain ⟨-, -, hday⟩ := readNatural?_cases hdaySize hday
        refine ⟨⟨hyearBound, last, hlast, hbounds⟩, ?_⟩
        rw [hs, dayText]
        dsimp only
        -- The first part with a plus sign decides.
        rcases hyear with hyear | ⟨hplus, hbefore⟩
        · rcases hmonth with hmonth | ⟨hplus, hbefore⟩
          · rcases hday with hday | ⟨hplus, hbefore⟩
            · rw [← hyear, ← hmonth, ← hday]
              exact .inl rfl
            · rw [← hyear, ← hmonth]
              refine .inr ⟨by simp [hplus], List.append_left_lt (List.cons_lt_cons_self.2 ?_)⟩
              exact List.append_left_lt (List.cons_lt_cons_self.2 hbefore)
          · rw [← hyear]
            refine .inr ⟨by simp [hplus], List.append_left_lt (List.cons_lt_cons_self.2 ?_)⟩
            exact lt_append_of_lt (by rw [hmonthLength, length_fixedDigits]) hbefore
        · refine .inr ⟨by simp [hplus], ?_⟩
          exact lt_append_of_lt (by rw [hyearLength, length_fixedDigits]) hbefore
      next => exact absurd h (by simp)
    next => exact absurd h (by simp)
  next => exact absurd h (by simp)

theorem compareDays_eq (h : compareDays x y = .eq) : x = y := by
  rw [compareDays, Ordering.then_eq_eq, Ordering.then_eq_eq, Nat.compare_eq_eq, Nat.compare_eq_eq,
    Nat.compare_eq_eq] at h
  exact Prod.ext h.1 (Prod.ext h.2.1 h.2.2)

theorem compareDays_swap (x y : Nat × Nat × Nat) : (compareDays x y).swap = compareDays y x := by
  simp only [compareDays, Ordering.swap_then, Nat.compare_swap]

/-- An earlier day has the smaller text in full. -/
theorem dayText_lt (hy : IsDay y) (h : compareDays x y = .lt) : dayText x < dayText y := by
  obtain ⟨hmonthBound, hdayBound⟩ := hy.bounds
  rw [compareDays, Ordering.then_eq_lt, Ordering.then_eq_lt, Nat.compare_eq_lt, Nat.compare_eq_lt,
    Nat.compare_eq_lt, Nat.compare_eq_eq, Nat.compare_eq_eq] at h
  unfold dayText
  rcases h with hyear | ⟨hyear, hmonth | ⟨hmonth, hday⟩⟩
  · exact lt_append_of_lt (by rw [length_fixedDigits, length_fixedDigits]) (fixedDigits_lt hy.year hyear)
  · rw [hyear]
    refine List.append_left_lt (List.cons_lt_cons_self.2 ?_)
    exact lt_append_of_lt (by rw [length_fixedDigits, length_fixedDigits])
      (fixedDigits_lt hmonthBound hmonth)
  · rw [hyear, hmonth]
    refine List.append_left_lt (List.cons_lt_cons_self.2 ?_)
    exact List.append_left_lt (List.cons_lt_cons_self.2 (fixedDigits_lt hdayBound hday))

/-! ### Dates as values -/

theorem compare_of_lt (h : a.toList < b.toList) : compare a b = .lt :=
  if_pos (String.lt_iff.2 h)

/-- Texts in full compare as their days. -/
theorem compare_dayText (hx : IsDay x) (hy : IsDay y) (ha : a.toList = dayText x)
    (hb : b.toList = dayText y) : compare a b = compareDays x y := by
  cases hdays : compareDays x y with
  | lt => exact compare_of_lt (by rw [ha, hb]; exact dayText_lt hy hdays)
  | eq =>
    obtain rfl := compareDays_eq hdays
    obtain rfl := String.toList_inj.1 (ha.trans hb.symm)
    exact Std.ReflCmp.compare_self
  | gt =>
    have hswap : compareDays y x = .lt := by rw [← compareDays_swap, hdays]; rfl
    rw [@Std.OrientedCmp.eq_swap String compare, compare_of_lt (by rw [ha, hb]; exact dayText_lt hx hswap)]
    rfl

/-- A date is a value, and its text is what is compared. -/
theorem ofField_date (h : calendarDate? a.toList = some x) : Value.ofField .date a = .text a := by
  have hnone : calendarDate? "".toList = none ∧ calendarDate? Field.nullText.toList = none := by
    decide
  have hvalue : Field.isNull a = false := by
    refine Bool.eq_false_iff.2 fun hnull => ?_
    rw [Field.isNull, Bool.or_eq_true, beq_iff_eq, beq_iff_eq] at hnull
    rcases hnull with rfl | rfl
    · exact absurd (hnone.1.symm.trans h) (by simp)
    · exact absurd (hnone.2.symm.trans h) (by simp)
  unfold Value.ofField
  rw [hvalue]
  rfl

/-- Dates without a plus sign compare as their days, and each day has one such text. A date with a plus
sign is of the same day as one without, but comes before it. -/
theorem compare?_dates (ha : accepts .date a = true) (hb : accepts .date b = true) :
    ∃ x y, calendarDate? a.toList = some x ∧ calendarDate? b.toList = some y ∧
      ('+' ∉ a.toList → '+' ∉ b.toList →
        (Value.ofField .date a).compare? (Value.ofField .date b) = some (compareDays x y) ∧
          (x = y → a = b)) ∧
      ('+' ∈ a.toList → ∃ full, accepts .date full = true ∧ '+' ∉ full.toList ∧
        calendarDate? full.toList = some x ∧
          (Value.ofField .date a).compare? (Value.ofField .date full) = some .lt) := by
  obtain ⟨x, hx⟩ := Option.isSome_iff_exists.1 ha
  obtain ⟨y, hy⟩ := Option.isSome_iff_exists.1 hb
  obtain ⟨hxday, hxtext⟩ := of_calendarDate? hx
  obtain ⟨hyday, hytext⟩ := of_calendarDate? hy
  refine ⟨x, y, hx, hy, fun hxplain hyplain => ?_, fun hplus => ?_⟩
  · have hxfull := hxtext.resolve_right fun h => hxplain h.1
    have hyfull := hytext.resolve_right fun h => hyplain h.1
    refine ⟨?_, fun hsame => ?_⟩
    · rw [ofField_date hx, ofField_date hy, Value.compare?, compare_dayText hxday hyday hxfull hyfull]
    · subst hsame
      exact String.toList_inj.1 (hxfull.trans hyfull.symm)
  · have hbefore : a.toList < dayText x := by
      refine (hxtext.resolve_left fun hfull => ?_).2
      rw [hfull] at hplus
      exact not_mem_dayText hplus
    have hread : calendarDate? (String.ofList (dayText x)).toList = some x := by
      rw [String.toList_ofList, calendarDate?_dayText hxday]
    refine ⟨String.ofList (dayText x), Option.isSome_iff_exists.2 ⟨x, hread⟩, ?_, hread, ?_⟩
    · rw [String.toList_ofList]
      exact not_mem_dayText
    · rw [ofField_date hx, ofField_date hread, Value.compare?,
        compare_of_lt (by rwa [String.toList_ofList])]

theorem compare?_dates_leapDay :
    accepts .date "2024-02-29" = true ∧ accepts .date "+999-03-01" = true ∧
      (Value.ofField .date "2024-02-29").compare? (Value.ofField .date "2023-12-31") = some .gt ∧
      ∃ full, accepts .date full = true ∧ '+' ∉ full.toList ∧
        calendarDate? full.toList = some (999, 3, 1) ∧
          (Value.ofField .date "+999-03-01").compare? (Value.ofField .date full) = some .lt := by
  have hleap : accepts .date "2024-02-29" = true := by decide
  have hplus : accepts .date "+999-03-01" = true := by decide
  have hdays : calendarDate? "2024-02-29".toList = some (2024, 2, 29) ∧
      calendarDate? "2023-12-31".toList = some (2023, 12, 31) ∧
        calendarDate? "+999-03-01".toList = some (999, 3, 1) := by
    decide
  obtain ⟨x, y, hx, hy, hfull, -⟩ := compare?_dates hleap (b := "2023-12-31") (by decide)
  obtain ⟨z, -, hz, -, -, hsigned⟩ := compare?_dates hplus hleap
  obtain rfl := Option.some.inj (hdays.1.symm.trans hx)
  obtain rfl := Option.some.inj (hdays.2.1.symm.trans hy)
  obtain rfl := Option.some.inj (hdays.2.2.symm.trans hz)
  exact ⟨hleap, hplus, (hfull (by decide) (by decide)).1, hsigned (by decide)⟩

end DataType

end FlatFileDb
