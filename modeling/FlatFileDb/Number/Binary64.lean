import FlatFileDb.Number.Integer

/-!
# Floating-point numbers of 64 bits

Every finite number of the format is a whole multiple of `2 ^ -1074`, so a number is kept as that
multiple, an exact integer. Sums, quotients and decimal texts are computed exactly and rounded once:
to 53 significant bits, the nearer one, a tie to the even one, and to infinity from `2 ^ 1024` on.
The sign of zero is not kept: nothing that is done with the numbers here shows it.
-/

namespace FlatFileDb.Number

-- Powers are those of the core library, whatever else is imported.
attribute [local instance (2000)] instPowNat

/-- A number of the format, with `finite units` for `units · 2 ^ -1074`. -/
inductive Binary64 where
  | finite (units : Int)
  | infinity (negative : Bool)
  | nan
  deriving DecidableEq, Repr

namespace Binary64

/-- How many units make one. -/
def one : Nat := 2 ^ (1074 : Nat)

/-- The first magnitude, in units, that is too large for a finite number. -/
def overflow : Nat := 2 ^ (2098 : Nat)

/-- The whole number nearest to a quotient; of two equally near ones the even one. -/
def roundQuotient (numerator denominator : Nat) : Nat :=
  let quotient := numerator / denominator
  let twice := 2 * (numerator % denominator)
  if twice < denominator then quotient
  else if denominator < twice then quotient + 1
  else if quotient % 2 = 0 then quotient
  else quotient + 1

/-- The quotient rounded to a whole number of at most 53 significant bits. -/
def roundToPrecision (numerator denominator : Nat) : Nat :=
  let excess := (numerator / denominator).log2 + 1 - 53
  roundQuotient numerator (denominator * 2 ^ excess) * 2 ^ excess

/-- The finite number of the given sign and magnitude in units. -/
def ofMagnitude (negative : Bool) (magnitude : Nat) : Binary64 :=
  finite (if negative then -(magnitude : Int) else magnitude)

/-- The number nearest to a quotient of units. -/
def ofQuotient (negative : Bool) (numerator denominator : Nat) : Binary64 :=
  let magnitude := roundToPrecision numerator denominator
  if overflow ≤ magnitude then infinity negative else ofMagnitude negative magnitude

/-- The number nearest to `coefficient · 10 ^ exponent`. A whole number of 53 bits is kept as it is.
Values beyond `10 ^ 400` and below `10 ^ -400` are told by their length, without computing the
power. -/
def ofDecimal (negative : Bool) (coefficient : Nat) (exponent : Int) : Binary64 :=
  let magnitude := (decimalDigits coefficient).length + exponent
  if exponent = 0 ∧ coefficient < 2 ^ (53 : Nat) then ofMagnitude negative (coefficient * one)
  else if coefficient = 0 then finite 0
  else if 400 < magnitude then infinity negative
  else if magnitude < -400 then finite 0
  else if 0 ≤ exponent then ofQuotient negative (coefficient * 10 ^ exponent.toNat * one) 1
  else ofQuotient negative (coefficient * one) (10 ^ (-exponent).toNat)

/-- What has at most 53 significant bits needs no rounding. -/
theorem roundToPrecision_exact {n : Nat} (k : Nat) (h : n < 2 ^ (53 : Nat)) :
    roundToPrecision (n * 2 ^ k) 1 = n * 2 ^ k := by
  have excess : (n * 2 ^ k).log2 + 1 - 53 ≤ k := by
    by_cases hn : n = 0
    · simp [hn]
    · have : (n * 2 ^ k).log2 < 53 + k := by
        rw [Nat.log2_lt (Nat.mul_ne_zero hn (Nat.ne_of_gt (Nat.two_pow_pos k))), Nat.pow_add]
        exact Nat.mul_lt_mul_of_pos_right h (Nat.two_pow_pos k)
      omega
  obtain ⟨j, hj⟩ := Nat.exists_eq_add_of_le excess
  rw [roundToPrecision, Nat.div_one]
  generalize (n * 2 ^ k).log2 + 1 - 53 = e at hj
  have split : n * 2 ^ k = n * 2 ^ j * 2 ^ e := by
    rw [hj, Nat.pow_add, Nat.mul_assoc, Nat.mul_comm (2 ^ j)]
  rw [split, Nat.one_mul, roundQuotient, Nat.mul_div_cancel _ (Nat.two_pow_pos e),
    Nat.mul_mod_left, if_pos (Nat.two_pow_pos e)]

/-- The order of two numbers; none if one of them is not a number. -/
def compare? : Binary64 → Binary64 → Option Ordering
  | nan, _ => none
  | _, nan => none
  | finite a, finite b => some (compare a b)
  | infinity a, infinity b => some (compare b a)
  | infinity negative, finite _ => some (if negative then .lt else .gt)
  | finite _, infinity negative => some (if negative then .gt else .lt)

/-- The rounded sum. -/
def add : Binary64 → Binary64 → Binary64
  | nan, _ => nan
  | _, nan => nan
  | infinity a, infinity b => if a = b then infinity a else nan
  | infinity a, finite _ => infinity a
  | finite _, infinity b => infinity b
  | finite a, finite b => ofQuotient (decide (a + b < 0)) (a + b).natAbs 1

/-- The rounded quotient by a positive count. -/
def divideBy (count : Nat) : Binary64 → Binary64
  | finite a => ofQuotient (decide (a < 0)) a.natAbs count
  | other => other

/-- The sum of a list, added up from its first element on. -/
def sum (numbers : List Binary64) : Binary64 :=
  numbers.foldl add (finite 0)

/-! ### Reading -/

private def exponentOf? : List Char → Option Int
  | [] => some 0
  | c :: rest =>
    if c == 'e' || c == 'E' then
      match rest with
      | '-' :: digits => (readDigits? digits).map fun n => -(n : Int)
      | '+' :: digits => (readDigits? digits).map Int.ofNat
      | digits => (readDigits? digits).map Int.ofNat
    else none

private def fractionOf : List Char → List Char × List Char
  | '.' :: rest => (rest.takeWhile Char.isDigit, rest.dropWhile Char.isDigit)
  | rest => ([], rest)

/-- A number without its sign: the words for infinity and for no number in any case, or digits with
a point and an exponent that may be left out. At least one digit stands before or after the point. -/
def readMagnitude? (negative : Bool) (s : List Char) : Option Binary64 :=
  let small := s.map Char.toLower
  if small == "inf".toList || small == "infinity".toList then some (infinity negative)
  else if small == "nan".toList then some nan
  else
    let whole := s.takeWhile Char.isDigit
    let (fraction, rest) := fractionOf (s.dropWhile Char.isDigit)
    match readDigits? (whole ++ fraction), exponentOf? rest with
    | some coefficient, some exponent =>
      some (ofDecimal negative coefficient (exponent - fraction.length))
    | _, _ => none

/-- The number that a text spells, if it spells one. -/
def read? : List Char → Option Binary64
  | '-' :: rest => readMagnitude? true rest
  | '+' :: rest => readMagnitude? false rest
  | s => readMagnitude? false s

/-- The number that a text spells, if it spells one. -/
def ofString? (s : String) : Option Binary64 :=
  read? s.toList

end Binary64

end FlatFileDb.Number
