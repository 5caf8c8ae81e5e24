import FlatFileDb.Number.Binary64

/-!
# The shortest decimal text of a number

A number is written with the fewest decimal digits that read back as it; of the decimals with that
many digits the nearest, and of two equally near ones the larger. There is no exponent: zeros fill
up to the point. Whole numbers below `10 ^ 15` are written in full.
-/

namespace FlatFileDb.Number.Binary64

-- Powers are those of the core library, whatever else is imported.
attribute [local instance (2000)] instPowNat

/-- The decimal exponent `k` with `10 ^ (k - 1) ≤ units · 2 ^ -1074 < 10 ^ k`. -/
def decimalExponent (units : Nat) : Int :=
  (decimalDigits (units * 10 ^ (400 : Nat) / one)).length - 400

/-- The magnitude in steps of `10 ^ exponent`, as a fraction. -/
def inSteps (units : Nat) (exponent : Int) : Nat × Nat :=
  if 0 ≤ exponent then (units, one * 10 ^ exponent.toNat)
  else (units * 10 ^ (-exponent).toNat, one)

/-- The coefficient of the decimal with the given exponent that reads back as the magnitude and lies
nearest to it. -/
def nearestDecimal? (units : Nat) (exponent : Int) : Option Nat :=
  let (numerator, denominator) := inSteps units exponent
  let below := numerator / denominator
  let readsBack := fun n : Nat => decide (ofDecimal false n exponent = finite units)
  if readsBack below && readsBack (below + 1) then
    some (if 2 * (numerator % denominator) < denominator then below else below + 1)
  else if readsBack below then some below
  else if readsBack (below + 1) then some (below + 1)
  else none

/-- The shortest decimal that reads back as a positive magnitude: coefficient and exponent. Seventeen
digits always suffice. -/
def shortestDecimal (units : Nat) : Nat × Int :=
  let top := decimalExponent units
  ((List.range 17).findSome? fun extra =>
    let exponent := top - (extra + 1 : Nat)
    (nearestDecimal? units exponent).map fun coefficient => (coefficient, exponent)).getD (0, 0)

/-- Digits with `places` of them behind the point. -/
def withPoint (digits : List Char) (places : Nat) : List Char :=
  let padded := List.replicate (places + 1 - digits.length) '0' ++ digits
  let whole := padded.take (padded.length - places)
  let fraction := ((padded.drop (padded.length - places)).reverse.dropWhile (· == '0')).reverse
  if fraction.isEmpty then whole else whole ++ '.' :: fraction

/-- The positional text of `coefficient · 10 ^ exponent`. -/
def positional (coefficient : Nat) (exponent : Int) : List Char :=
  if 0 ≤ exponent then decimalDigits coefficient ++ List.replicate exponent.toNat '0'
  else withPoint (decimalDigits coefficient) (-exponent).toNat

/-- The text of a number. -/
def render : Binary64 → List Char
  | nan => "NaN".toList
  | infinity negative => if negative then "-inf".toList else "inf".toList
  | finite units =>
    let magnitude := units.natAbs
    if magnitude % one = 0 ∧ magnitude < 10 ^ (15 : Nat) * one then
      integerText (units / one)
    else
      let (coefficient, exponent) := shortestDecimal magnitude
      (if units < 0 then ['-'] else []) ++ positional coefficient exponent

/-- The text of a number. -/
def toText (x : Binary64) : String :=
  String.ofList x.render

end FlatFileDb.Number.Binary64
