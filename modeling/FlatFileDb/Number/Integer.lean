/-!
# Reading integers

Decimal integers as they may stand in a field, a clause or a length: an optional sign and at least
one digit, nothing else, and a value inside the range of 64 bits.
-/

namespace FlatFileDb.Number

-- Powers are those of the core library, whatever else is imported.
attribute [local instance (2000)] instPowNat

/-- The value of a sequence of decimal digits, continuing from `value`. -/
def digitsFrom (value : Nat) : List Char → Option Nat
  | [] => some value
  | c :: rest => if c.isDigit then digitsFrom (value * 10 + (c.toNat - 48)) rest else none

/-- The value of a nonempty sequence of decimal digits. -/
def readDigits? (s : List Char) : Option Nat :=
  if s.isEmpty then none else digitsFrom 0 s

/-- A natural number below `limit`; a plus sign may stand in front. -/
def readNatural? (limit : Nat) (s : List Char) : Option Nat :=
  let digits := match s with
    | '+' :: rest => rest
    | _ => s
  (readDigits? digits).filter (· < limit)

/-- A signed integer of 64 bits; either sign may stand in front. -/
def readInteger? : List Char → Option Int
  | '-' :: rest =>
    match readDigits? rest with
    | some n => if n ≤ 2 ^ (63 : Nat) then some (-(n : Int)) else none
    | none => none
  | s => (readNatural? (2 ^ (63 : Nat)) s).map Int.ofNat

/-- The decimal digits of a natural number. -/
def decimalDigits (n : Nat) : List Char :=
  Nat.toDigits 10 n

/-- The decimal text of an integer. -/
def integerText (n : Int) : List Char :=
  if n < 0 then '-' :: decimalDigits n.natAbs else decimalDigits n.natAbs

end FlatFileDb.Number
