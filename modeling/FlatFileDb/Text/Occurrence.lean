/-!
# Texts inside other texts

Whether a text occurs anywhere in another one, and what is left of a text without a given beginning or
a given end.
-/

namespace FlatFileDb.Text

/-- Whether a text occurs in another one. -/
def occursIn (needle : List Char) : List Char → Bool
  | [] => needle.isEmpty
  | c :: rest => needle.isPrefixOf (c :: rest) || occursIn needle rest

/-- What follows a given beginning. -/
def afterStart? : List Char → List Char → Option (List Char)
  | [], s => some s
  | _ :: _, [] => none
  | c :: start, d :: s => if c == d then afterStart? start s else none

/-- What precedes a given end. -/
def beforeEnd? (ending s : List Char) : Option (List Char) :=
  (afterStart? ending.reverse s.reverse).map List.reverse

theorem afterStart?_eq_some {start s rest : List Char} :
    afterStart? start s = some rest ↔ s = start ++ rest := by
  induction start generalizing s with
  | nil => simp [afterStart?]
  | cons c start ih =>
    cases s with
    | nil => simp [afterStart?]
    | cons d s =>
      by_cases h : c = d
      · simp [afterStart?, h, ih]
      · simp [afterStart?, h, Ne.symm h]

end FlatFileDb.Text
