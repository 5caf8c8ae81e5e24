import FlatFileDb.Text.CaseTable

/-!
# Capital and small letters

Full case mapping of texts: one letter may become several, and a capital sigma becomes a final sigma
at the end of a word. ASCII letters are mapped without looking at the tables.
-/

namespace FlatFileDb.Text

open CaseTable

private def lookUp (runs : List Run) (sequences : List (Nat × List Nat)) (c : Char) : List Char :=
  match sequences.lookup c.toNat with
  | some codes => codes.map Char.ofNat
  | none =>
    match runs.findSome? (·.image? c.toNat) with
    | some code => [Char.ofNat code]
    | none => [c]

private def inRanges (ranges : List (Nat × Nat)) (c : Char) : Bool :=
  ranges.any fun range => range.1 ≤ c.toNat && c.toNat ≤ range.2

/-- The capital form of one character. -/
def upperChar (c : Char) : List Char :=
  if c.toNat < 0x80 then [c.toUpper] else lookUp upperRuns upperSequences c

/-- The small form of one character outside of any word. -/
def lowerChar (c : Char) : List Char :=
  if c.toNat < 0x80 then [c.toLower] else lookUp lowerRuns lowerSequences c

/-- Whether the character is a letter that has a case. -/
def isCased (c : Char) : Bool :=
  if c.toNat < 0x80 then c.isAlpha else inRanges cased c

/-- Whether the character is passed over when the case around a letter is looked at. -/
def isCaseIgnorable (c : Char) : Bool :=
  if c.toNat < 0x80 then c.toNat == 0x27 || c == '.' || c == ':' || c == '^' || c.toNat == 0x60
  else inRanges ignorable c

/-- Whether the first character that is not passed over has a case. -/
def startsCased (s : List Char) : Bool :=
  match s.dropWhile isCaseIgnorable with
  | [] => false
  | c :: _ => isCased c

/-- A text in capitals. -/
def upper (s : List Char) : List Char :=
  s.flatMap upperChar

/-- Small letters for what follows a text that ends, but for characters passed over, in a letter
with a case iff `after` holds. -/
def lowerFrom (after : Bool) : List Char → List Char
  | [] => []
  | c :: rest =>
    let small :=
      if c == 'Σ' then (if after && !startsCased rest then ['ς'] else ['σ'])
      else lowerChar c
    small ++ lowerFrom (if isCaseIgnorable c then after else isCased c) rest

/-- A text in small letters. -/
def lower (s : List Char) : List Char :=
  lowerFrom false s

/-- The capital form of a text. -/
def toUpper (s : String) : String :=
  String.ofList (upper s.toList)

/-- The small form of a text. -/
def toLower (s : String) : String :=
  String.ofList (lower s.toList)

/-- Whether two texts are equal when the case of ASCII letters is left aside. -/
def equalsIgnoringAsciiCase (s t : List Char) : Bool :=
  s.map Char.toLower == t.map Char.toLower

end FlatFileDb.Text
