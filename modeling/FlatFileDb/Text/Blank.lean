/-!
# Blanks, trimming and words

Which characters count as white space, how a text loses the white space around it, and how it falls
into words. The rest may rely on this: the words of a text are its maximal runs without white space,
and dropping words leaves a piece of the text itself, with the white space inside it untouched.
-/

namespace FlatFileDb.Text

/-- The white space of Unicode. -/
def isBlank (c : Char) : Bool :=
  let n := c.toNat
  (9 ≤ n && n ≤ 13) || n == 0x20 || n == 0x85 || n == 0xa0 || n == 0x1680
    || (0x2000 ≤ n && n ≤ 0x200a) || n == 0x2028 || n == 0x2029 || n == 0x202f || n == 0x205f
    || n == 0x3000

/-- The text from its first character that is not blank. -/
def trimStart (s : List Char) : List Char :=
  s.dropWhile isBlank

/-- The text up to its last character that is not blank. -/
def trimEnd (s : List Char) : List Char :=
  (s.reverse.dropWhile isBlank).reverse

/-- The text without the white space around it. -/
def trim (s : List Char) : List Char :=
  trimEnd (trimStart s)

/-- The maximal runs without white space. -/
def words (s : List Char) : List (List Char) :=
  (s.splitOnP isBlank).filter fun piece => !piece.isEmpty

/-- What follows the first `n` words, from the next word on. -/
def afterWords : Nat → List Char → List Char
  | 0, s => trimStart s
  | n + 1, s => afterWords n ((trimStart s).dropWhile fun c => !isBlank c)

/-- What follows the first `n` words, trimmed. -/
def dropWords (n : Nat) (s : List Char) : List Char :=
  trimEnd (afterWords n s)

end FlatFileDb.Text
