/-!
# Bytes of a text

A character takes one to four bytes. Some lengths are counted in bytes, although texts are cut
between characters only.
-/

namespace FlatFileDb.Text

-- Sums start with the zero of the core library, whatever else is imported.
attribute [local instance (2000)] Zero.ofOfNat0

/-- How many bytes a text takes. -/
def byteCount (s : List Char) : Nat :=
  (s.map Char.utf8Size).sum

/-- A text without its first `count` bytes; none if it has fewer or the cut falls into a character. -/
def dropBytes? : Nat → List Char → Option (List Char)
  | 0, s => some s
  | _ + 1, [] => none
  | count + 1, c :: rest =>
    if c.utf8Size ≤ count + 1 then dropBytes? (count + 1 - c.utf8Size) rest else none

@[simp] theorem byteCount_nil : byteCount [] = 0 := rfl

@[simp] theorem byteCount_cons (c : Char) (s : List Char) :
    byteCount (c :: s) = c.utf8Size + byteCount s := by
  simp [byteCount]

/-- Dropping the bytes of a beginning leaves what follows it. -/
theorem dropBytes?_byteCount (s rest : List Char) :
    dropBytes? (byteCount s) (s ++ rest) = some rest := by
  induction s with
  | nil => simp [dropBytes?]
  | cons c s ih =>
    have positive := c.utf8Size_pos
    obtain ⟨count, h⟩ : ∃ count, byteCount (c :: s) = count + 1 :=
      ⟨byteCount (c :: s) - 1, by rw [byteCount_cons]; omega⟩
    rw [h, List.cons_append, dropBytes?, ← h, byteCount_cons, if_pos (by omega),
      Nat.add_sub_cancel_left, ih]

end FlatFileDb.Text
